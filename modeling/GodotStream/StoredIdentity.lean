import GodotStream.UuidText
import GodotStream.SceneTree
import Mathlib.Data.List.TakeWhile

/-!
# How the program writes and makes uuids

A node stores its uuid and the uuid of its parent as texts and reads them back when its
scene is instantiated. A scene file has the uuid in its name, behind a directory of any
length. New uuids come from four random words, of which six bits are overwritten.
-/

namespace GodotStream

namespace StreamObjectNode

/-- `get_uuid_str`. -/
def getUuidStr (node : StreamObjectNode) : String :=
  String.ofList node.uuid.toString

/-- `get_parent_uuid_str`. -/
def getParentUuidStr (node : StreamObjectNode) : String :=
  String.ofList node.parentUuid.toString

/-- The characters that a C string has. -/
def cString (id : String) : List Char :=
  id.toList.takeWhile (· ≠ Char.ofNat 0)

/-- `set_uuid_str`; an invalid text only gets an error message. -/
def setUuidStr (node : StreamObjectNode) (id : String) : StreamObjectNode :=
  match Uuid.fromString (cString id) with
  | some uuid => { node with uuid }
  | none => node

/-- `set_parent_uuid_str`. -/
def setParentUuidStr (node : StreamObjectNode) (id : String) : StreamObjectNode :=
  match Uuid.fromString (cString id) with
  | some parentUuid => { node with parentUuid }
  | none => node

end StreamObjectNode

/-- `uuid_variant`. -/
inductive UuidVariant where
  | ncs
  | rfc
  | microsoft
  | reserved
deriving DecidableEq

/-- `uuid_version`. -/
inductive UuidVersion where
  | none
  | timeBased
  | dceSecurity
  | nameBasedMd5
  | randomNumberBased
  | nameBasedSha1
deriving DecidableEq

namespace Uuid

def variant (uuid : Uuid) : UuidVariant :=
  let byte := uuid.data.getD 8 0
  if byte &&& 0x80 = 0x00 then .ncs
  else if byte &&& 0xC0 = 0x80 then .rfc
  else if byte &&& 0xE0 = 0xC0 then .microsoft
  else .reserved

def version (uuid : Uuid) : UuidVersion :=
  let byte := uuid.data.getD 6 0
  if byte &&& 0xF0 = 0x10 then .timeBased
  else if byte &&& 0xF0 = 0x20 then .dceSecurity
  else if byte &&& 0xF0 = 0x30 then .nameBasedMd5
  else if byte &&& 0xF0 = 0x40 then .randomNumberBased
  else if byte &&& 0xF0 = 0x50 then .nameBasedSha1
  else .none

/-- The bytes of a word as a machine that stores the lowest one first lays them out. -/
def wordBytes (word : BitVec 32) : List (BitVec 8) :=
  [word.setWidth 8, (word >>> 8).setWidth 8, (word >>> 16).setWidth 8, (word >>> 24).setWidth 8]

/-- `basic_uuid_random_generator::operator()` on the four words of its engine. -/
def generate (first second third fourth : BitVec 32) : Uuid :=
  let bytes := wordBytes first ++ wordBytes second ++ wordBytes third ++ wordBytes fourth
  -- variant must be 10xxxxxx
  let bytes := bytes.set 8 (bytes.getD 8 0 &&& 0xBF)
  let bytes := bytes.set 8 (bytes.getD 8 0 ||| 0x80)
  -- version must be 0100xxxx
  let bytes := bytes.set 6 (bytes.getD 6 0 &&& 0x4F)
  let bytes := bytes.set 6 (bytes.getD 6 0 ||| 0x40)
  ofData bytes

end Uuid

theorem Uuid.cString_toString (uuid : Uuid) :
    StreamObjectNode.cString (String.ofList uuid.toString) = uuid.toString := by
  rw [StreamObjectNode.cString, String.toList_ofList, List.takeWhile_eq_self_iff]
  intro ch mem
  apply decide_eq_true
  rcases Uuid.eq_dash_or_isHex mem with rfl | hex
  · decide
  · rintro rfl
    exact absurd hex (by decide)

namespace StreamObjectNode

variable (saved node : StreamObjectNode)

theorem setUuidStr_getUuidStr :
    node.setUuidStr saved.getUuidStr = { node with uuid := saved.uuid } := by
  rw [setUuidStr, getUuidStr, Uuid.cString_toString, Uuid.fromString_toString]

theorem setParentUuidStr_getParentUuidStr :
    node.setParentUuidStr saved.getParentUuidStr =
      { node with parentUuid := saved.parentUuid } := by
  rw [setParentUuidStr, getParentUuidStr, Uuid.cString_toString, Uuid.fromString_toString]

/-- The stored texts of a node give another node both uuids, in whichever order they are set. -/
theorem stored_uuids :
    (node.setUuidStr saved.getUuidStr).setParentUuidStr saved.getParentUuidStr =
      { node with uuid := saved.uuid, parentUuid := saved.parentUuid } ∧
    (node.setParentUuidStr saved.getParentUuidStr).setUuidStr saved.getUuidStr =
      { node with uuid := saved.uuid, parentUuid := saved.parentUuid } := by
  simp only [setUuidStr_getUuidStr, setParentUuidStr_getParentUuidStr, and_self]

end StreamObjectNode

/-- The result of `_object_scene_path`. -/
def ScenePath.text (path : ScenePath) : String :=
  path.dir ++ String.ofList path.uuid.toString ++ ".tscn"

/-- The names of the scene files are as many as the pairs of a directory and a uuid, although
the directory may end in anything. -/
theorem ScenePath.text_injective : Function.Injective ScenePath.text := by
  intro first second same
  have chars := congrArg String.toList same
  simp only [text, String.toList_append, String.toList_ofList] at chars
  have named := List.append_cancel_right chars
  have parts := List.append_inj' named (by rw [Uuid.length_toString, Uuid.length_toString])
  rcases first with ⟨dir, uuid⟩
  rcases second with ⟨otherDir, otherUuid⟩
  obtain rfl : dir = otherDir := String.toList_inj.mp parts.1
  obtain rfl : uuid = otherUuid := Uuid.toString_injective parts.2
  rfl

namespace Uuid

theorem exists_wordBytes {bytes : List (BitVec 8)} (size : bytes.length = 4) :
    ∃ word, wordBytes word = bytes := by
  match bytes, size with
  | [lowest, second, third, highest], _ =>
      have a := lowest.isLt
      have b := second.isLt
      have c := third.isLt
      have d := highest.isLt
      refine ⟨BitVec.ofNat 32 (lowest.toNat + 2 ^ 8 * second.toNat + 2 ^ 16 * third.toNat +
        2 ^ 24 * highest.toNat), ?_⟩
      simp only [wordBytes, List.cons.injEq, ← BitVec.toNat_inj, BitVec.toNat_setWidth,
        BitVec.toNat_ushiftRight, BitVec.toNat_ofNat, Nat.shiftRight_eq_div_pow, and_true]
      omega

/-- Four words make any bytes. -/
theorem exists_words {bytes : List (BitVec 8)} (size : bytes.length = 16) :
    ∃ first second third fourth,
      wordBytes first ++ wordBytes second ++ wordBytes third ++ wordBytes fourth = bytes := by
  have piece (start : ℕ) (inside : start + 4 ≤ 16) :
      ∃ word, wordBytes word = (bytes.drop start).take 4 :=
    exists_wordBytes (by rw [List.length_take, List.length_drop]; omega)
  rcases piece 0 (by decide) with ⟨first, firstBytes⟩
  rcases piece 4 (by decide) with ⟨second, secondBytes⟩
  rcases piece 8 (by decide) with ⟨third, thirdBytes⟩
  rcases piece 12 (by decide) with ⟨fourth, fourthBytes⟩
  refine ⟨first, second, third, fourth, ?_⟩
  have last : (bytes.drop 12).take 4 = bytes.drop 12 :=
    List.take_of_length_le (by rw [List.length_drop]; omega)
  rw [firstBytes, secondBytes, thirdBytes, fourthBytes, last, List.append_assoc, List.append_assoc,
    List.drop_zero]
  have join (start : ℕ) : (bytes.drop start).take 4 ++ bytes.drop (start + 4) =
      bytes.drop start := by
    rw [← List.drop_drop, List.take_append_drop]
  rw [join 8, join 4, List.take_append_drop]

/-- The bytes of the words with the fixed bits overwritten. -/
theorem data_generate (first second third fourth : BitVec 32) :
    let bytes := wordBytes first ++ wordBytes second ++ wordBytes third ++ wordBytes fourth
    (generate first second third fourth).data =
      (bytes.set 8 (bytes.getD 8 0 &&& 0xBF ||| 0x80)).set 6
        (bytes.getD 6 0 &&& 0x4F ||| 0x40) :=
  data_ofData rfl

theorem version_eq_iff (uuid : Uuid) :
    uuid.version = .randomNumberBased ↔ uuid.data.getD 6 0 &&& 0xF0 = 0x40 := by
  rw [version]
  generalize uuid.data.getD 6 0 = byte
  revert byte
  decide +kernel

theorem variant_eq_iff (uuid : Uuid) :
    uuid.variant = .rfc ↔ uuid.data.getD 8 0 &&& 0xC0 = 0x80 := by
  rw [variant]
  generalize uuid.data.getD 8 0 = byte
  revert byte
  decide +kernel

theorem version_generate (first second third fourth : BitVec 32) :
    (generate first second third fourth).version = .randomNumberBased := by
  have stamped : ∀ byte : BitVec 8, (byte &&& 0x4F ||| 0x40) &&& 0xF0 = 0x40 := by decide +kernel
  rw [version_eq_iff, data_generate]
  exact stamped _

theorem variant_generate (first second third fourth : BitVec 32) :
    (generate first second third fourth).variant = .rfc := by
  have stamped : ∀ byte : BitVec 8, (byte &&& 0xBF ||| 0x80) &&& 0xC0 = 0x80 := by decide +kernel
  rw [variant_eq_iff, data_generate]
  exact stamped _

/-- Overwriting the fixed bits of a uuid that has them already changes nothing. -/
theorem generate_of_words {uuid : Uuid} (isVersion : uuid.version = .randomNumberBased)
    (isVariant : uuid.variant = .rfc) {first second third fourth : BitVec 32}
    (bytes : wordBytes first ++ wordBytes second ++ wordBytes third ++ wordBytes fourth =
      uuid.data) : generate first second third fourth = uuid := by
  have versionKept : ∀ byte : BitVec 8, byte &&& 0xF0 = 0x40 → byte &&& 0x4F ||| 0x40 = byte := by
    decide +kernel
  have variantKept : ∀ byte : BitVec 8, byte &&& 0xC0 = 0x80 → byte &&& 0xBF ||| 0x80 = byte := by
    decide +kernel
  have same := data_generate first second third fourth
  simp only [bytes] at same
  rw [versionKept _ ((version_eq_iff uuid).mp isVersion),
    variantKept _ ((variant_eq_iff uuid).mp isVariant)] at same
  have unchanged : (uuid.data.set 8 (uuid.data.getD 8 0)).set 6 (uuid.data.getD 6 0) =
      uuid.data := by
    have size := length_data uuid
    rw [List.getD_eq_getElem _ _ (by omega), List.getD_eq_getElem _ _ (by omega),
      List.set_getElem_self, List.set_getElem_self]
  rw [← ofData_data (generate first second third fourth), same, unchanged, ofData_data]

/-- The generated uuids are all those of the random version and the standard variant. -/
theorem exists_generate_iff (uuid : Uuid) :
    (∃ first second third fourth, generate first second third fourth = uuid) ↔
      uuid.version = .randomNumberBased ∧ uuid.variant = .rfc := by
  constructor
  · rintro ⟨first, second, third, fourth, rfl⟩
    exact ⟨version_generate .., variant_generate ..⟩
  · rintro ⟨isVersion, isVariant⟩
    rcases exists_words (length_data uuid) with ⟨first, second, third, fourth, bytes⟩
    exact ⟨first, second, third, fourth, generate_of_words isVersion isVariant bytes⟩

end Uuid

end GodotStream
