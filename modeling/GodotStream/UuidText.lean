import GodotStream.Lib.Loop
import GodotStream.Lib.Radix
import GodotStream.ObjectSceneCache
import Mathlib.Tactic.IntervalCases
import Mathlib.Tactic.Linarith

/-!
# The text of a uuid

Model of `to_string`, `from_string` and `is_valid_uuid` in `uuid.h`, on texts as lists
of characters. A text may stand in braces, has its dashes anywhere, and spells
thirty-two digits in either case. The scene files and the stored properties of a
node use this text.
-/

namespace GodotStream

namespace Uuid

/-- The array of bytes; the first byte holds the highest bits. -/
def data (uuid : Uuid) : List (BitVec 8) :=
  (Radix.write 256 16 (BitVec.toNat (w := 128) uuid)).map (BitVec.ofNat 8)

def ofData (data : List (BitVec 8)) : Uuid :=
  BitVec.ofNat 128 (Radix.read 256 (data.map BitVec.toNat))

/-- `hex2char`, zero for a character that is no digit. -/
def hex2char (ch : Char) : BitVec 8 :=
  if '0' ≤ ch ∧ ch ≤ '9' then BitVec.ofNat 8 (ch.toNat - '0'.toNat)
  else if 'a' ≤ ch ∧ ch ≤ 'f' then BitVec.ofNat 8 (10 + ch.toNat - 'a'.toNat)
  else if 'A' ≤ ch ∧ ch ≤ 'F' then BitVec.ofNat 8 (10 + ch.toNat - 'A'.toNat)
  else 0

def isHex (ch : Char) : Bool :=
  ('0' ≤ ch ∧ ch ≤ '9') ∨ ('a' ≤ ch ∧ ch ≤ 'f') ∨ ('A' ≤ ch ∧ ch ≤ 'F')

/-- `guid_encoder`. -/
def guidEncoder (digit : BitVec 8) : Char :=
  ['0', '1', '2', '3', '4', '5', '6', '7', '8', '9', 'a', 'b', 'c', 'd', 'e', 'f'].getD
    digit.toNat '0'

/-- `empty_guid`. -/
def emptyGuid : List Char :=
  List.replicate 8 '0' ++ '-' :: List.replicate 4 '0' ++ '-' :: List.replicate 4 '0' ++
    '-' :: List.replicate 4 '0' ++ '-' :: List.replicate 12 '0'

/-- The loop variables of `to_string`, which is generic in the characters. -/
structure Writing (CharT : Type) where
  i : ℕ
  index : ℕ
  uustr : List CharT
deriving DecidableEq

/-- One round of the loop of `to_string`; a round that writes moves on by two characters. -/
def writeByte {CharT : Type} (high low : ℕ → CharT) (writing : Writing CharT) :
    Writing CharT ⊕ List CharT :=
  if writing.i < 36 then
    if writing.i = 8 ∨ writing.i = 13 ∨ writing.i = 18 ∨ writing.i = 23 then
      .inl { writing with i := writing.i + 1 }
    else
      .inl
        { i := writing.i + 2
          index := writing.index + 1
          uustr := (writing.uustr.set writing.i (high writing.index)).set (writing.i + 1)
            (low writing.index) }
  else .inr writing.uustr

/-- `to_string`; the loop ends within its thirty-six positions. -/
def toString (uuid : Uuid) : List Char :=
  (Loop.run
    (writeByte (fun index => guidEncoder (uuid.data.getD index 0 >>> 4 &&& 0x0f))
      fun index => guidEncoder (uuid.data.getD index 0 &&& 0x0f))
    37 ⟨0, 0, emptyGuid⟩).getD emptyGuid

/-- The loop variables of `from_string`. -/
structure Scan where
  firstDigit : Bool := true
  index : ℕ := 0
  data : List (BitVec 8) := List.replicate 16 0

/-- One round of the loop of `from_string`. -/
def Scan.read (scan : Scan) (ch : Char) : Option Scan :=
  if ch = '-' then some scan
  else if 16 ≤ scan.index ∨ ¬ isHex ch then none
  else if scan.firstDigit then
    some
      { scan with
        data := scan.data.set scan.index (hex2char ch <<< 4)
        firstDigit := false }
  else
    some
      { data := scan.data.set scan.index (scan.data.getD scan.index 0 ||| hex2char ch)
        index := scan.index + 1
        firstDigit := true }

/-- The characters between the braces, or all of them when there are none. -/
def body (str : List Char) : Option (List Char) :=
  let hasBraces := if str.head? = some '{' then 1 else 0
  if str = [] then none
  else if hasBraces = 1 ∧ str.getLast? ≠ some '}' then none
  else some ((str.take (str.length - hasBraces)).drop hasBraces)

def fromString (str : List Char) : Option Uuid :=
  (body str).bind fun chars =>
    (chars.foldlM Scan.read {}).bind fun scan =>
      if scan.index < 16 then none else some (ofData scan.data)

/-- The loop variables of `is_valid_uuid`. -/
structure Check where
  firstDigit : Bool := true
  index : ℕ := 0

/-- One round of the loop of `is_valid_uuid`. -/
def Check.read (check : Check) (ch : Char) : Option Check :=
  if ch = '-' then some check
  else if 16 ≤ check.index ∨ ¬ isHex ch then none
  else if check.firstDigit then some { check with firstDigit := false }
  else some { index := check.index + 1, firstDigit := true }

def isValidUuid (str : List Char) : Bool :=
  (body str).elim false fun chars =>
    (chars.foldlM Check.read {}).elim false fun check => ! decide (check.index < 16)

theorem length_data (uuid : Uuid) : uuid.data.length = 16 := by
  rw [data, List.length_map, Radix.length_write]

theorem ofData_data (uuid : Uuid) : ofData uuid.data = uuid := by
  have bytes : uuid.data.map BitVec.toNat =
      Radix.write 256 16 (BitVec.toNat (w := 128) uuid) := by
    rw [data, List.map_map]
    refine (List.map_congr_left fun byte mem => ?_).trans (List.map_id _)
    exact Nat.mod_eq_of_lt (Radix.lt_of_mem_write (by decide) mem)
  have small : BitVec.toNat (w := 128) uuid < 256 ^ 16 := BitVec.isLt (w := 128) uuid
  rw [ofData, bytes, Radix.read_write, Nat.mod_eq_of_lt small]
  exact BitVec.ofNat_toNat 128 (uuid : BitVec 128) |>.trans (BitVec.setWidth_eq _)

theorem data_ofData {bytes : List (BitVec 8)} (size : bytes.length = 16) :
    (ofData bytes).data = bytes := by
  have digits : ∀ byte ∈ bytes.map BitVec.toNat, byte < 256 := by
    intro byte mem
    rcases List.mem_map.mp mem with ⟨source, -, rfl⟩
    exact source.isLt
  have small := Radix.read_lt (by decide) digits
  rw [List.length_map, size] at small
  have back := Radix.write_read (by decide) digits
  rw [List.length_map, size] at back
  have same : BitVec.toNat (w := 128) (ofData bytes) = Radix.read 256 (bytes.map BitVec.toNat) :=
    Nat.mod_eq_of_lt small
  rw [data, same, back, List.map_map]
  refine (List.map_congr_left fun byte _ => ?_).trans (List.map_id _)
  exact (BitVec.ofNat_toNat 8 byte).trans (BitVec.setWidth_eq _)

/-- The characters that `is_hex` accepts. -/
def hexDigits : List Char :=
  ['0', '1', '2', '3', '4', '5', '6', '7', '8', '9', 'a', 'b', 'c', 'd', 'e', 'f', 'A', 'B', 'C',
    'D', 'E', 'F']

theorem isHex_iff (ch : Char) : isHex ch = true ↔ ch ∈ hexDigits := by
  constructor
  · intro hex
    have cases : (48 ≤ ch.toNat ∧ ch.toNat ≤ 57) ∨ (97 ≤ ch.toNat ∧ ch.toNat ≤ 102) ∨
        (65 ≤ ch.toNat ∧ ch.toNat ≤ 70) := by
      simpa [isHex, Char.le_def, UInt32.le_iff_toNat_le] using hex
    have back := Char.ofNat_toNat ch
    generalize ch.toNat = code at cases back
    subst back
    rcases cases with ⟨low, high⟩ | ⟨low, high⟩ | ⟨low, high⟩ <;> interval_cases code <;> decide
  · intro mem
    have all : hexDigits.all isHex = true := by decide +kernel
    exact List.all_eq_true.mp all ch mem

/-- Encoding the value of a digit gives the digit in lower case. -/
theorem guidEncoder_hex2char {ch : Char} (hex : isHex ch = true) :
    guidEncoder (hex2char ch) = ch.toLower := by
  have all : (hexDigits.all fun digit =>
      decide (guidEncoder (hex2char digit) = digit.toLower)) = true := by decide +kernel
  exact of_decide_eq_true (List.all_eq_true.mp all ch ((isHex_iff ch).mp hex))

theorem hex2char_le {ch : Char} : hex2char ch ≤ 15 := by
  by_cases hex : isHex ch = true
  · have all : (hexDigits.all fun digit => decide (hex2char digit ≤ 15)) = true := by
      decide +kernel
    exact of_decide_eq_true (List.all_eq_true.mp all ch ((isHex_iff ch).mp hex))
  · simp only [isHex, decide_eq_true_eq, not_or] at hex
    rw [hex2char, if_neg hex.1, if_neg hex.2.1, if_neg hex.2.2]
    decide

/-- Decoding an encoded digit gives it back. -/
theorem isHex_guidEncoder : ∀ digit : BitVec 8, digit ≤ 15 →
    isHex (guidEncoder digit) = true ∧ hex2char (guidEncoder digit) = digit ∧
      (guidEncoder digit).toLower = guidEncoder digit := by
  decide +kernel

theorem isHex_of_toLower {ch : Char} (hex : isHex ch.toLower = true) : isHex ch = true := by
  by_cases upper : ch.val ≥ 'A'.val ∧ ch.val ≤ 'Z'.val
  · have range : 65 ≤ ch.toNat ∧ ch.toNat ≤ 90 := by
      simpa [UInt32.le_iff_toNat_le] using upper
    have back := Char.ofNat_toNat ch
    generalize ch.toNat = code at range back
    subst back
    rcases range with ⟨low, high⟩
    interval_cases code <;> revert hex <;> decide
  · have same : ch.toLower = ch := dif_neg upper
    exact same ▸ hex

/-- The bytes that digits fill, with zero in the lower half of a byte begun. -/
def packed : List (BitVec 8) → List (BitVec 8)
  | [] => []
  | [high] => [high <<< 4]
  | high :: low :: rest => (high <<< 4 ||| low) :: packed rest

/-- The digits of bytes, the higher one first. -/
def nibbles (bytes : List (BitVec 8)) : List (BitVec 8) :=
  bytes.flatMap fun byte : BitVec 8 => [byte >>> 4 &&& 0x0f, byte &&& 0x0f]

theorem packed_append {front : List (BitVec 8)} (even : front.length % 2 = 0)
    (rest : List (BitVec 8)) : packed (front ++ rest) = packed front ++ packed rest := by
  induction front using packed.induct with
  | case1 => rfl
  | case2 high => simp at even
  | case3 high low front ih =>
      have evenRest : front.length % 2 = 0 := by
        rw [List.length_cons, List.length_cons] at even
        omega
      simp only [List.cons_append, packed, ih evenRest]

theorem length_packed {digits : List (BitVec 8)} (even : digits.length % 2 = 0) :
    (packed digits).length = digits.length / 2 := by
  induction digits using packed.induct with
  | case1 => rfl
  | case2 high => simp at even
  | case3 high low rest ih =>
      have evenRest : rest.length % 2 = 0 := by
        rw [List.length_cons, List.length_cons] at even
        omega
      simp only [packed, List.length_cons, ih evenRest]
      omega

theorem packed_nibbles (bytes : List (BitVec 8)) : packed (nibbles bytes) = bytes := by
  have halves : ∀ byte : BitVec 8, (byte >>> 4 &&& 0x0f) <<< 4 ||| (byte &&& 0x0f) = byte := by
    decide +kernel
  induction bytes with
  | nil => rfl
  | cons byte rest ih =>
      rw [nibbles, List.flatMap_cons, ← nibbles]
      simp only [List.cons_append, List.nil_append, packed, halves, ih]

theorem nibbles_packed {digits : List (BitVec 8)} (even : digits.length % 2 = 0)
    (small : ∀ digit ∈ digits, digit ≤ 15) : nibbles (packed digits) = digits := by
  have halves : ∀ high : BitVec 8, high ≤ 15 → ∀ low : BitVec 8, low ≤ 15 →
      (high <<< 4 ||| low) >>> 4 &&& 0x0f = high ∧ (high <<< 4 ||| low) &&& 0x0f = low := by
    decide +kernel
  induction digits using packed.induct with
  | case1 => rfl
  | case2 high => simp at even
  | case3 high low rest ih =>
      have evenRest : rest.length % 2 = 0 := by
        rw [List.length_cons, List.length_cons] at even
        omega
      have both := halves high (small high (by simp)) low (small low (by simp))
      rw [packed, nibbles, List.flatMap_cons, ← nibbles,
        ih evenRest fun digit mem => small digit (by simp [mem])]
      simp only [List.cons_append, List.nil_append, both]

theorem length_nibbles (bytes : List (BitVec 8)) : (nibbles bytes).length = 2 * bytes.length := by
  induction bytes with
  | nil => rfl
  | cons byte rest ih =>
      rw [nibbles, List.flatMap_cons, ← nibbles, List.length_append, ih, List.length_cons]
      simp only [List.length_cons, List.length_nil]
      omega

theorem le_of_mem_nibbles {bytes : List (BitVec 8)} {digit : BitVec 8}
    (mem : digit ∈ nibbles bytes) : digit ≤ 15 := by
  have halves : ∀ byte : BitVec 8, byte >>> 4 &&& 0x0f ≤ 15 ∧ byte &&& 0x0f ≤ 15 := by
    decide +kernel
  rcases List.mem_flatMap.mp mem with ⟨byte, -, inside⟩
  simp only [List.mem_cons, List.not_mem_nil, or_false] at inside
  rcases inside with rfl | rfl
  · exact (halves byte).1
  · exact (halves byte).2

/-- The digits that characters spell. -/
def spelled (chars : List Char) : List (BitVec 8) :=
  (chars.filter (· ≠ '-')).map hex2char

/-- The loop variables after some digits. -/
def Scan.after (digits : List (BitVec 8)) : Scan :=
  { firstDigit := digits.length % 2 = 0
    index := digits.length / 2
    data := packed digits ++ List.replicate (16 - (packed digits).length) 0 }

theorem Scan.read_digit {digits : List (BitVec 8)} (room : digits.length < 32) {ch : Char}
    (hex : isHex ch = true) (noDash : ch ≠ '-') :
    (Scan.after digits).read ch = some (Scan.after (digits ++ [hex2char ch])) := by
  have accepted : ¬ (16 ≤ (Scan.after digits).index ∨ ¬ isHex ch = true) := by
    simp only [Scan.after, not_or, not_not]
    exact ⟨by omega, hex⟩
  rw [Scan.read, if_neg noDash, if_neg accepted]
  rcases Nat.mod_two_eq_zero_or_one digits.length with even | odd
  · -- the digit begins a byte
    have filled := length_packed even
    obtain ⟨left, room⟩ : ∃ left, 16 - digits.length / 2 = left + 1 :=
      ⟨15 - digits.length / 2, by omega⟩
    rw [if_pos (by simp only [Scan.after, even, decide_true])]
    simp only [Scan.after, packed_append even, filled, room, List.replicate_succ, packed,
      List.length_append, List.length_singleton]
    rw [List.set_append_right _ _ (by omega), filled, Nat.sub_self, List.set_cons_zero]
    have next : 16 - (digits.length / 2 + 1) = left := by omega
    have half : (digits.length + 1) / 2 = digits.length / 2 := by omega
    have parity : ¬ (digits.length + 1) % 2 = 0 := by omega
    simp only [next, half, parity, decide_false, List.append_assoc, List.singleton_append]
  · -- the digit completes a byte
    obtain ⟨front, high, rfl⟩ : ∃ front high, digits = front ++ [high] := by
      refine ⟨digits.dropLast, digits.getLast (by rintro rfl; simp at odd), ?_⟩
      rw [List.dropLast_append_getLast]
    rw [List.length_append, List.length_singleton] at odd room
    have even : front.length % 2 = 0 := by omega
    have filled := length_packed even
    have half : (front.length + 1) / 2 = front.length / 2 := by omega
    have parity : ¬ (front.length + 1) % 2 = 0 := by omega
    rw [if_neg (by simp only [Scan.after, List.length_append, List.length_singleton, parity,
      decide_false]; decide)]
    simp only [Scan.after, List.append_assoc, List.singleton_append, packed_append even, packed,
      List.length_append, List.length_cons, List.length_nil, half]
    rw [List.set_append_right _ _ (by omega), filled, Nat.sub_self, List.set_cons_zero,
      List.getD_append_right _ _ _ _ (by omega), filled, Nat.sub_self, List.getD_cons_zero]
    have whole : (front.length + (0 + 1 + 1)) / 2 = front.length / 2 + 1 := by omega
    have again : (front.length + (0 + 1 + 1)) % 2 = 0 := by omega
    simp only [whole, again, decide_true]

theorem Scan.read_full {digits : List (BitVec 8)} (full : 32 ≤ digits.length) {ch : Char}
    (noDash : ch ≠ '-') : (Scan.after digits).read ch = none := by
  have refused : 16 ≤ (Scan.after digits).index ∨ ¬ isHex ch = true := by
    left
    simp only [Scan.after]
    omega
  rw [Scan.read, if_neg noDash, if_pos refused]

/-- All characters other than dashes are digits. -/
def SpellsDigits (chars : List Char) : Prop :=
  ∀ ch ∈ chars, ch ≠ '-' → isHex ch = true

instance (chars : List Char) : Decidable (SpellsDigits chars) :=
  List.decidableBAll (fun ch => ch ≠ '-' → isHex ch = true) chars

theorem spellsDigits_cons {ch : Char} {rest : List Char} :
    SpellsDigits (ch :: rest) ↔ (ch ≠ '-' → isHex ch = true) ∧ SpellsDigits rest :=
  List.forall_mem_cons

/-- The loop of `from_string` ends exactly when the characters other than dashes are digits
and fit the array. -/
theorem foldlM_read (chars : List Char) (digits : List (BitVec 8)) (fits : digits.length ≤ 32) :
    chars.foldlM Scan.read (Scan.after digits) =
      if SpellsDigits chars ∧ digits.length + (spelled chars).length ≤ 32 then
        some (Scan.after (digits ++ spelled chars))
      else none := by
  induction chars generalizing digits with
  | nil => simp [SpellsDigits, spelled, fits]
  | cons ch rest ih =>
      simp only [List.foldlM_cons, spellsDigits_cons]
      by_cases dash : ch = '-'
      · have same : spelled (ch :: rest) = spelled rest := by simp [spelled, dash]
        rw [Scan.read, if_pos dash, same, Option.bind_eq_bind, Option.bind_some, ih digits fits]
        simp only [dash, ne_eq, not_true_eq_false, false_implies, true_and]
      · have same : spelled (ch :: rest) = hex2char ch :: spelled rest := by
          simp [spelled, dash]
        rw [same, List.length_cons]
        rcases Nat.lt_or_ge digits.length 32 with room | full
        · by_cases hex : isHex ch = true
          · rw [Scan.read_digit room hex dash, Option.bind_eq_bind, Option.bind_some,
              ih _ (by rw [List.length_append, List.length_singleton]; omega), List.append_assoc,
              List.singleton_append, List.length_append, List.length_singleton]
            simp only [dash, hex, ne_eq, not_false_eq_true, implies_true, true_and, Nat.add_assoc,
              Nat.add_comm 1]
          · have refused : (Scan.after digits).read ch = none := by
              rw [Scan.read, if_neg dash, if_pos (Or.inr hex)]
            rw [refused, if_neg fun all => hex (all.1.1 dash)]
            rfl
        · rw [Scan.read_full full dash, if_neg (by omega)]
          rfl

theorem fromString_eq (str : List Char) :
    fromString str = (body str).bind fun chars =>
      if SpellsDigits chars ∧ (spelled chars).length = 32 then
        some (ofData (packed (spelled chars)))
      else none := by
  rw [fromString]
  refine congrArg (Option.bind (body str)) (funext fun chars => ?_)
  have start : ({} : Scan) = Scan.after [] := rfl
  rw [start, foldlM_read chars [] (Nat.zero_le _), List.length_nil, Nat.zero_add, List.nil_append]
  by_cases digits : SpellsDigits chars
  · rcases Nat.lt_trichotomy (spelled chars).length 32 with few | full | many
    · rw [if_pos ⟨digits, few.le⟩, if_neg fun both => few.ne both.2, Option.bind_some, if_pos]
      simp only [Scan.after]
      omega
    · have filled := length_packed (show (spelled chars).length % 2 = 0 by rw [full])
      rw [if_pos ⟨digits, full.le⟩, if_pos ⟨digits, full⟩, Option.bind_some, if_neg]
      · simp only [Scan.after, filled, full]
        rw [List.replicate_zero, List.append_nil]
      · simp only [Scan.after, full]
        decide
    · rw [if_neg fun both => absurd both.2 (by omega), if_neg fun both => many.ne' both.2]
      rfl
  · rw [if_neg fun both => digits both.1, if_neg fun both => digits both.1]
    rfl

/-- What `is_valid_uuid` keeps of the loop variables of `from_string`. -/
def Scan.check (scan : Scan) : Check :=
  { firstDigit := scan.firstDigit, index := scan.index }

theorem Scan.check_read (scan : Scan) (ch : Char) :
    scan.check.read ch = (scan.read ch).map Scan.check := by
  rw [Check.read, Scan.read, Scan.check]
  split
  · rfl
  · split
    · rfl
    · split <;> rfl

theorem foldlM_check (chars : List Char) (scan : Scan) :
    chars.foldlM Check.read scan.check = (chars.foldlM Scan.read scan).map Scan.check := by
  induction chars generalizing scan with
  | nil => rfl
  | cons ch rest ih =>
      rw [List.foldlM_cons, List.foldlM_cons, Scan.check_read]
      cases scan.read ch with
      | none => rfl
      | some next => exact ih next

/-- A text is valid exactly when it can be read. -/
theorem isValidUuid_eq (str : List Char) : isValidUuid str = (fromString str).isSome := by
  rw [isValidUuid, fromString]
  cases body str with
  | none => rfl
  | some chars =>
      have start : ({} : Check) = ({} : Scan).check := rfl
      rw [Option.elim_some, Option.bind_some, start, foldlM_check]
      cases chars.foldlM Scan.read {} with
      | none => rfl
      | some scan =>
          rw [Option.map_some, Option.elim_some, Option.bind_some]
          by_cases short : scan.index < 16
          · rw [if_pos short, Scan.check, decide_eq_true short]
            rfl
          · rw [if_neg short, Scan.check, decide_eq_false short]
            rfl

/-- The positions of the text: a dash, or the number of a digit. -/
def layout : List (Char ⊕ ℕ) :=
  (List.range' 0 8).map .inr ++ .inl '-' :: (List.range' 8 4).map .inr ++
    .inl '-' :: (List.range' 12 4).map .inr ++ .inl '-' :: (List.range' 16 4).map .inr ++
    .inl '-' :: (List.range' 20 12).map .inr

/-- The character at a position. -/
def fill (digits : List (BitVec 8)) : Char ⊕ ℕ → Char :=
  Sum.elim id fun number => guidEncoder (digits.getD number 0)

theorem getD_nibbles (bytes : List (BitVec 8)) (index : ℕ) :
    (nibbles bytes).getD (2 * index) 0 = bytes.getD index 0 >>> 4 &&& 0x0f ∧
      (nibbles bytes).getD (2 * index + 1) 0 = bytes.getD index 0 &&& 0x0f := by
  induction bytes generalizing index with
  | nil => simp [nibbles]
  | cons byte rest ih =>
      cases index with
      | zero => exact ⟨rfl, rfl⟩
      | succ index => exact ih index

def Writing.map {CharT CharT' : Type} (change : CharT → CharT') (writing : Writing CharT) :
    Writing CharT' :=
  ⟨writing.i, writing.index, writing.uustr.map change⟩

@[simp] theorem Writing.map_i {CharT CharT' : Type} (change : CharT → CharT')
    (writing : Writing CharT) : (writing.map change).i = writing.i :=
  rfl

/-- The loop of `to_string` treats all characters alike. -/
theorem writeByte_map {CharT CharT' : Type} (change : CharT → CharT') (high low : ℕ → CharT)
    (writing : Writing CharT) :
    writeByte (fun index => change (high index)) (fun index => change (low index))
        (writing.map change) =
      (writeByte high low writing).map (Writing.map change) (List.map change) := by
  by_cases goesOn : writing.i < 36
  · by_cases dash : writing.i = 8 ∨ writing.i = 13 ∨ writing.i = 18 ∨ writing.i = 23
    · simp only [writeByte, Writing.map_i, goesOn, dash, if_true, Sum.map_inl]
      rfl
    · simp only [writeByte, Writing.map_i, goesOn, dash, if_true, if_false, Sum.map_inl]
      simp only [Writing.map, List.map_set]
  · simp only [writeByte, Writing.map_i, goesOn, if_false, Sum.map_inr]
    rfl

theorem fill_inr (digits : List (BitVec 8)) (number : ℕ) :
    fill digits (.inr number) = guidEncoder (digits.getD number 0) :=
  rfl

/-- The loop of `to_string` writes the digits of the uuid over the zeros of its template. -/
theorem toString_eq (uuid : Uuid) : toString uuid = layout.map (fill (nibbles uuid.data)) := by
  have planned : Loop.run (writeByte (fun index => .inr (2 * index))
      fun index => .inr (2 * index + 1)) 37 ⟨0, 0, emptyGuid.map .inl⟩ = some layout := by
    decide +kernel
  have filled := Loop.run_map _ _
    (writeByte_map (fill (nibbles uuid.data)) (fun index => .inr (2 * index))
      fun index => .inr (2 * index + 1)) 37 ⟨0, 0, emptyGuid.map .inl⟩
  have template : (emptyGuid.map Sum.inl).map (fill (nibbles uuid.data)) = emptyGuid :=
    (List.map_map ..).trans (List.map_id _)
  simp only [fill_inr, getD_nibbles] at filled
  rw [planned, Writing.map, template, Option.map_some] at filled
  rw [toString, filled, Option.getD_some]

theorem guidEncoder_ne_dash (digit : BitVec 8) : guidEncoder digit ≠ '-' := by
  revert digit
  decide +kernel

theorem filter_fill (digits : List (BitVec 8)) {cells : List (Char ⊕ ℕ)}
    (dashes : ∀ cell ∈ cells, cell.isRight = true ∨ cell = .inl '-') :
    (cells.map (fill digits)).filter (· ≠ '-') =
      (cells.filterMap Sum.getRight?).map fun number => guidEncoder (digits.getD number 0) := by
  induction cells with
  | nil => rfl
  | cons cell rest ih =>
      have ih := ih fun other mem => dashes other (List.mem_cons_of_mem _ mem)
      cases cell with
      | inl char =>
          rcases dashes (.inl char) List.mem_cons_self with digit | dash
          · exact Bool.noConfusion digit
          · obtain rfl := Sum.inl.inj dash
            rw [List.map_cons, List.filter_cons_of_neg (by simp [fill]), ih,
              List.filterMap_cons_none rfl]
      | inr number =>
          have numbered : (Sum.inr number :: rest : List (Char ⊕ ℕ)).filterMap Sum.getRight? =
              number :: rest.filterMap Sum.getRight? := List.filterMap_cons_some rfl
          rw [List.map_cons, List.filter_cons_of_pos (by simp [fill_inr, guidEncoder_ne_dash]), ih,
            numbered, List.map_cons, fill_inr]

/-- Without its dashes the text spells the digits of the uuid. -/
theorem filter_toString (uuid : Uuid) :
    (toString uuid).filter (· ≠ '-') = (nibbles uuid.data).map guidEncoder := by
  have places : layout.filterMap Sum.getRight? = List.range 32 := by decide +kernel
  have digits : (nibbles uuid.data).length = 32 := by rw [length_nibbles, length_data]
  rw [toString_eq, filter_fill _ (by decide), places]
  apply List.ext_getElem
  · rw [List.length_map, List.length_map, List.length_range, digits]
  · intro number inside below
    rw [List.length_map] at below
    rw [List.getElem_map, List.getElem_map, List.getElem_range, List.getD_eq_getElem _ _ below]

/-- The text without its braces, of which it has both or none at its ends. -/
inductive Unbraced : List Char → List Char → Prop
  | plain {str : List Char} (nonempty : str ≠ []) (noBrace : str.head? ≠ some '{') :
      Unbraced str str
  | braced (chars : List Char) : Unbraced ('{' :: (chars ++ ['}'])) chars

theorem body_eq_some_iff {str chars : List Char} : body str = some chars ↔ Unbraced str chars := by
  constructor
  · intro found
    unfold body at found
    by_cases empty : str = []
    · simp [empty] at found
    · by_cases brace : str.head? = some '{'
      · by_cases closed : str.getLast? = some '}'
        · obtain ⟨rest, rfl⟩ : ∃ rest, str = '{' :: rest := by
            cases str with
            | nil => exact absurd rfl empty
            | cons first rest => exact ⟨rest, by rw [Option.some.inj brace]⟩
          obtain ⟨front, rfl⟩ : ∃ front, rest = front ++ ['}'] := by
            rw [List.getLast?_eq_some_iff] at closed
            rcases closed with ⟨before, same⟩
            cases before with
            | nil => simp at same
            | cons first before => exact ⟨before, by simpa using (List.cons.inj same).2⟩
          simp only [brace, closed, if_true, empty, if_false, ne_eq, not_true_eq_false, and_false,
            Option.some.injEq] at found
          rw [← found]
          have inner : (List.take (('{' :: (front ++ ['}'])).length - 1)
              ('{' :: (front ++ ['}']))).drop 1 = front := by
            simp
          rw [inner]
          exact .braced front
        · simp [brace, closed, empty] at found
      · simp only [brace, if_false, empty, Nat.zero_ne_one, false_and, Nat.sub_zero, List.drop_zero,
          List.take_length, Option.some.injEq] at found
        rw [← found]
        exact .plain empty brace
  · rintro (⟨nonempty, noBrace⟩ | _)
    · simp [body, nonempty, noBrace]
    · have closed : ('{' :: (chars ++ ['}'])).getLast? = some '}' := by
        rw [← List.cons_append, List.getLast?_concat]
      simp [body, closed]

/-- A text names a uuid exactly when its characters, without the braces and dashes and in lower
case, are the digits that are written for the uuid. -/
theorem fromString_eq_some_iff {str : List Char} {uuid : Uuid} :
    fromString str = some uuid ↔ ∃ chars, Unbraced str chars ∧
      (chars.filter (· ≠ '-')).map Char.toLower = (toString uuid).filter (· ≠ '-') := by
  rw [fromString_eq, Option.bind_eq_some_iff]
  apply exists_congr
  intro chars
  rw [body_eq_some_iff]
  apply and_congr_right
  intro _
  rw [filter_toString, Option.ite_none_right_eq_some, Option.some.injEq]
  constructor
  · rintro ⟨⟨digits, size⟩, rfl⟩
    have even : (spelled chars).length % 2 = 0 := by rw [size]
    have filled : (packed (spelled chars)).length = 16 := by rw [length_packed even, size]
    have small : ∀ digit ∈ spelled chars, digit ≤ 15 := by
      intro digit mem
      rcases List.mem_map.mp mem with ⟨ch, -, rfl⟩
      exact hex2char_le
    rw [data_ofData filled, nibbles_packed even small, spelled, List.map_map]
    apply List.map_congr_left
    intro ch mem
    rw [List.mem_filter, decide_eq_true_eq] at mem
    exact (guidEncoder_hex2char (digits ch mem.1 mem.2)).symm
  · intro lower
    have digits : SpellsDigits chars := by
      intro ch mem noDash
      have listed : ch.toLower ∈ (nibbles uuid.data).map guidEncoder := by
        rw [← lower]
        exact List.mem_map_of_mem (List.mem_filter.mpr ⟨mem, decide_eq_true noDash⟩)
      rcases List.mem_map.mp listed with ⟨digit, small, same⟩
      apply isHex_of_toLower
      rw [← same]
      exact (isHex_guidEncoder digit (le_of_mem_nibbles small)).1
    have values : spelled chars = nibbles uuid.data := by
      have decoded := congrArg (List.map hex2char) lower
      rw [List.map_map, List.map_map] at decoded
      have left : (chars.filter (· ≠ '-')).map (hex2char ∘ Char.toLower) = spelled chars := by
        apply List.map_congr_left
        intro ch mem
        rw [List.mem_filter, decide_eq_true_eq] at mem
        rw [Function.comp_apply, ← guidEncoder_hex2char (digits ch mem.1 mem.2)]
        exact (isHex_guidEncoder _ hex2char_le).2.1
      have right : (nibbles uuid.data).map (hex2char ∘ guidEncoder) = nibbles uuid.data :=
        (List.map_congr_left fun digit mem =>
          (isHex_guidEncoder digit (le_of_mem_nibbles mem)).2.1).trans (List.map_id _)
      rw [← left, decoded, right]
    rw [values, length_nibbles, length_data, packed_nibbles, ofData_data]
    exact ⟨⟨digits, rfl⟩, rfl⟩

theorem length_toString (uuid : Uuid) : (toString uuid).length = 36 := by
  rw [toString_eq, List.length_map]
  rfl

theorem map_toLower_toString (uuid : Uuid) :
    ((toString uuid).filter (· ≠ '-')).map Char.toLower = (toString uuid).filter (· ≠ '-') := by
  rw [filter_toString, List.map_map]
  apply List.map_congr_left
  intro digit mem
  exact (isHex_guidEncoder digit (le_of_mem_nibbles mem)).2.2

theorem eq_dash_or_isHex {uuid : Uuid} {ch : Char} (mem : ch ∈ toString uuid) :
    ch = '-' ∨ isHex ch = true := by
  by_cases dash : ch = '-'
  · exact Or.inl dash
  · right
    have kept : ch ∈ (toString uuid).filter (· ≠ '-') :=
      List.mem_filter.mpr ⟨mem, decide_eq_true dash⟩
    rw [filter_toString] at kept
    rcases List.mem_map.mp kept with ⟨digit, listed, rfl⟩
    exact (isHex_guidEncoder digit (le_of_mem_nibbles listed)).1

theorem unbraced_toString (uuid : Uuid) : Unbraced (toString uuid) (toString uuid) := by
  have size := length_toString uuid
  refine .plain (by rintro empty; simp [empty] at size) ?_
  intro first
  rcases eq_dash_or_isHex (List.mem_of_mem_head? first) with dash | hex
  · exact absurd dash (by decide)
  · exact absurd hex (by decide)

/-- Reading the text that was written gives the uuid back. -/
theorem fromString_toString (uuid : Uuid) : fromString (toString uuid) = some uuid :=
  fromString_eq_some_iff.mpr ⟨_, unbraced_toString uuid, map_toLower_toString uuid⟩

theorem toString_injective : Function.Injective toString := by
  intro first second same
  apply Option.some.inj
  rw [← fromString_toString first, same, fromString_toString second]

/-- Exactly the spellings of a uuid are read as it, and exactly the texts that are read are
valid. -/
theorem accepted_texts (str : List Char) :
    (∀ uuid, fromString str = some uuid ↔ ∃ chars, Unbraced str chars ∧
      (chars.filter (· ≠ '-')).map Char.toLower = (toString uuid).filter (· ≠ '-')) ∧
    (isValidUuid str = true ↔ ∃ uuid, fromString str = some uuid) :=
  ⟨fun _ => fromString_eq_some_iff, by rw [isValidUuid_eq, Option.isSome_iff_exists]⟩

end Uuid

end GodotStream
