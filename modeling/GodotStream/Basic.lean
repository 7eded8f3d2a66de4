import Mathlib.Data.Nat.Notation

/-!
# Identities and object metadata

A `Uuid` is a 128-bit word, all zero when nil. An `ObjectID` names an engine
object and is zero when invalid; identifiers are never reused.
-/

namespace GodotStream

def Uuid := BitVec 128
deriving DecidableEq

instance (n : ℕ) : OfNat Uuid n :=
  ⟨BitVec.ofNat 128 n⟩

def Uuid.nil : Uuid := 0

abbrev ObjectID := ℕ

/-- `object_data.h`: what the registry knows about an object. -/
structure ObjectData where
  parentUuid : Uuid := Uuid.nil
  nodeRoot : ObjectID := 0
deriving DecidableEq

instance : Inhabited ObjectData :=
  ⟨{}⟩

/-- A nil uuid is bound as NULL. -/
def Uuid.toColumn (uuid : Uuid) : Option Uuid :=
  if uuid = Uuid.nil then none else some uuid

/-- `read_nullable_uuid`: a NULL column is read as the nil uuid. -/
def readNullableUuid (column : Option Uuid) : Uuid :=
  column.getD Uuid.nil

@[simp]
theorem toColumn_nil : Uuid.nil.toColumn = none := by
  simp [Uuid.toColumn]

theorem toColumn_of_ne_nil {uuid : Uuid} (nonNil : uuid ≠ Uuid.nil) :
    uuid.toColumn = some uuid := by
  simp [Uuid.toColumn, nonNil]

@[simp]
theorem readNullableUuid_toColumn (uuid : Uuid) : readNullableUuid uuid.toColumn = uuid := by
  by_cases isNil : uuid = Uuid.nil
  · simp [isNil, readNullableUuid]
  · simp [toColumn_of_ne_nil isNil, readNullableUuid]

end GodotStream
