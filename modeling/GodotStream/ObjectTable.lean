import GodotStream.Basic
import GodotStream.Geometry
import GodotStream.Lib.Table
import GodotStream.Lib.Worklist

/-!
# The table of streamed objects

The SQL table `object_uuid` with its self-referencing foreign key. The key is
enforced immediately: a statement that would leave a row without its parent has
no effect. Deleting a row cascades to the rows below it. That every parent column is
NULL or names a row other than the nil uuid is a field of the table, so every
operation here proves that it keeps it.
-/

namespace GodotStream

open Storage Rounding

/-- The six columns `minX` .. `maxZ` of a stored box. -/
structure BoxColumns where
  minX : ℤ
  maxX : ℤ
  minY : ℤ
  maxY : ℤ
  minZ : ℤ
  maxZ : ℤ
deriving DecidableEq

def BoxColumns.lower (columns : BoxColumns) : Axis → ℤ
  | .x => columns.minX
  | .y => columns.minY
  | .z => columns.minZ

def BoxColumns.upper (columns : BoxColumns) : Axis → ℤ
  | .x => columns.maxX
  | .y => columns.maxY
  | .z => columns.maxZ

/-- A row of `object_uuid` without its primary key; the box columns are NULL together. -/
structure ObjectRow where
  chunkId : Option ℤ
  parentUuid : Option Uuid
  aabb : Option BoxColumns
deriving DecidableEq

/-- `StreamSqliteDB::bind_aabb`. -/
def bindAabb [Rounding] (box : AABB) : BoxColumns :=
  let minPos := box.position
  let maxPos := box.getEnd
  { minX := toInt32 minPos.x
    maxX := toInt32 maxPos.x
    minY := toInt32 minPos.y
    maxY := toInt32 maxPos.y
    minZ := toInt32 minPos.z
    maxZ := toInt32 maxPos.z }

/-- `StreamSqliteDB::read_aabb_from_stmt`: the extents are 32-bit differences. -/
def readAabb [Rounding] (columns : BoxColumns) : AABB :=
  { position := ⟨rounded columns.minX, rounded columns.minY, rounded columns.minZ⟩
    size := ⟨rounded (wrap32 (columns.maxX - columns.minX)),
      rounded (wrap32 (columns.maxY - columns.minY)),
      rounded (wrap32 (columns.maxZ - columns.minZ))⟩ }

section Columns

section Corners

variable [Rounding]

theorem lower_bindAabb (box : AABB) (axis : Axis) :
    (bindAabb box).lower axis = toInt32 (box.position.coord axis) := by
  cases axis <;> rfl

theorem upper_bindAabb (box : AABB) (axis : Axis) :
    (bindAabb box).upper axis = toInt32 (box.getEnd.coord axis) := by
  cases axis <;> rfl

theorem coord_position_readAabb (columns : BoxColumns) (axis : Axis) :
    (readAabb columns).position.coord axis = rounded (columns.lower axis) := by
  cases axis <;> rfl

theorem coord_size_readAabb (columns : BoxColumns) (axis : Axis) :
    (readAabb columns).size.coord axis =
      rounded (wrap32 (columns.upper axis - columns.lower axis)) := by
  cases axis <;> rfl

/-- The columns of the box give it back. -/
def AABB.ReadsBack (box : AABB) : Prop :=
  readAabb (bindAabb box) = box

instance (box : AABB) : Decidable box.ReadsBack :=
  inferInstanceAs (Decidable (_ = _))

end Corners

section SinglePrecision

/-- In single precision a box is given back when its corners are integers of less than 24 bits. -/
theorem readsBack_of_small {box : AABB} {lower upper : Axis → ℤ}
    (lowerSmall : ∀ axis, |lower axis| < 2 ^ 23) (upperSmall : ∀ axis, |upper axis| < 2 ^ 23)
    (lowerEq : ∀ axis, box.position.coord axis = lower axis)
    (sizeEq : ∀ axis, box.size.coord axis = (upper axis - lower axis : ℤ)) : box.ReadsBack := by
  have small {n : ℤ} (bound : |n| < 2 ^ 23) : |n| < 2 ^ 24 := bound.trans (by norm_num)
  have endEq (axis : Axis) : box.getEnd.coord axis = upper axis := by
    rw [AABB.coord_getEnd, lowerEq, sizeEq, ← Int.cast_add, add_sub_cancel,
      rounded_intCast (small (upperSmall axis))]
  have bound {n : ℤ} (nSmall : |n| < 2 ^ 23) : toInt32 (n : ℚ) = n := by
    rw [toInt32_of_inInt32] <;> rw [IntegerGrid.truncate_intCast]
    rw [abs_lt] at nSmall
    constructor <;> omega
  have lowerBound (axis : Axis) : (bindAabb box).lower axis = lower axis := by
    rw [lower_bindAabb, lowerEq, bound (lowerSmall axis)]
  have upperBound (axis : Axis) : (bindAabb box).upper axis = upper axis := by
    rw [upper_bindAabb, endEq, bound (upperSmall axis)]
  have positionEq : (readAabb (bindAabb box)).position = box.position := by
    ext axis
    rw [coord_position_readAabb, lowerBound, rounded_intCast (small (lowerSmall axis)), lowerEq]
  have sizesEq : (readAabb (bindAabb box)).size = box.size := by
    ext axis
    have lowerAxis := abs_lt.mp (lowerSmall axis)
    have upperAxis := abs_lt.mp (upperSmall axis)
    rw [coord_size_readAabb, lowerBound, upperBound, wrap32_of_inInt32 (by constructor <;> omega),
      rounded_intCast (by rw [abs_lt]; omega), sizeEq]
  exact AABB.ext positionEq sizesEq

end SinglePrecision

open ExactArithmetic

/-- In exact arithmetic a box of 32-bit integers is read back as it was bound. -/
theorem readAabb_bindAabb {box : AABB} (integral : box.Integral) :
    readAabb (bindAabb box) = box := by
  have positionEq : (readAabb (bindAabb box)).position = box.position := by
    ext axis
    rcases integral axis with ⟨lowerIn, _, _, lowerEq, _⟩
    rw [coord_position_readAabb, lower_bindAabb, toInt32_of_inInt32 lowerIn, rounded_eq, lowerEq]
  have sizeEq : (readAabb (bindAabb box)).size = box.size := by
    ext axis
    rcases integral axis with ⟨lowerIn, upperIn, extentIn, lowerEq, upperEq⟩
    rw [coord_size_readAabb, lower_bindAabb, upper_bindAabb, toInt32_of_inInt32 lowerIn,
      toInt32_of_inInt32 upperIn, wrap32_of_inInt32 extentIn]
    push_cast
    rw [lowerEq, upperEq, AABB.coord_getEnd, rounded_eq, rounded_eq, add_sub_cancel_left]
  exact AABB.ext positionEq sizeEq

end Columns

/-- The uuids of the rows whose parent column holds `parent`. -/
def childRows (rows : Table Uuid ObjectRow) (parent : Uuid) : List Uuid :=
  (rows.entries.filter fun entry => entry.2.parentUuid = some parent).map Prod.fst

theorem mem_childRows {rows : Table Uuid ObjectRow} {parent child : Uuid} :
    child ∈ childRows rows parent ↔
      ∃ row, rows.get? child = some row ∧ row.parentUuid = some parent := by
  simp only [childRows, List.mem_map, List.mem_filter, decide_eq_true_eq, Prod.exists,
    exists_and_right, exists_eq_right, Table.get?_eq_some]

/-- `object_uuid`: every parent column that is not NULL names a row. -/
structure ObjectTable where
  rows : Table Uuid ObjectRow
  parentsPresent : ∀ uuid row parent, rows.get? uuid = some row →
    row.parentUuid = some parent → parent ≠ Uuid.nil ∧ parent ∈ rows

namespace ObjectTable

/-- The table without rows. -/
def empty : ObjectTable :=
  ⟨∅, by simp⟩

/-- The parent column of a row. -/
def parentOf (table : ObjectTable) (uuid : Uuid) : Option Uuid :=
  (table.rows.get? uuid).bind ObjectRow.parentUuid

/-- The box columns of a row. -/
def aabbOf (table : ObjectTable) (uuid : Uuid) : Option BoxColumns :=
  (table.rows.get? uuid).bind ObjectRow.aabb

/-- The row of `child` has `parent` in its parent column. -/
def IsChild (table : ObjectTable) (parent child : Uuid) : Prop :=
  table.parentOf child = some parent

instance (table : ObjectTable) (parent child : Uuid) : Decidable (table.IsChild parent child) :=
  inferInstanceAs (Decidable (_ = _))

/-- `lower` is `upper` or lies below it along parent links. -/
def Below (table : ObjectTable) (upper lower : Uuid) : Prop :=
  Relation.ReflTransGen table.IsChild upper lower

theorem mem_of_parentOf {table : ObjectTable} {uuid parent : Uuid}
    (child : table.parentOf uuid = some parent) : uuid ∈ table.rows := by
  simp only [parentOf, Option.bind_eq_some_iff] at child
  rcases child with ⟨row, found, _⟩
  exact Table.mem_of_get? found

theorem parent_mem {table : ObjectTable} {uuid parent : Uuid}
    (child : table.parentOf uuid = some parent) : parent ∈ table.rows := by
  simp only [parentOf, Option.bind_eq_some_iff] at child
  rcases child with ⟨row, found, parentEq⟩
  exact (table.parentsPresent uuid row parent found parentEq).2

theorem parent_ne_nil {table : ObjectTable} {uuid parent : Uuid}
    (child : table.parentOf uuid = some parent) : parent ≠ Uuid.nil := by
  simp only [parentOf, Option.bind_eq_some_iff] at child
  rcases child with ⟨row, found, parentEq⟩
  exact (table.parentsPresent uuid row parent found parentEq).1

theorem mem_childRows_iff {table : ObjectTable} {parent child : Uuid} :
    child ∈ childRows table.rows parent ↔ table.IsChild parent child := by
  simp only [mem_childRows, IsChild, parentOf, Option.bind_eq_some_iff]

/-- The rows that the foreign key deletes together with `uuid`. -/
def cascade (table : ObjectTable) (uuid : Uuid) : List Uuid :=
  Worklist.closure (childRows table.rows)
    (Worklist.bound (childRows table.rows) table.rows.keys) [uuid] []

theorem mem_cascade {table : ObjectTable} {upper lower : Uuid} :
    lower ∈ table.cascade upper ↔ table.Below upper lower := by
  have supported : ∀ parent, parent ∉ table.rows.keys → childRows table.rows parent = [] := by
    intro parent absent
    apply List.eq_nil_iff_forall_not_mem.mpr
    intro child childMem
    exact absent (parent_mem (mem_childRows_iff.mp childMem))
  simp only [cascade, Worklist.mem_closure_iff supported, Worklist.Reaches, Below]
  apply iff_of_eq
  congr 1
  funext parent child
  exact propext mem_childRows_iff

instance (table : ObjectTable) (upper lower : Uuid) : Decidable (table.Below upper lower) :=
  decidable_of_iff (lower ∈ table.cascade upper) mem_cascade

/-- `DELETE FROM object_uuid WHERE uuid = ?` with `ON DELETE CASCADE`. -/
def delete (table : ObjectTable) (uuid : Uuid) : ObjectTable :=
  { rows := table.rows.filterKeys fun other => other ∉ table.cascade uuid
    parentsPresent := by
      intro child row parent found parentEq
      rw [Table.get?_filterKeys] at found
      split at found
      case isFalse => simp at found
      case isTrue kept =>
        simp only [decide_eq_true_eq, mem_cascade] at kept
        simp only [Table.mem_filterKeys, decide_eq_true_eq, mem_cascade]
        rcases table.parentsPresent child row parent found parentEq with ⟨nonNil, present⟩
        refine ⟨nonNil, ?_, present⟩
        intro parentBelow
        apply kept
        refine parentBelow.tail ?_
        simp [IsChild, parentOf, found, parentEq] }

theorem get?_delete (table : ObjectTable) (uuid other : Uuid) :
    (table.delete uuid).rows.get? other =
      if table.Below uuid other then none else table.rows.get? other := by
  simp only [delete, Table.get?_filterKeys, decide_eq_true_eq, mem_cascade]
  by_cases below : table.Below uuid other <;> simp [below]

theorem mem_delete {table : ObjectTable} {uuid other : Uuid} :
    other ∈ (table.delete uuid).rows ↔ ¬ table.Below uuid other ∧ other ∈ table.rows := by
  simp only [delete, Table.mem_filterKeys, decide_eq_true_eq, mem_cascade]

theorem aabbOf_delete (table : ObjectTable) (uuid other : Uuid) :
    (table.delete uuid).aabbOf other =
      if table.Below uuid other then none else table.aabbOf other := by
  simp only [aabbOf, get?_delete]
  split <;> rfl

/-- The foreign key accepts the parent in the row of `uuid`. -/
def Accepts (table : ObjectTable) (uuid parentUuid : Uuid) : Prop :=
  parentUuid = Uuid.nil ∨ parentUuid = uuid ∨ parentUuid ∈ table.rows

instance (table : ObjectTable) (uuid parentUuid : Uuid) :
    Decidable (table.Accepts uuid parentUuid) := by
  unfold Accepts
  infer_instance

/-- The row that the upsert leaves under `uuid`. -/
def upsertedRow (table : ObjectTable) (uuid parentUuid : Uuid) : ObjectRow :=
  match table.rows.get? uuid with
  | none => { chunkId := none, parentUuid := parentUuid.toColumn, aabb := none }
  | some row => { row with parentUuid := parentUuid.toColumn }

@[simp]
theorem parentUuid_upsertedRow (table : ObjectTable) (uuid parentUuid : Uuid) :
    (table.upsertedRow uuid parentUuid).parentUuid = parentUuid.toColumn := by
  simp only [upsertedRow]
  split <;> rfl

/-- `INSERT INTO object_uuid (uuid, parent_uuid) .. ON CONFLICT(uuid) DO UPDATE`. -/
def upsert (table : ObjectTable) (uuid parentUuid : Uuid) : ObjectTable :=
  if accepted : table.Accepts uuid parentUuid then
    { rows := table.rows.insert uuid (table.upsertedRow uuid parentUuid)
      parentsPresent := by
        intro child row upper found parentEq
        rw [Table.get?_insert] at found
        rw [Table.mem_insert]
        split at found
        · simp only [Option.some.injEq] at found
          subst found
          simp only [parentUuid_upsertedRow, Uuid.toColumn] at parentEq
          split at parentEq
          · simp at parentEq
          · simp only [Option.some.injEq] at parentEq
            subst parentEq
            rcases accepted with isNil | own | present
            · contradiction
            · exact ⟨by assumption, Or.inl own⟩
            · exact ⟨by assumption, Or.inr present⟩
        · rcases table.parentsPresent child row upper found parentEq with ⟨nonNil, present⟩
          exact ⟨nonNil, Or.inr present⟩ }
  else table

theorem get?_upsert {table : ObjectTable} {uuid parentUuid : Uuid}
    (accepted : table.Accepts uuid parentUuid) (other : Uuid) :
    (table.upsert uuid parentUuid).rows.get? other =
      if other = uuid then some (table.upsertedRow uuid parentUuid)
      else table.rows.get? other := by
  simp only [upsert, accepted, dif_pos, Table.get?_insert]

theorem upsert_of_not_accepts {table : ObjectTable} {uuid parentUuid : Uuid}
    (refused : ¬ table.Accepts uuid parentUuid) : table.upsert uuid parentUuid = table := by
  simp only [upsert, refused, dif_neg, not_false_eq_true]

theorem mem_upsert {table : ObjectTable} {uuid parentUuid other : Uuid} :
    other ∈ (table.upsert uuid parentUuid).rows ↔
      (other = uuid ∧ table.Accepts uuid parentUuid) ∨ other ∈ table.rows := by
  by_cases accepted : table.Accepts uuid parentUuid
  · simp only [upsert, accepted, dif_pos, Table.mem_insert, and_true]
  · simp only [upsert_of_not_accepts accepted, accepted, and_false, false_or]

@[simp]
theorem aabbOf_upsert (table : ObjectTable) (uuid parentUuid other : Uuid) :
    (table.upsert uuid parentUuid).aabbOf other = table.aabbOf other := by
  by_cases accepted : table.Accepts uuid parentUuid
  · simp only [aabbOf, get?_upsert accepted]
    split
    case isTrue same =>
      subst same
      simp only [upsertedRow]
      cases table.rows.get? other <;> rfl
    case isFalse => rfl
  · rw [upsert_of_not_accepts accepted]

/-- Update the columns of a row other than its parent. -/
def updateColumns (table : ObjectTable) (uuid : Uuid) (chunkId : Option ℤ → Option ℤ)
    (aabb : Option BoxColumns → Option BoxColumns) : ObjectTable :=
  match found : table.rows.get? uuid with
  | none => table
  | some row =>
      { rows := table.rows.insert uuid
          { row with chunkId := chunkId row.chunkId, aabb := aabb row.aabb }
        parentsPresent := by
          intro child childRow parent childFound parentEq
          rw [Table.mem_insert]
          rw [Table.get?_insert] at childFound
          split at childFound
          case isTrue =>
            simp only [Option.some.injEq] at childFound
            subst childFound
            rcases table.parentsPresent uuid row parent found parentEq with ⟨nonNil, present⟩
            exact ⟨nonNil, Or.inr present⟩
          case isFalse =>
            rcases table.parentsPresent child childRow parent childFound parentEq with
              ⟨nonNil, present⟩
            exact ⟨nonNil, Or.inr present⟩ }

theorem get?_updateColumns (table : ObjectTable) (uuid other : Uuid)
    (chunkId : Option ℤ → Option ℤ) (aabb : Option BoxColumns → Option BoxColumns) :
    (table.updateColumns uuid chunkId aabb).rows.get? other =
      if other = uuid then (table.rows.get? uuid).map fun row =>
        { row with chunkId := chunkId row.chunkId, aabb := aabb row.aabb }
      else table.rows.get? other := by
  simp only [updateColumns]
  split
  case h_1 absent =>
    by_cases same : other = uuid
    · simp [same, absent]
    · simp [same]
  case h_2 row found =>
    rw [Table.get?_insert, found]
    rfl

/-- `UPDATE object_uuid SET chunk_id = ?2 WHERE uuid = ?1`. -/
def setChunk (table : ObjectTable) (uuid : Uuid) (chunkId : ℤ) : ObjectTable :=
  table.updateColumns uuid (fun _ => some chunkId) id

/-- `UPDATE object_uuid SET minX = ?1, .. WHERE uuid = ?7`. -/
def setAabb (table : ObjectTable) (uuid : Uuid) (columns : BoxColumns) : ObjectTable :=
  table.updateColumns uuid id (fun _ => some columns)

@[simp]
theorem mem_updateColumns {table : ObjectTable} {uuid other : Uuid}
    {chunkId : Option ℤ → Option ℤ} {aabb : Option BoxColumns → Option BoxColumns} :
    other ∈ (table.updateColumns uuid chunkId aabb).rows ↔ other ∈ table.rows := by
  simp only [Table.mem_iff_get?, get?_updateColumns]
  by_cases same : other = uuid
  · subst same
    cases table.rows.get? other <;> simp
  · simp [same]

@[simp]
theorem parentOf_updateColumns (table : ObjectTable) (uuid other : Uuid)
    (chunkId : Option ℤ → Option ℤ) (aabb : Option BoxColumns → Option BoxColumns) :
    (table.updateColumns uuid chunkId aabb).parentOf other = table.parentOf other := by
  simp only [parentOf, get?_updateColumns]
  by_cases same : other = uuid
  · subst same
    cases table.rows.get? other <;> simp
  · simp [same]

/-- The updated row keeps its place and its parent. -/
@[simp]
theorem childRows_updateColumns (table : ObjectTable) (uuid parent : Uuid)
    (chunkId : Option ℤ → Option ℤ) (aabb : Option BoxColumns → Option BoxColumns) :
    childRows (table.updateColumns uuid chunkId aabb).rows parent =
      childRows table.rows parent := by
  have keys : (table.updateColumns uuid chunkId aabb).rows.keys = table.rows.keys := by
    simp only [updateColumns]
    split
    · rfl
    case h_2 row found => exact Table.keys_insert_of_mem _ (Table.mem_of_get? found)
  have childRows_eq (other : ObjectTable) : childRows other.rows parent =
      other.rows.keys.filter fun child => other.parentOf child = some parent := by
    rw [childRows, Table.keys, List.filter_map]
    apply congrArg
    apply List.filter_congr
    intro entry listed
    have found : other.rows.get? entry.1 = some entry.2 := Table.get?_eq_some.mpr listed
    simp [parentOf, found]
  rw [childRows_eq, childRows_eq, keys]
  simp only [parentOf_updateColumns]

@[simp]
theorem aabbOf_setChunk (table : ObjectTable) (uuid other : Uuid) (chunkId : ℤ) :
    (table.setChunk uuid chunkId).aabbOf other = table.aabbOf other := by
  simp only [aabbOf, setChunk, get?_updateColumns]
  by_cases same : other = uuid
  · subst same
    cases table.rows.get? other <;> simp
  · simp [same]

theorem aabbOf_setAabb_of_ne {table : ObjectTable} {uuid other : Uuid} (columns : BoxColumns)
    (distinct : other ≠ uuid) :
    (table.setAabb uuid columns).aabbOf other = table.aabbOf other := by
  simp [aabbOf, setAabb, get?_updateColumns, distinct]

theorem aabbOf_setAabb_self {table : ObjectTable} {uuid : Uuid} (columns : BoxColumns)
    (present : uuid ∈ table.rows) : (table.setAabb uuid columns).aabbOf uuid = some columns := by
  rcases Table.mem_iff_get?.mp present with ⟨row, found⟩
  simp [aabbOf, setAabb, get?_updateColumns, found]

end ObjectTable

end GodotStream
