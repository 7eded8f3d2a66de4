import Mathlib.Data.List.Range
import GodotStream.StreamSqliteDB

/-!
# The two query statements

`query_objects` has a prepared statement for one box and builds a statement for a
list of boxes, with other bounds first, placeholders numbered from the index of the
box, and other result columns. This file models both down to the placeholders and the
columns, shows that they are the two queries of the database model, and proves that
the query for a list is the union of the queries for its boxes.
-/

namespace GodotStream

open Storage

/-- A column of a result row. -/
inductive SqlValue where
  | null
  | integer (value : ℤ)
  | blob (uuid : Uuid)
deriving DecidableEq

/-- `Stmt::is_null`. -/
def isNull (row : List SqlValue) (col : ℕ) : Bool :=
  row[col]? = some .null ∨ row[col]? = none

/-- `Stmt::get_blob`; a null pointer is `none`. -/
def getBlob (row : List SqlValue) (col : ℕ) : Option Uuid :=
  match row[col]? with
  | some (.blob uuid) => some uuid
  | _ => none

/-- The R-tree columns that a condition can name. -/
inductive TileColumn where
  | minX
  | maxX
  | minY
  | maxY
  | minZ
  | maxZ

def TileColumn.read (tile : BoxColumns) : TileColumn → ℤ
  | .minX => tile.minX
  | .maxX => tile.maxX
  | .minY => tile.minY
  | .maxY => tile.maxY
  | .minZ => tile.minZ
  | .maxZ => tile.maxZ

/-- A comparison of a column with a numbered placeholder. -/
inductive Comparison where
  | atMost (column : TileColumn) (placeholder : ℕ)
  | atLeast (column : TileColumn) (placeholder : ℕ)

/-- The bound parameters of a statement; the others are NULL. -/
def Parameters : Type :=
  ℕ → Option ℤ

namespace Parameters

def none : Parameters :=
  fun _ => Option.none

/-- `Stmt::bind_int`. -/
def bindInt (params : Parameters) (idx : ℕ) (val : ℤ) : Parameters :=
  fun other => if other = idx then some val else params other

end Parameters

/-- A comparison with NULL does not hold. -/
def Comparison.holds (params : Parameters) (tile : BoxColumns) : Comparison → Bool
  | .atMost column placeholder => (params placeholder).any fun val => column.read tile ≤ val
  | .atLeast column placeholder => (params placeholder).any fun val => column.read tile ≥ val

namespace StreamSqliteDB

/-- A row of `object_uuid JOIN chunk_metadata JOIN chunk_rtree`. -/
structure JoinRow where
  uuid : Uuid
  object : ObjectRow
  tile : BoxColumns

def joinRows (db : StreamSqliteDB) : List JoinRow :=
  db.objects.rows.entries.filterMap fun entry =>
    (db.tileOf entry.2).map fun tile => { uuid := entry.1, object := entry.2, tile }

def nullable {α : Type} (value : α → SqlValue) (column : Option α) : SqlValue :=
  column.elim .null value

/-- The `WHERE` clause of `sql_query_uuid_of_aabb`, whose placeholders are numbered in their
order. -/
def whereAabb : List Comparison :=
  [.atMost .minX 1, .atLeast .maxX 2,
    .atMost .minY 3, .atLeast .maxY 4,
    .atMost .minZ 5, .atLeast .maxZ 6]

def bindQueryAabb (aabb : AABB) : Parameters :=
  let minPos := aabb.position
  let maxPos := aabb.getEnd
  Parameters.none
    |>.bindInt 1 (toInt32 maxPos.x)
    |>.bindInt 2 (toInt32 minPos.x)
    |>.bindInt 3 (toInt32 maxPos.y)
    |>.bindInt 4 (toInt32 minPos.y)
    |>.bindInt 5 (toInt32 maxPos.z)
    |>.bindInt 6 (toInt32 minPos.z)

/-- `SELECT o.*`: all columns of `object_uuid`. -/
def selectAll (row : JoinRow) : List SqlValue :=
  [.blob row.uuid, nullable .integer row.object.chunkId, nullable .blob row.object.parentUuid,
    nullable .integer (row.object.aabb.map BoxColumns.minX),
    nullable .integer (row.object.aabb.map BoxColumns.maxX),
    nullable .integer (row.object.aabb.map BoxColumns.minY),
    nullable .integer (row.object.aabb.map BoxColumns.maxY),
    nullable .integer (row.object.aabb.map BoxColumns.minZ),
    nullable .integer (row.object.aabb.map BoxColumns.maxZ)]

/-- The body of the result loop; a parent that is not NULL is a blob. -/
def readAll (result : Table Uuid ObjectData) (row : List SqlValue) : Table Uuid ObjectData :=
  match getBlob row 0 with
  | none => result
  | some uuidKey =>
      let parent := if isNull row 2 then Uuid.nil else (getBlob row 2).getD Uuid.nil
      result.insert uuidKey { parentUuid := parent }

/-- `query_objects` for one box. -/
def queryObjectsStatement (db : StreamSqliteDB) (aabb : AABB) : Table Uuid ObjectData :=
  let selected := db.joinRows.filter fun row =>
    whereAabb.all fun comparison => comparison.holds (bindQueryAabb aabb) row.tile
  (selected.map selectAll).foldl readAll ∅

/-- The disjunct of the box at an index. -/
def disjunct (i : ℕ) : List Comparison :=
  [.atLeast .maxX (6 * i + 1), .atMost .minX (6 * i + 2),
    .atLeast .maxY (6 * i + 3), .atMost .minY (6 * i + 4),
    .atLeast .maxZ (6 * i + 5), .atMost .minZ (6 * i + 6)]

def whereAabbs (count : ℕ) : List (List Comparison) :=
  (List.range count).map disjunct

/-- `bind_aabb` at a start index. -/
def bindAabbAt (params : Parameters) (aabb : AABB) (startIdx : ℕ) : Parameters :=
  let minPos := aabb.position
  let maxPos := aabb.getEnd
  params
    |>.bindInt startIdx (toInt32 minPos.x)
    |>.bindInt (startIdx + 1) (toInt32 maxPos.x)
    |>.bindInt (startIdx + 2) (toInt32 minPos.y)
    |>.bindInt (startIdx + 3) (toInt32 maxPos.y)
    |>.bindInt (startIdx + 4) (toInt32 minPos.z)
    |>.bindInt (startIdx + 5) (toInt32 maxPos.z)

/-- The binding loop, from an index on. -/
def bindAabbs (params : Parameters) : ℕ → List AABB → Parameters
  | _, [] => params
  | i, aabb :: rest => bindAabbs (bindAabbAt params aabb (6 * i + 1)) (i + 1) rest

/-- `SELECT o.uuid, o.parent_uuid`. -/
def selectPair (row : JoinRow) : List SqlValue :=
  [.blob row.uuid, nullable .blob row.object.parentUuid]

/-- `StreamSqliteDB::read_nullable_uuid`. -/
def readNullableColumn (row : List SqlValue) (col : ℕ) : Uuid :=
  if isNull row col then Uuid.nil else (getBlob row col).getD Uuid.nil

/-- The body of the result loop. -/
def readPair (result : Table Uuid ObjectData) (row : List SqlValue) : Table Uuid ObjectData :=
  match getBlob row 0 with
  | none => result
  | some uuidKey => result.insert uuidKey { parentUuid := readNullableColumn row 1 }

/-- The rows that the built statement returns. -/
def selectedRows (db : StreamSqliteDB) (aabbs : List AABB) : List JoinRow :=
  db.joinRows.filter fun row => (whereAabbs aabbs.length).any fun conjuncts =>
    conjuncts.all fun comparison =>
      comparison.holds (bindAabbs Parameters.none 0 aabbs) row.tile

/-- `query_objects` for a list of boxes. -/
def queryObjectsListStatement (db : StreamSqliteDB) (aabbs : List AABB) :
    Table Uuid ObjectData :=
  if aabbs.isEmpty then ∅
  else ((db.selectedRows aabbs).map selectPair).foldl readPair ∅

section Conditions

theorem holds_atMost {params : Parameters} {placeholder : ℕ} {val : ℤ}
    (bound : params placeholder = some val) (column : TileColumn) (tile : BoxColumns) :
    (Comparison.atMost column placeholder).holds params tile = true ↔ column.read tile ≤ val := by
  simp only [Comparison.holds, bound, Option.any_some, decide_eq_true_eq]

theorem holds_atLeast {params : Parameters} {placeholder : ℕ} {val : ℤ}
    (bound : params placeholder = some val) (column : TileColumn) (tile : BoxColumns) :
    (Comparison.atLeast column placeholder).holds params tile = true ↔
      column.read tile ≥ val := by
  simp only [Comparison.holds, bound, Option.any_some, decide_eq_true_eq]

/-- The prepared clause is the overlap test. -/
theorem whereAabb_holds_iff (aabb : AABB) (tile : BoxColumns) :
    (whereAabb.all fun comparison => comparison.holds (bindQueryAabb aabb) tile) = true ↔
      overlapsBox tile aabb := by
  have maxX : bindQueryAabb aabb 1 = some (toInt32 aabb.getEnd.x) := rfl
  have minX : bindQueryAabb aabb 2 = some (toInt32 aabb.position.x) := rfl
  have maxY : bindQueryAabb aabb 3 = some (toInt32 aabb.getEnd.y) := rfl
  have minY : bindQueryAabb aabb 4 = some (toInt32 aabb.position.y) := rfl
  have maxZ : bindQueryAabb aabb 5 = some (toInt32 aabb.getEnd.z) := rfl
  have minZ : bindQueryAabb aabb 6 = some (toInt32 aabb.position.z) := rfl
  simp only [whereAabb, List.all_cons, List.all_nil, Bool.and_true, Bool.and_eq_true,
    holds_atMost maxX, holds_atLeast minX, holds_atMost maxY, holds_atLeast minY,
    holds_atMost maxZ, holds_atLeast minZ]
  rfl

theorem bindAabbAt_of_lt (params : Parameters) (aabb : AABB) {startIdx idx : ℕ}
    (before : idx < startIdx) : bindAabbAt params aabb startIdx idx = params idx := by
  simp only [bindAabbAt, Parameters.bindInt]
  repeat rw [if_neg (by omega)]

/-- What `bind_aabb` writes does not depend on the start index. -/
theorem bindAabbAt_add (params : Parameters) (aabb : AABB) (startIdx : ℕ) {offset : ℕ}
    (within : offset < 6) : bindAabbAt params aabb startIdx (startIdx + offset) =
      bindAabbAt Parameters.none aabb 1 (1 + offset) := by
  have cases : offset = 0 ∨ offset = 1 ∨ offset = 2 ∨ offset = 3 ∨ offset = 4 ∨ offset = 5 := by
    omega
  rcases cases with rfl | rfl | rfl | rfl | rfl | rfl <;> simp [bindAabbAt, Parameters.bindInt]

/-- The binding loop leaves the parameters of earlier boxes. -/
theorem bindAabbs_of_lt (params : Parameters) (aabbs : List AABB) {i idx : ℕ}
    (before : idx < 6 * i + 1) : bindAabbs params i aabbs idx = params idx := by
  induction aabbs generalizing params i with
  | nil => rfl
  | cons aabb rest ih =>
      rw [bindAabbs, ih _ (by omega), bindAabbAt_of_lt _ _ before]

/-- The six parameters of one box are the ones that `bind_aabb` writes for it. -/
theorem bindAabbs_eq_bindAabbAt (params : Parameters) {aabbs : List AABB} {i k : ℕ} {aabb : AABB}
    (found : aabbs[k]? = some aabb) {offset : ℕ} (within : offset < 6) :
    bindAabbs params i aabbs (6 * (i + k) + 1 + offset) =
      bindAabbAt Parameters.none aabb 1 (1 + offset) := by
  induction aabbs generalizing params i k with
  | nil => simp at found
  | cons first rest ih =>
      cases k with
      | zero =>
          simp only [List.getElem?_cons_zero, Option.some.injEq] at found
          subst found
          rw [bindAabbs, bindAabbs_of_lt _ _ (by omega), Nat.add_zero]
          exact bindAabbAt_add _ _ _ within
      | succ k =>
          rw [List.getElem?_cons_succ] at found
          have index : 6 * (i + (k + 1)) + 1 + offset = 6 * (i + 1 + k) + 1 + offset := by omega
          rw [bindAabbs, index]
          exact ih _ found

/-- The disjunct of a box is the overlap test with the integers that `bind_aabb` writes. -/
theorem disjunct_holds_iff {aabbs : List AABB} {i : ℕ} {aabb : AABB}
    (found : aabbs[i]? = some aabb) (tile : BoxColumns) :
    ((disjunct i).all fun comparison =>
      comparison.holds (bindAabbs Parameters.none 0 aabbs) tile) = true ↔
      overlapsBound tile (bindAabb aabb) := by
  have bound (offset : ℕ) (within : offset < 6) :
      bindAabbs Parameters.none 0 aabbs (6 * i + 1 + offset) =
        bindAabbAt Parameters.none aabb 1 (1 + offset) := by
    have atIndex := bindAabbs_eq_bindAabbAt Parameters.none (i := 0) found within
    rwa [Nat.zero_add] at atIndex
  have minX := bound 0 (by norm_num)
  have maxX := bound 1 (by norm_num)
  have minY := bound 2 (by norm_num)
  have maxY := bound 3 (by norm_num)
  have minZ := bound 4 (by norm_num)
  have maxZ := bound 5 (by norm_num)
  simp only [disjunct, List.all_cons, List.all_nil, Bool.and_true, Bool.and_eq_true,
    holds_atLeast minX, holds_atMost maxX, holds_atLeast minY, holds_atMost maxY,
    holds_atLeast minZ, holds_atMost maxZ]
  rfl

/-- The built clause is the disjunction of the overlap tests. -/
theorem whereAabbs_holds_iff (aabbs : List AABB) (tile : BoxColumns) :
    ((whereAabbs aabbs.length).any fun conjuncts => conjuncts.all fun comparison =>
      comparison.holds (bindAabbs Parameters.none 0 aabbs) tile) = true ↔
      ∃ aabb ∈ aabbs, overlapsBound tile (bindAabb aabb) := by
  simp only [whereAabbs, List.any_map, List.any_eq_true, List.mem_range, Function.comp_apply]
  constructor
  · rintro ⟨i, inside, holds⟩
    have found := List.getElem?_eq_getElem inside
    exact ⟨aabbs[i], List.getElem_mem inside, (disjunct_holds_iff found tile).mp holds⟩
  · rintro ⟨aabb, listed, overlap⟩
    rcases List.mem_iff_getElem?.mp listed with ⟨i, found⟩
    have inside : i < aabbs.length := (List.getElem?_eq_some_iff.mp found).1
    exact ⟨i, inside, (disjunct_holds_iff found tile).mpr overlap⟩

end Conditions

section ResultLoops

theorem readAll_selectAll (result : Table Uuid ObjectData) (row : JoinRow) :
    readAll result (selectAll row) =
      result.insert row.uuid { parentUuid := readNullableUuid row.object.parentUuid } := by
  rcases row with ⟨uuid, ⟨chunkId, parentUuid, aabb⟩, tile⟩
  cases parentUuid <;> rfl

theorem readPair_selectPair (result : Table Uuid ObjectData) (row : JoinRow) :
    readPair result (selectPair row) =
      result.insert row.uuid { parentUuid := readNullableUuid row.object.parentUuid } := by
  rcases row with ⟨uuid, ⟨chunkId, parentUuid, aabb⟩, tile⟩
  cases parentUuid <;> rfl

/-- Both loops collect the rows of the join that satisfy the condition. -/
theorem foldl_joinRows (db : StreamSqliteDB) (condition : BoxColumns → Bool)
    {select : JoinRow → List SqlValue}
    {read : Table Uuid ObjectData → List SqlValue → Table Uuid ObjectData}
    (reads : ∀ result row, read result (select row) =
      result.insert row.uuid { parentUuid := readNullableUuid row.object.parentUuid }) :
    ((db.joinRows.filter fun row => condition row.tile).map select).foldl read ∅ =
      db.collectObjects condition := by
  simp only [joinRows, collectObjects]
  generalize (∅ : Table Uuid ObjectData) = start
  generalize db.objects.rows.entries = entries
  induction entries generalizing start with
  | nil => rfl
  | cons entry rest ih =>
      cases tileEq : db.tileOf entry.2 with
      | none => simpa [tileEq] using ih start
      | some tile =>
          by_cases holds : condition tile = true
          · simpa [tileEq, holds, reads] using
              ih (start.insert entry.1 { parentUuid := readNullableUuid entry.2.parentUuid })
          · simpa [tileEq, holds] using ih start

/-- The prepared statement is the query for one box. -/
theorem queryObjectsStatement_eq (db : StreamSqliteDB) (aabb : AABB) :
    db.queryObjectsStatement aabb = db.queryObjects aabb := by
  have conditionEq : (fun tile : BoxColumns => whereAabb.all fun comparison =>
      comparison.holds (bindQueryAabb aabb) tile) = fun tile => decide (overlapsBox tile aabb) := by
    funext tile
    rw [Bool.eq_iff_iff, whereAabb_holds_iff, decide_eq_true_eq]
  have collected := foldl_joinRows db (fun tile => whereAabb.all fun comparison =>
    comparison.holds (bindQueryAabb aabb) tile) readAll_selectAll
  rw [conditionEq] at collected
  exact collected

/-- The built statement is the query for a list of boxes. -/
theorem queryObjectsListStatement_eq (db : StreamSqliteDB) (aabbs : List AABB) :
    db.queryObjectsListStatement aabbs = db.queryObjectsAny aabbs := by
  have conditionEq : (fun tile : BoxColumns => (whereAabbs aabbs.length).any fun conjuncts =>
      conjuncts.all fun comparison =>
        comparison.holds (bindAabbs Parameters.none 0 aabbs) tile) =
      fun tile => aabbs.any fun aabb => overlapsBound tile (bindAabb aabb) := by
    funext tile
    rw [Bool.eq_iff_iff, whereAabbs_holds_iff]
    simp only [List.any_eq_true, decide_eq_true_eq]
  have collected := foldl_joinRows db (fun tile => (whereAabbs aabbs.length).any fun conjuncts =>
    conjuncts.all fun comparison =>
      comparison.holds (bindAabbs Parameters.none 0 aabbs) tile) readPair_selectPair
  rw [conditionEq] at collected
  simp only [queryObjectsListStatement, queryObjectsAny, selectedRows]
  split
  · rfl
  · exact collected

/-- The join has at most one row for each object. -/
theorem nodup_joinRows (db : StreamSqliteDB) : (db.joinRows.map JoinRow.uuid).Nodup := by
  have listed : (db.joinRows.map JoinRow.uuid).Sublist
      (db.objects.rows.entries.map Prod.fst) := by
    simp only [joinRows]
    generalize db.objects.rows.entries = entries
    induction entries with
    | nil => exact List.Sublist.slnil
    | cons entry rest ih =>
        cases tileEq : db.tileOf entry.2 with
        | none => simpa [tileEq] using ih.cons entry.1
        | some tile => simpa [tileEq] using ih.cons_cons entry.1
  exact db.objects.rows.distinct.sublist listed

end ResultLoops

section Union

variable {db : StreamSqliteDB} {uuid : Uuid} {data : ObjectData}

theorem get?_collectObjects_eq_some {condition : BoxColumns → Bool} :
    (db.collectObjects condition).get? uuid = some data ↔
      ∃ row, db.objects.rows.get? uuid = some row ∧
        (∃ tile, db.tileOf row = some tile ∧ condition tile = true) ∧
        { parentUuid := readNullableUuid row.parentUuid } = data := by
  simp only [get?_collectObjects, Option.map_eq_some_iff, Option.filter_eq_some_iff,
    Option.any_eq_true, and_assoc]

theorem get?_queryObjectsAny_eq_some {aabbs : List AABB} :
    (db.queryObjectsAny aabbs).get? uuid = some data ↔
      ∃ row, db.objects.rows.get? uuid = some row ∧
        (∃ tile, db.tileOf row = some tile ∧ ∃ aabb ∈ aabbs, overlapsBox tile aabb) ∧
        { parentUuid := readNullableUuid row.parentUuid } = data := by
  cases aabbs with
  | nil => simp [queryObjectsAny]
  | cons first rest =>
      rw [queryObjectsAny, List.isEmpty_cons, if_neg (by simp), get?_collectObjects_eq_some]
      simp only [List.any_eq_true, decide_eq_true_eq, overlapsBound_bindAabb]

end Union

/-- The query for a list of boxes is the union of the queries for its boxes, as a map from uuids
to data; its statement returns each object once, and the data hold the stored parent. -/
theorem queryObjects_list_eq_union (db : StreamSqliteDB) (aabbs : List AABB) :
    (∀ uuid data, (db.queryObjectsListStatement aabbs).get? uuid = some data ↔
      ∃ aabb ∈ aabbs, (db.queryObjectsStatement aabb).get? uuid = some data) ∧
    ((db.selectedRows aabbs).map JoinRow.uuid).Nodup ∧
    ∀ uuid data, (db.queryObjectsListStatement aabbs).get? uuid = some data →
      ∃ row, db.objects.rows.get? uuid = some row ∧
        data = { parentUuid := readNullableUuid row.parentUuid } := by
  refine ⟨?_, ?_, ?_⟩
  · intro uuid data
    rw [queryObjectsListStatement_eq, get?_queryObjectsAny_eq_some]
    simp only [queryObjectsStatement_eq, queryObjects, get?_collectObjects_eq_some,
      decide_eq_true_eq]
    constructor
    · rintro ⟨row, found, ⟨tile, tileEq, aabb, listed, overlap⟩, dataEq⟩
      exact ⟨aabb, listed, row, found, ⟨tile, tileEq, overlap⟩, dataEq⟩
    · rintro ⟨aabb, listed, row, found, ⟨tile, tileEq, overlap⟩, dataEq⟩
      exact ⟨row, found, ⟨tile, tileEq, aabb, listed, overlap⟩, dataEq⟩
  · exact db.nodup_joinRows.sublist (List.filter_sublist.map JoinRow.uuid)
  · intro uuid data found
    rw [queryObjectsListStatement_eq, get?_queryObjectsAny_eq_some] at found
    rcases found with ⟨row, rowFound, _, dataEq⟩
    exact ⟨row, rowFound, dataEq.symm⟩

end StreamSqliteDB

end GodotStream
