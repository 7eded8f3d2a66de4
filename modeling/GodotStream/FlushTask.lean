import GodotStream.Hierarchy
import GodotStream.StreamSqliteDB

/-!
# The flush task

The work that `StreamManager::_flush_pending_db_ops` queues for the database
thread: all deletes, then all upserts, then the boxes that changed, then the
chunks of the changed objects and of their ancestors. Each group runs over a
container in its storage order, which nothing relates to the object hierarchy.

The walk along the parent chain has no end on a cyclic table, so it runs on fuel
and has no result when the fuel is spent. `FlushState.boxes` is a history
variable: the box last handed to `compute_chunk` for each object.
-/

namespace GodotStream

open Storage

/-- What the main thread captures for one task. -/
structure FlushBatch where
  upsertData : List (Uuid × ObjectData)
  remove : Table Uuid Unit
  dirtyData : Table Uuid AABB

namespace StreamSqliteDB

/-- The box of an object merged with the boxes of its direct children. -/
def aggregate (db : StreamSqliteDB) (own : AABB) (uuid : Uuid) : AABB :=
  (db.queryChildrenAabb uuid).foldl (fun agg child => agg.mergeWith child.2) own

def runDeletes (remove : List Uuid) (db : StreamSqliteDB) : StreamSqliteDB :=
  remove.foldl removeObject db

def runUpserts (upsertData : List (Uuid × ObjectData)) (db : StreamSqliteDB) : StreamSqliteDB :=
  upsertData.foldl (fun db entry => db.upsertObjectUuids entry.1 entry.2) db

def runBoxes (dirtyData : List (Uuid × AABB)) (db : StreamSqliteDB) : StreamSqliteDB :=
  dirtyData.foldl (fun db entry => db.setObjectAabb entry.1 entry.2) db

/-- The statements of the task before its chunk loop. -/
def prepare (batch : FlushBatch) (db : StreamSqliteDB) : StreamSqliteDB :=
  runBoxes batch.dirtyData.entries
    (runUpserts batch.upsertData (runDeletes batch.remove.keys db))

end StreamSqliteDB

structure FlushState where
  db : StreamSqliteDB
  boxes : Table Uuid AABB

namespace FlushState

/-- Compute the chunk of a box and store it for the object. -/
def writeChunk (state : FlushState) (uuid : Uuid) (box : AABB) : FlushState :=
  let answer := state.db.queryChunk (Chunk.computeChunk box)
  { db := answer.2.setObjectChunk uuid answer.1
    boxes := state.boxes.insert uuid box }

/-- Update the chunk of one ancestor from its own box and the boxes of its children. -/
def visit (state : FlushState) (parent : Uuid) : FlushState :=
  let own := state.db.getObjectAabb parent
  writeChunk { state with db := own.2 } parent (own.2.aggregate own.1 parent)

/-- Update the chunks along the parent chain. -/
def walkParents : ℕ → Uuid → FlushState → Option FlushState
  | 0, _, _ => none
  | fuel + 1, parent, state =>
      if parent = Uuid.nil then some state
      else walkParents fuel (state.db.queryObject parent).parentUuid (state.visit parent)

/-- Update the chunks of one changed object and of its ancestors. -/
def refresh (fuel : ℕ) (state : FlushState) (entry : Uuid × AABB) : Option FlushState :=
  let state := state.writeChunk entry.1 (state.db.aggregate entry.2 entry.1)
  state.walkParents fuel (state.db.queryObject entry.1).parentUuid

/-- The chunk loop over the changed objects. -/
def refreshAll (fuel : ℕ) : List (Uuid × AABB) → FlushState → Option FlushState
  | [], state => some state
  | entry :: rest, state => (state.refresh fuel entry).bind (refreshAll fuel rest)

end FlushState

/-- The whole task. One unit of fuel for each row and one for the end of the chain suffice on
every acyclic table. -/
def flushTask (batch : FlushBatch) (db : StreamSqliteDB) : Option FlushState :=
  let prepared := db.prepare batch
  FlushState.refreshAll (prepared.objects.rows.entries.length + 1) batch.dirtyData.entries
    { db := prepared, boxes := ∅ }

namespace StreamSqliteDB

section Statements

@[simp]
theorem objects_getObjectAabb (db : StreamSqliteDB) (uuid : Uuid) :
    (db.getObjectAabb uuid).2.objects = db.objects := by
  simp only [getObjectAabb]
  split <;> rfl

@[simp]
theorem chunks_getObjectAabb (db : StreamSqliteDB) (uuid : Uuid) :
    (db.getObjectAabb uuid).2.chunks = db.chunks := by
  simp only [getObjectAabb]
  split <;> rfl

@[simp]
theorem chunkCache_getObjectAabb (db : StreamSqliteDB) (uuid : Uuid) :
    (db.getObjectAabb uuid).2.chunkCache = db.chunkCache := by
  simp only [getObjectAabb]
  split <;> rfl

@[simp]
theorem parentOf_setObjectChunk (db : StreamSqliteDB) (uuid other : Uuid) (chunkId : ℤ) :
    (db.setObjectChunk uuid chunkId).objects.parentOf other = db.objects.parentOf other := by
  simp only [setObjectChunk]
  split
  · exact ObjectTable.parentOf_updateColumns _ _ _ _ _
  · rfl

@[simp]
theorem mem_setObjectChunk {db : StreamSqliteDB} {uuid other : Uuid} {chunkId : ℤ} :
    other ∈ (db.setObjectChunk uuid chunkId).objects.rows ↔ other ∈ db.objects.rows := by
  simp only [setObjectChunk]
  split
  · exact ObjectTable.mem_updateColumns
  · rfl

@[simp]
theorem aabbOf_setObjectChunk (db : StreamSqliteDB) (uuid other : Uuid) (chunkId : ℤ) :
    (db.setObjectChunk uuid chunkId).objects.aabbOf other = db.objects.aabbOf other := by
  simp only [setObjectChunk]
  split
  · exact ObjectTable.aabbOf_setChunk _ _ _ _
  · rfl

@[simp]
theorem childRows_setObjectChunk (db : StreamSqliteDB) (uuid parent : Uuid) (chunkId : ℤ) :
    childRows (db.setObjectChunk uuid chunkId).objects.rows parent =
      childRows db.objects.rows parent := by
  simp only [setObjectChunk]
  split
  · exact ObjectTable.childRows_updateColumns _ _ _ _ _
  · rfl

theorem get?_setObjectChunk_of_ne {db : StreamSqliteDB} {uuid other : Uuid}
    (distinct : other ≠ uuid) (chunkId : ℤ) :
    (db.setObjectChunk uuid chunkId).objects.rows.get? other = db.objects.rows.get? other := by
  simp only [setObjectChunk]
  split
  · simp only [ObjectTable.setChunk, ObjectTable.get?_updateColumns, distinct, if_false]
  · rfl

@[simp]
theorem aabbCache_setObjectChunk (db : StreamSqliteDB) (uuid : Uuid) (chunkId : ℤ) :
    (db.setObjectChunk uuid chunkId).aabbCache = db.aabbCache := by
  simp only [setObjectChunk]
  split <;> rfl

end Statements

section Aggregate

theorem foldl_mergeWith_position_le (children : List (Uuid × AABB)) (own : AABB) (axis : Axis)
    (bound : ℚ) :
    (children.foldl (fun agg child => agg.mergeWith child.2) own).position.coord axis ≤ bound ↔
      own.position.coord axis ≤ bound ∨
        ∃ child ∈ children, child.2.position.coord axis ≤ bound := by
  induction children generalizing own with
  | nil => simp
  | cons child rest ih =>
      rw [List.foldl_cons, ih, AABB.coord_position_mergeWith, min_le_iff]
      simp only [List.mem_cons, exists_eq_or_imp, or_assoc]

theorem mem_queryChildrenAabb {db : StreamSqliteDB} {parent : Uuid} {child : Uuid × AABB} :
    child ∈ db.queryChildrenAabb parent ↔
      db.objects.IsChild parent child.1 ∧ child.2 = db.storedAabb child.1 := by
  simp only [queryChildrenAabb, List.mem_map, ObjectTable.mem_childRows_iff]
  constructor
  · rintro ⟨uuid, isChild, rfl⟩
    exact ⟨isChild, rfl⟩
  · rintro ⟨isChild, boxEq⟩
    exact ⟨child.1, isChild, by rw [← boxEq]⟩

theorem position_aggregate_le_iff (db : StreamSqliteDB) (own : AABB) (uuid : Uuid) (axis : Axis)
    (bound : ℚ) :
    (db.aggregate own uuid).position.coord axis ≤ bound ↔ own.position.coord axis ≤ bound ∨
      ∃ child, db.objects.IsChild uuid child ∧
        (db.storedAabb child).position.coord axis ≤ bound := by
  rw [aggregate, foldl_mergeWith_position_le]
  apply or_congr_right
  constructor
  · rintro ⟨child, childMem, atMost⟩
    rcases mem_queryChildrenAabb.mp childMem with ⟨isChild, boxEq⟩
    exact ⟨child.1, isChild, boxEq ▸ atMost⟩
  · rintro ⟨child, isChild, atMost⟩
    exact ⟨(child, db.storedAabb child), mem_queryChildrenAabb.mpr ⟨isChild, rfl⟩, atMost⟩

/-- The aggregate is the merge of the boxes in the order in which they are read. -/
theorem aggregate_eq_foldl (db : StreamSqliteDB) (own : AABB) (uuid : Uuid) :
    db.aggregate own uuid =
      ((childRows db.objects.rows uuid).map db.storedAabb).foldl AABB.mergeWith own := by
  rw [aggregate, queryChildrenAabb, List.foldl_map, List.foldl_map]

theorem aggregate_congr {db other : StreamSqliteDB} {uuid : Uuid}
    (children : childRows other.objects.rows uuid = childRows db.objects.rows uuid)
    (columns : ∀ child, other.objects.aabbOf child = db.objects.aabbOf child) (own : AABB) :
    other.aggregate own uuid = db.aggregate own uuid := by
  have stored : other.storedAabb = db.storedAabb := by
    funext child
    rw [storedAabb, storedAabb, columns]
  rw [aggregate_eq_foldl, aggregate_eq_foldl, children, stored]

end Aggregate

end StreamSqliteDB

namespace FlushState

variable {origin : StreamSqliteDB} {entries : List (Uuid × AABB)} {holds : FlushState → Prop}

/-- What the body of the chunk loop has to preserve for `holds` to be an invariant of the whole
loop over `entries`, started at `origin`. -/
structure LoopInvariant (origin : StreamSqliteDB) (entries : List (Uuid × AABB))
    (holds : FlushState → Prop) : Prop where
  parents : ∀ state, holds state →
    ∀ uuid, state.db.objects.parentOf uuid = origin.objects.parentOf uuid
  changed : ∀ state, holds state → ∀ entry ∈ entries,
    holds (state.writeChunk entry.1 (state.db.aggregate entry.2 entry.1))
  visited : ∀ state, holds state → ∀ entry ∈ entries, ∀ upper,
    origin.objects.Ancestor upper entry.1 → holds (state.visit upper)

theorem mem_boxes_writeChunk {state : FlushState} {uuid other : Uuid} {box : AABB} :
    other ∈ (state.writeChunk uuid box).boxes ↔ other = uuid ∨ other ∈ state.boxes :=
  Table.mem_insert

theorem mem_boxes_visit {state : FlushState} {uuid other : Uuid} :
    other ∈ (state.visit uuid).boxes ↔ other = uuid ∨ other ∈ state.boxes :=
  Table.mem_insert

/-- The rest of a chain, as the walk reads it. -/
theorem parentUuid_queryObject {state : FlushState} {uuid : Uuid}
    (sameParent : state.db.objects.parentOf uuid = origin.objects.parentOf uuid) :
    (state.db.queryObject uuid).parentUuid = readNullableUuid (origin.objects.parentOf uuid) := by
  simp only [StreamSqliteDB.queryObject, sameParent]

section Walk

variable {fuel : ℕ} {uuid : Uuid} {state : FlushState}
  (parents : ∀ state, holds state →
    ∀ uuid, state.db.objects.parentOf uuid = origin.objects.parentOf uuid)

include parents

/-- A walk that ends has preserved the invariant and visited the whole chain. -/
theorem walkParents_rule {final : FlushState}
    (visited : ∀ state, holds state → ∀ upper, origin.objects.Below upper uuid →
      uuid ≠ Uuid.nil → holds (state.visit upper))
    (start : holds state) (ended : walkParents fuel uuid state = some final) :
    holds final ∧ (∀ other ∈ state.boxes, other ∈ final.boxes) ∧
      (uuid ≠ Uuid.nil → ∀ upper, origin.objects.Below upper uuid → upper ∈ final.boxes) := by
  induction fuel generalizing uuid state with
  | zero => simp [walkParents] at ended
  | succ fuel ih =>
      by_cases isNil : uuid = Uuid.nil
      · simp only [walkParents, isNil, if_true, Option.some.injEq] at ended
        subst ended
        exact ⟨start, fun _ written => written, fun nonNil => absurd isNil nonNil⟩
      · have next := visited state start uuid Relation.ReflTransGen.refl isNil
        simp only [walkParents, isNil, if_false,
          parentUuid_queryObject (parents state start uuid)] at ended
        cases parentEq : origin.objects.parentOf uuid with
        | none =>
            rw [parentEq] at ended
            rcases ih (fun _ _ _ _ nonNil => absurd rfl nonNil) next ended with ⟨done, kept, _⟩
            refine ⟨done, ?_, ?_⟩
            · intro other written
              exact kept other (mem_boxes_visit.mpr (Or.inr written))
            · intro _ upper below
              rw [ObjectTable.below_iff_of_parentOf_none parentEq] at below
              exact kept upper (mem_boxes_visit.mpr (Or.inl below))
        | some parent =>
            rw [parentEq] at ended
            rcases ih (fun other otherHolds upper below _ =>
                visited other otherHolds upper (below.tail parentEq) isNil) next ended with
              ⟨done, kept, climbed⟩
            refine ⟨done, ?_, ?_⟩
            · intro other written
              exact kept other (mem_boxes_visit.mpr (Or.inr written))
            · intro _ upper below
              rcases (ObjectTable.below_iff_parent parentEq).mp below with own | higher
              · exact kept upper (mem_boxes_visit.mpr (Or.inl own))
              · exact climbed (ObjectTable.parent_ne_nil parentEq) upper higher

/-- With more fuel than the chain has rows the walk ends. -/
theorem exists_walkParents (rooted : uuid ≠ Uuid.nil → origin.objects.Rooted uuid)
    (visited : ∀ state, holds state → ∀ upper, origin.objects.Below upper uuid →
      uuid ≠ Uuid.nil → holds (state.visit upper))
    (start : holds state) (onChain : uuid = Uuid.nil ∨ uuid ∈ origin.objects.rows)
    (enough : 0 < fuel ∧ (uuid ≠ Uuid.nil → origin.objects.height uuid < fuel)) :
    ∃ final, walkParents fuel uuid state = some final := by
  induction fuel generalizing uuid state with
  | zero => exact absurd enough.1 (Nat.lt_irrefl 0)
  | succ fuel ih =>
      by_cases isNil : uuid = Uuid.nil
      · exact ⟨state, by simp only [walkParents, isNil, if_true]⟩
      · have heightPos := ObjectTable.height_pos (onChain.resolve_left isNil)
        have heightLt := enough.2 isNil
        have next := visited state start uuid Relation.ReflTransGen.refl isNil
        simp only [walkParents, isNil, if_false, parentUuid_queryObject (parents state start uuid)]
        cases parentEq : origin.objects.parentOf uuid with
        | none =>
            exact ih (fun nonNil => absurd rfl nonNil) (fun _ _ _ _ nonNil => absurd rfl nonNil)
              next (Or.inl rfl) ⟨by omega, fun nonNil => absurd rfl nonNil⟩
        | some parent =>
            have shorter := ObjectTable.height_parent_lt (rooted isNil) parentEq
            have parentRooted := (ObjectTable.rooted_iff_parent parentEq).mp (rooted isNil)
            simp only [readNullableUuid, Option.getD_some]
            exact ih (fun _ => parentRooted) (fun other otherHolds upper below _ =>
                visited other otherHolds upper (below.tail parentEq) isNil) next
              (Or.inr (ObjectTable.parent_mem parentEq)) ⟨by omega, fun _ => by omega⟩

end Walk

section Loop

variable {entry : Uuid × AABB} {state : FlushState}

/-- Where the walk of one changed object starts. -/
theorem LoopInvariant.visited_parent (invariant : LoopInvariant origin entries holds)
    (listed : entry ∈ entries) (state : FlushState) (start : holds state) (upper : Uuid)
    (below : origin.objects.Below upper (readNullableUuid (origin.objects.parentOf entry.1)))
    (nonNil : readNullableUuid (origin.objects.parentOf entry.1) ≠ Uuid.nil) :
    holds (state.visit upper) := by
  cases parentEq : origin.objects.parentOf entry.1 with
  | none => simp [parentEq, readNullableUuid] at nonNil
  | some parent =>
      rw [parentEq] at below
      exact invariant.visited state start entry listed upper
        (ObjectTable.ancestor_iff.mpr ⟨parent, parentEq, below⟩)

theorem refresh_rule (invariant : LoopInvariant origin entries holds) (listed : entry ∈ entries)
    (start : holds state) {fuel : ℕ} {final : FlushState}
    (ended : refresh fuel state entry = some final) :
    holds final ∧ (∀ other ∈ state.boxes, other ∈ final.boxes) ∧
      ∀ upper, origin.objects.Below upper entry.1 → upper ∈ final.boxes := by
  have startOwn := invariant.changed state start entry listed
  simp only [refresh, parentUuid_queryObject (invariant.parents _ startOwn entry.1)] at ended
  rcases walkParents_rule invariant.parents (invariant.visited_parent listed) startOwn ended with
    ⟨done, kept, climbed⟩
  refine ⟨done, fun other old => kept other (mem_boxes_writeChunk.mpr (Or.inr old)), ?_⟩
  intro upper below
  have own := kept entry.1 (mem_boxes_writeChunk.mpr (Or.inl rfl))
  cases parentEq : origin.objects.parentOf entry.1 with
  | none =>
      rw [ObjectTable.below_iff_of_parentOf_none parentEq] at below
      exact below ▸ own
  | some parent =>
      rw [parentEq] at climbed
      rcases (ObjectTable.below_iff_parent parentEq).mp below with same | higher
      · exact same ▸ own
      · exact climbed (ObjectTable.parent_ne_nil parentEq) upper higher

theorem exists_refresh (rooted : origin.objects.Rooted entry.1)
    (invariant : LoopInvariant origin entries holds) (listed : entry ∈ entries)
    (start : holds state) :
    ∃ final, refresh (origin.objects.rows.entries.length + 1) state entry = some final := by
  have startOwn := invariant.changed state start entry listed
  simp only [refresh, parentUuid_queryObject (invariant.parents _ startOwn entry.1)]
  apply exists_walkParents invariant.parents _ (invariant.visited_parent listed) startOwn
  · cases parentEq : origin.objects.parentOf entry.1 with
    | none => exact Or.inl rfl
    | some parent => exact Or.inr (ObjectTable.parent_mem parentEq)
  · exact ⟨Nat.succ_pos _, fun _ => Nat.lt_succ_of_le (ObjectTable.height_le _ _)⟩
  · intro nonNil
    cases parentEq : origin.objects.parentOf entry.1 with
    | none => simp [parentEq, readNullableUuid] at nonNil
    | some parent => exact (ObjectTable.rooted_iff_parent parentEq).mp rooted

theorem refreshAll_rule (invariant : LoopInvariant origin entries holds)
    {rest : List (Uuid × AABB)} (listed : ∀ entry ∈ rest, entry ∈ entries) (start : holds state)
    {fuel : ℕ} {final : FlushState} (ended : refreshAll fuel rest state = some final) :
    holds final ∧ (∀ other ∈ state.boxes, other ∈ final.boxes) ∧
      ∀ entry ∈ rest, ∀ upper, origin.objects.Below upper entry.1 → upper ∈ final.boxes := by
  induction rest generalizing state with
  | nil =>
      rw [← Option.some.inj ended]
      exact ⟨start, fun _ old => old, by simp⟩
  | cons entry rest ih =>
      rcases Option.bind_eq_some_iff.mp ended with ⟨middle, middleEq, restEnded⟩
      rcases refresh_rule invariant (listed entry List.mem_cons_self) start middleEq with
        ⟨middleHolds, keptMiddle, climbed⟩
      rcases ih (fun other otherMem => listed other (List.mem_cons_of_mem _ otherMem))
        middleHolds restEnded with ⟨done, kept, reached⟩
      refine ⟨done, fun other old => kept other (keptMiddle other old), ?_⟩
      intro other otherMem upper below
      rcases List.mem_cons.mp otherMem with rfl | later
      · exact kept upper (climbed upper below)
      · exact reached other later upper below

theorem exists_refreshAll (invariant : LoopInvariant origin entries holds)
    {rest : List (Uuid × AABB)} (rooted : ∀ entry ∈ rest, origin.objects.Rooted entry.1)
    (listed : ∀ entry ∈ rest, entry ∈ entries) (start : holds state) :
    ∃ final, refreshAll (origin.objects.rows.entries.length + 1) rest state = some final := by
  induction rest generalizing state with
  | nil => exact ⟨state, rfl⟩
  | cons entry rest ih =>
      have listedEntry := listed entry List.mem_cons_self
      rcases exists_refresh (rooted entry List.mem_cons_self) invariant listedEntry start with
        ⟨middle, middleEq⟩
      have middleHolds := (refresh_rule invariant listedEntry start middleEq).1
      rcases ih (fun other otherMem => rooted other (List.mem_cons_of_mem _ otherMem))
        (fun other otherMem => listed other (List.mem_cons_of_mem _ otherMem))
        middleHolds with ⟨final, finalEq⟩
      exact ⟨final, by simp only [refreshAll, middleEq, Option.bind_some, finalEq]⟩

end Loop

end FlushState

section Task

variable {batch : FlushBatch} {db : StreamSqliteDB} {holds : FlushState → Prop}

/-- When the task ends, every invariant of its chunk loop holds and the chunks of all changed
objects and of their ancestors have been written. -/
theorem flushTask_rule
    (invariant : FlushState.LoopInvariant (db.prepare batch) batch.dirtyData.entries holds)
    (start : holds { db := db.prepare batch, boxes := ∅ }) {state : FlushState}
    (ended : flushTask batch db = some state) :
    holds state ∧ ∀ entry ∈ batch.dirtyData.entries, ∀ upper,
      (db.prepare batch).objects.Below upper entry.1 → upper ∈ state.boxes := by
  rcases FlushState.refreshAll_rule invariant (fun _ listed => listed) start ended with
    ⟨done, _, reached⟩
  exact ⟨done, reached⟩

/-- The task ends on every acyclic table. -/
theorem exists_flushTask (acyclic : (db.prepare batch).objects.Acyclic)
    (invariant : FlushState.LoopInvariant (db.prepare batch) batch.dirtyData.entries holds)
    (start : holds { db := db.prepare batch, boxes := ∅ }) :
    ∃ state, flushTask batch db = some state :=
  FlushState.exists_refreshAll invariant (fun entry _ => acyclic.rooted entry.1)
    (fun _ listed => listed) start

end Task

namespace FlushState

/-- The objects whose chunks the loop writes: the changed ones and their ancestors. -/
def Touched (origin : StreamSqliteDB) (entries : List (Uuid × AABB)) (uuid : Uuid) : Prop :=
  ∃ entry ∈ entries, uuid = entry.1 ∨ origin.objects.Ancestor uuid entry.1

/-- The loop started at `origin` keeps the rows with their parents and boxes, and every column of
the rows that it does not write. -/
structure KeepsRows (origin : StreamSqliteDB) (entries : List (Uuid × AABB))
    (state : FlushState) : Prop where
  present : ∀ uuid, uuid ∈ state.db.objects.rows ↔ uuid ∈ origin.objects.rows
  parents : ∀ uuid, state.db.objects.parentOf uuid = origin.objects.parentOf uuid
  columns : ∀ uuid, state.db.objects.aabbOf uuid = origin.objects.aabbOf uuid
  untouched : ∀ uuid, ¬ Touched origin entries uuid →
    state.db.objects.rows.get? uuid = origin.objects.rows.get? uuid

variable {origin : StreamSqliteDB} {entries : List (Uuid × AABB)}

theorem KeepsRows.start : KeepsRows origin entries { db := origin, boxes := ∅ } where
  present := fun _ => Iff.rfl
  parents := fun _ => rfl
  columns := fun _ => rfl
  untouched := fun _ _ => rfl

theorem KeepsRows.writeChunk {state : FlushState} (keeps : KeepsRows origin entries state)
    {uuid : Uuid} (touched : Touched origin entries uuid) (box : AABB) :
    KeepsRows origin entries (state.writeChunk uuid box) where
  present := by simpa [FlushState.writeChunk] using keeps.present
  parents := by simpa [FlushState.writeChunk] using keeps.parents
  columns := by simpa [FlushState.writeChunk] using keeps.columns
  untouched := by
    intro other free
    have distinct : other ≠ uuid := by
      rintro rfl
      exact free touched
    simp only [FlushState.writeChunk, StreamSqliteDB.get?_setObjectChunk_of_ne distinct,
      StreamSqliteDB.objects_queryChunk]
    exact keeps.untouched other free

theorem KeepsRows.visit {state : FlushState} (keeps : KeepsRows origin entries state)
    {uuid : Uuid} (touched : Touched origin entries uuid) :
    KeepsRows origin entries (state.visit uuid) := by
  have keepsRead : KeepsRows origin entries { state with db := (state.db.getObjectAabb uuid).2 } :=
    { present := by simpa using keeps.present
      parents := by simpa using keeps.parents
      columns := by simpa using keeps.columns
      untouched := by simpa using keeps.untouched }
  exact keepsRead.writeChunk touched _

theorem loopInvariant_keepsRows : LoopInvariant origin entries (KeepsRows origin entries) where
  parents := fun _ keeps => keeps.parents
  changed := fun _ keeps entry listed => keeps.writeChunk ⟨entry, listed, Or.inl rfl⟩ _
  visited := fun _ keeps entry listed _ ancestor => keeps.visit ⟨entry, listed, Or.inr ancestor⟩

end FlushState

/-- When the task ends, its chunk loop has left the prepared rows alone. -/
theorem flushTask_keepsRows {batch : FlushBatch} {db : StreamSqliteDB} {state : FlushState}
    (ended : flushTask batch db = some state) :
    FlushState.KeepsRows (db.prepare batch) batch.dirtyData.entries state :=
  (flushTask_rule FlushState.loopInvariant_keepsRows FlushState.KeepsRows.start ended).1

theorem exists_flushTask_of_acyclic {batch : FlushBatch} {db : StreamSqliteDB}
    (acyclic : (db.prepare batch).objects.Acyclic) : ∃ state, flushTask batch db = some state :=
  exists_flushTask acyclic FlushState.loopInvariant_keepsRows FlushState.KeepsRows.start

end GodotStream
