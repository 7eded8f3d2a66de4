import GodotStream.ChunkIndex
import GodotStream.FixedSizedCache

/-!
# The streaming database

Model of `stream_sqlite_db.cpp`: the object table, the chunk tables, the caches
of chunk ids and boxes, and the statements that the manager's tasks run. Every
statement reaches the database; an upsert or a chunk update that violates a
foreign key has no effect, which the callers do not notice.
-/

namespace GodotStream

open Storage

structure StreamSqliteDB where
  objects : ObjectTable
  chunks : ChunkIndex
  chunkCache : FixedSizedCache Chunk ℤ
  aabbCache : FixedSizedCache Uuid AABB

namespace StreamSqliteDB

/-- A freshly created database with empty caches. -/
def create : StreamSqliteDB :=
  { objects := .empty
    chunks := .empty
    chunkCache := .make 500
    aabbCache := .make 1000 }

def upsertObjectUuids (db : StreamSqliteDB) (uuid : Uuid) (objectdata : ObjectData) :
    StreamSqliteDB :=
  { db with objects := db.objects.upsert uuid objectdata.parentUuid }

/-- Deletes the row with everything below it; only its own cached box is dropped. -/
def removeObject (db : StreamSqliteDB) (uuid : Uuid) : StreamSqliteDB :=
  { db with
    objects := db.objects.delete uuid
    aabbCache := (db.aabbCache.remove uuid).1 }

def setObjectAabb (db : StreamSqliteDB) (uuid : Uuid) (aabb : AABB) : StreamSqliteDB :=
  { db with
    objects := db.objects.setAabb uuid (bindAabb aabb)
    aabbCache := (db.aabbCache.put uuid aabb).1 }

/-- The box columns of a row, or the default box when they are NULL or there is no row. -/
def storedAabb (db : StreamSqliteDB) (uuid : Uuid) : AABB :=
  match db.objects.aabbOf uuid with
  | none => default
  | some columns => readAabb columns

def getObjectAabb (db : StreamSqliteDB) (uuid : Uuid) : AABB × StreamSqliteDB :=
  match db.aabbCache.tryGet uuid with
  | (some aabb, cache) => (aabb, { db with aabbCache := cache })
  | (none, cache) =>
      let aabb := db.storedAabb uuid
      (aabb, { db with aabbCache := (cache.put uuid aabb).1 })

def queryObject (db : StreamSqliteDB) (uuid : Uuid) : ObjectData :=
  { parentUuid := readNullableUuid (db.objects.parentOf uuid) }

/-- The direct children with the boxes they are stored with. -/
def queryChildrenAabb (db : StreamSqliteDB) (parentUuid : Uuid) : List (Uuid × AABB) :=
  (childRows db.objects.rows parentUuid).map fun child => (child, db.storedAabb child)

/-- The id of a chunk, which is inserted when it is new; `-1` when both statements yield no row. -/
def queryChunk (db : StreamSqliteDB) (chunk : Chunk) : ℤ × StreamSqliteDB :=
  match db.chunkCache.tryGet chunk with
  | (some id, cache) => (id, { db with chunkCache := cache })
  | (none, cache) =>
      match db.chunks.find chunk with
      | some id => (id, { db with chunkCache := (cache.put chunk id).1 })
      | none =>
          let inserted := db.chunks.insert chunk
          let id := inserted.1.getD (-1)
          (id, { db with chunks := inserted.2, chunkCache := (cache.put chunk id).1 })

/-- The foreign key on `chunk_id` refuses an id without a chunk row. -/
def setObjectChunk (db : StreamSqliteDB) (uuid : Uuid) (chunkId : ℤ) : StreamSqliteDB :=
  if chunkId ∈ db.chunks.chunkMetadata then
    { db with objects := db.objects.setChunk uuid chunkId }
  else db

/-- The chunk that the row of an object refers to. -/
def chunkOf (db : StreamSqliteDB) (uuid : Uuid) : Option Chunk :=
  ((db.objects.rows.get? uuid).bind ObjectRow.chunkId).bind db.chunks.chunkMetadata.get?

/-- The `WHERE` clause of the prepared statement for one box. -/
def overlapsBox [Rounding] (row : BoxColumns) (aabb : AABB) : Prop :=
  let minPos := aabb.position
  let maxPos := aabb.getEnd
  row.minX ≤ toInt32 maxPos.x ∧ row.maxX ≥ toInt32 minPos.x ∧
  row.minY ≤ toInt32 maxPos.y ∧ row.maxY ≥ toInt32 minPos.y ∧
  row.minZ ≤ toInt32 maxPos.z ∧ row.maxZ ≥ toInt32 minPos.z

instance [Rounding] (row : BoxColumns) (aabb : AABB) : Decidable (overlapsBox row aabb) := by
  unfold overlapsBox
  infer_instance

/-- One disjunct of the clause built for a list of boxes, with its six bound parameters. -/
def overlapsBound (row : BoxColumns) (params : BoxColumns) : Prop :=
  row.maxX ≥ params.minX ∧ row.minX ≤ params.maxX ∧
  row.maxY ≥ params.minY ∧ row.minY ≤ params.maxY ∧
  row.maxZ ≥ params.minZ ∧ row.minZ ≤ params.maxZ

instance (row params : BoxColumns) : Decidable (overlapsBound row params) := by
  unfold overlapsBound
  infer_instance

/-- `object_uuid JOIN chunk_metadata JOIN chunk_rtree`: the tile an object is found under. -/
def tileOf (db : StreamSqliteDB) (row : ObjectRow) : Option BoxColumns :=
  row.chunkId.bind fun id =>
    (db.chunks.chunkMetadata.get? id).bind fun _ => db.chunks.chunkRtree.get? id

/-- The rows of the join that satisfy a condition on the tile, read into a map. -/
def collectObjects (db : StreamSqliteDB) (condition : BoxColumns → Bool) :
    Table Uuid ObjectData :=
  (db.objects.rows.entries.filter fun entry => (db.tileOf entry.2).any condition).foldl
    (fun result entry =>
      result.insert entry.1 { parentUuid := readNullableUuid entry.2.parentUuid }) ∅

/-- `query_objects` for one box. -/
def queryObjects [Rounding] (db : StreamSqliteDB) (aabb : AABB) : Table Uuid ObjectData :=
  db.collectObjects fun tile => overlapsBox tile aabb

/-- `query_objects` for several boxes. -/
def queryObjectsAny [Rounding] (db : StreamSqliteDB) (aabbs : List AABB) : Table Uuid ObjectData :=
  if aabbs.isEmpty then ∅
  else db.collectObjects fun tile => aabbs.any fun aabb => overlapsBound tile (bindAabb aabb)

theorem get?_foldl_insert (read : ObjectRow → ObjectData) {entries : List (Uuid × ObjectRow)}
    (distinct : (entries.map Prod.fst).Nodup) (start : Table Uuid ObjectData) (uuid : Uuid) :
    (entries.foldl (fun result entry => result.insert entry.1 (read entry.2)) start).get? uuid =
      ((entries.lookup uuid).map read).or (start.get? uuid) := by
  induction entries generalizing start with
  | nil => simp
  | cons entry rest ih =>
      simp only [List.map_cons, List.nodup_cons] at distinct
      rw [List.foldl_cons, ih distinct.2, Table.get?_insert, List.lookup_cons]
      by_cases same : uuid = entry.1
      · subst same
        have absent : rest.lookup entry.1 = none := by
          rw [Option.eq_none_iff_forall_ne_some]
          intro row found
          exact distinct.1 (List.mem_map.mpr ⟨_, Table.mem_of_lookup_eq_some found, rfl⟩)
        simp [absent]
      · simp [same, beq_eq_false_iff_ne.mpr same]

/-- Every row of the join is read once, with the parent stored for it. -/
theorem get?_collectObjects (db : StreamSqliteDB) (condition : BoxColumns → Bool) (uuid : Uuid) :
    (db.collectObjects condition).get? uuid =
      ((db.objects.rows.get? uuid).filter fun row => (db.tileOf row).any condition).map
        fun row => { parentUuid := readNullableUuid row.parentUuid } := by
  have distinct : ((db.objects.rows.entries.filter
      fun entry => (db.tileOf entry.2).any condition).map Prod.fst).Nodup :=
    db.objects.rows.distinct.sublist (List.filter_sublist.map Prod.fst)
  simp only [collectObjects]
  rw [get?_foldl_insert (fun row => { parentUuid := readNullableUuid row.parentUuid }) distinct]
  simp only [Table.get?_empty, Option.or_none]
  congr 1
  ext row
  rw [Option.filter_eq_some_iff, Table.get?_eq_some]
  constructor
  · intro found
    exact List.mem_filter.mp (Table.mem_of_lookup_eq_some found)
  · rintro ⟨present, holds⟩
    exact Table.lookup_eq_some_of_mem distinct (List.mem_filter.mpr ⟨present, holds⟩)

theorem mem_collectObjects {db : StreamSqliteDB} {condition : BoxColumns → Bool} {uuid : Uuid} :
    uuid ∈ db.collectObjects condition ↔
      ∃ row, db.objects.rows.get? uuid = some row ∧
        ∃ tile, db.tileOf row = some tile ∧ condition tile = true := by
  simp only [Table.mem_iff_get?, get?_collectObjects, Option.map_eq_some_iff,
    Option.filter_eq_some_iff, Option.any_eq_true]
  constructor
  · rintro ⟨_, row, ⟨found, tile, tileEq, holds⟩, _⟩
    exact ⟨row, found, tile, tileEq, holds⟩
  · rintro ⟨row, found, tile, tileEq, holds⟩
    exact ⟨_, row, ⟨found, tile, tileEq, holds⟩, rfl⟩

/-- Query results name rows of the object table. -/
theorem mem_rows_of_mem_collectObjects {db : StreamSqliteDB} {condition : BoxColumns → Bool}
    {uuid : Uuid} (found : uuid ∈ db.collectObjects condition) : uuid ∈ db.objects.rows := by
  rcases mem_collectObjects.mp found with ⟨row, rowFound, _⟩
  exact Table.mem_of_get? rowFound

theorem mem_rows_of_mem_queryObjectsAny {db : StreamSqliteDB} {aabbs : List AABB} {uuid : Uuid}
    (found : uuid ∈ db.queryObjectsAny aabbs) : uuid ∈ db.objects.rows := by
  simp only [queryObjectsAny] at found
  split at found
  · simp at found
  · exact mem_rows_of_mem_collectObjects found

/-- Query results carry no node. -/
theorem nodeRoot_of_queryObjectsAny {db : StreamSqliteDB} {aabbs : List AABB} {uuid : Uuid}
    {data : ObjectData} (found : (db.queryObjectsAny aabbs).get? uuid = some data) :
    data.nodeRoot = 0 := by
  simp only [queryObjectsAny] at found
  split at found
  · simp at found
  · rw [get?_collectObjects] at found
    rcases Option.map_eq_some_iff.mp found with ⟨_, _, rfl⟩
    rfl

/-- The two statements test the same inequalities. -/
theorem overlapsBound_bindAabb [Rounding] (row : BoxColumns) (aabb : AABB) :
    overlapsBound row (bindAabb aabb) ↔ overlapsBox row aabb := by
  simp only [overlapsBound, overlapsBox, bindAabb]
  tauto

theorem overlapsBox_iff [Rounding] {row : BoxColumns} {aabb : AABB} :
    overlapsBox row aabb ↔ ∀ axis, row.lower axis ≤ toInt32 (aabb.getEnd.coord axis) ∧
      toInt32 (aabb.position.coord axis) ≤ row.upper axis := by
  constructor
  · rintro ⟨x1, x2, y1, y2, z1, z2⟩ axis
    cases axis
    · exact ⟨x1, x2⟩
    · exact ⟨y1, y2⟩
    · exact ⟨z1, z2⟩
  · intro overlap
    exact ⟨(overlap .x).1, (overlap .x).2, (overlap .y).1, (overlap .y).2,
      (overlap .z).1, (overlap .z).2⟩

theorem mem_collectObjects_of_chunkOf {db : StreamSqliteDB} {uuid : Uuid} {chunk : Chunk}
    (inChunk : db.chunkOf uuid = some chunk) (condition : BoxColumns → Bool) :
    uuid ∈ db.collectObjects condition ↔
      ∃ tile, triggerRow chunk = some tile ∧ condition tile = true := by
  simp only [chunkOf, Option.bind_eq_some_iff] at inChunk
  rcases inChunk with ⟨id, ⟨row, found, idEq⟩, stored⟩
  have tileEq : db.tileOf row = triggerRow chunk := by
    simp only [tileOf, idEq, Option.bind_some, stored, db.chunks.mirrored]
  rw [mem_collectObjects]
  constructor
  · rintro ⟨other, otherFound, tile, tileFound, holds⟩
    rw [found, Option.some.injEq] at otherFound
    subst otherFound
    exact ⟨tile, tileEq ▸ tileFound, holds⟩
  · rintro ⟨tile, tileFound, holds⟩
    exact ⟨row, found, tile, tileEq ▸ tileFound, holds⟩

/-- Every cached chunk id is the id of that chunk's row. -/
def ChunkCacheAgrees (db : StreamSqliteDB) : Prop :=
  ∀ chunk id, db.chunkCache.peek chunk = some id → db.chunks.chunkMetadata.get? id = some chunk

/-- `queryChunk` answers with the row of the chunk, which it creates when needed. -/
theorem queryChunk_spec {db : StreamSqliteDB} (agrees : db.ChunkCacheAgrees) (chunk : Chunk) :
    (db.queryChunk chunk).2.chunks.chunkMetadata.get? (db.queryChunk chunk).1 = some chunk ∧
      (db.queryChunk chunk).2.ChunkCacheAgrees ∧
      ∀ id other, db.chunks.chunkMetadata.get? id = some other →
        (db.queryChunk chunk).2.chunks.chunkMetadata.get? id = some other := by
  have put_agrees {cache : FixedSizedCache Chunk ℤ} {index : ChunkIndex} {id : ℤ}
      (cacheEq : ∀ other, cache.peek other = db.chunkCache.peek other)
      (stillStored : ∀ id other, db.chunks.chunkMetadata.get? id = some other →
        index.chunkMetadata.get? id = some other)
      (stored : index.chunkMetadata.get? id = some chunk) :
      ∀ other otherId, (cache.put chunk id).1.peek other = some otherId →
        index.chunkMetadata.get? otherId = some other := by
    intro other otherId found
    by_cases same : other = chunk
    · subst same
      rw [FixedSizedCache.peek_put_self, Option.some.injEq] at found
      exact found ▸ stored
    · apply stillStored
      apply agrees
      rw [← cacheEq]
      exact FixedSizedCache.peek_put_of_ne same found
  have hit := FixedSizedCache.tryGet_fst db.chunkCache chunk
  have cacheEq := FixedSizedCache.peek_tryGet db.chunkCache chunk
  simp only [queryChunk]
  generalize db.chunkCache.tryGet chunk = answer at hit cacheEq
  rcases answer with ⟨cached, cache⟩
  simp only at hit cacheEq
  cases cached with
  | some id =>
      refine ⟨agrees chunk id hit.symm, ?_, fun _ _ stored => stored⟩
      intro other otherId found
      exact agrees other otherId ((cacheEq other).symm.trans found)
  | none =>
      cases stored : db.chunks.find chunk with
      | some id =>
          have storedAt := ChunkIndex.find_eq_some.mp stored
          exact ⟨storedAt, put_agrees cacheEq (fun _ _ old => old) storedAt,
            fun _ _ old => old⟩
      | none =>
          rcases ChunkIndex.insert_of_find_none stored with ⟨idEq, metadataEq⟩
          have stillStored : ∀ id other, db.chunks.chunkMetadata.get? id = some other →
              (db.chunks.insert chunk).2.chunkMetadata.get? id = some other :=
            fun _ _ old => ChunkIndex.get?_insert_of_stored chunk old
          have storedAt : (db.chunks.insert chunk).2.chunkMetadata.get?
              ((db.chunks.insert chunk).1.getD (-1)) = some chunk := by
            rw [idEq, metadataEq, Option.getD_some, Table.get?_insert_self]
          exact ⟨storedAt, put_agrees cacheEq stillStored storedAt, stillStored⟩

@[simp]
theorem objects_queryChunk (db : StreamSqliteDB) (chunk : Chunk) :
    (db.queryChunk chunk).2.objects = db.objects := by
  simp only [queryChunk]
  split
  · rfl
  · split <;> rfl

@[simp]
theorem aabbCache_queryChunk (db : StreamSqliteDB) (chunk : Chunk) :
    (db.queryChunk chunk).2.aabbCache = db.aabbCache := by
  simp only [queryChunk]
  split
  · rfl
  · split <;> rfl

/-- Setting the chunk that `queryChunk` answers with puts an existing row into that chunk. -/
theorem chunkOf_setObjectChunk {db : StreamSqliteDB} (agrees : db.ChunkCacheAgrees)
    {uuid : Uuid} (present : uuid ∈ db.objects.rows) (chunk : Chunk) :
    ((db.queryChunk chunk).2.setObjectChunk uuid (db.queryChunk chunk).1).chunkOf uuid =
      some chunk := by
  rcases queryChunk_spec agrees chunk with ⟨stored, _, _⟩
  rcases Table.mem_iff_get?.mp present with ⟨row, found⟩
  simp only [setObjectChunk, Table.mem_of_get? stored, if_true, chunkOf, ObjectTable.setChunk,
    objects_queryChunk, ObjectTable.get?_updateColumns, found, Option.map_some, Option.bind_some,
    stored]

/-- Naming a chunk and setting it for one row leaves the chunks of the other rows alone. -/
theorem chunkOf_setObjectChunk_of_ne {db : StreamSqliteDB} (agrees : db.ChunkCacheAgrees)
    {uuid other : Uuid} (distinct : other ≠ uuid) {chunk : Chunk}
    (inChunk : db.chunkOf other = some chunk) (added : Chunk) :
    ((db.queryChunk added).2.setObjectChunk uuid (db.queryChunk added).1).chunkOf other =
      some chunk := by
  rcases queryChunk_spec agrees added with ⟨stored, _, kept⟩
  simp only [chunkOf, Option.bind_eq_some_iff] at inChunk
  rcases inChunk with ⟨id, ⟨row, found, idEq⟩, chunkEq⟩
  simp only [setObjectChunk, Table.mem_of_get? stored, if_true, chunkOf, ObjectTable.setChunk,
    objects_queryChunk, ObjectTable.get?_updateColumns, distinct, if_false, found,
    Option.bind_some, idEq]
  exact kept id chunk chunkEq

theorem chunkCacheAgrees_setObjectChunk {db : StreamSqliteDB} (agrees : db.ChunkCacheAgrees)
    (uuid : Uuid) (chunkId : ℤ) : (db.setObjectChunk uuid chunkId).ChunkCacheAgrees := by
  simp only [setObjectChunk]
  split
  · exact agrees
  · exact agrees

end StreamSqliteDB

end GodotStream
