import GodotStream.AncestorChunks

/-!
# The order of the changed boxes

The last two loops of the flush task run over a hash map. An object may be computed
several times: from its own entry, and as an ancestor through `aabb_cache`, with
evictions in between. The cache holds the box as it was given, the columns hold it
truncated and give it back in single precision. This file shows that the chunks do not
depend on the order of the map when the columns give back every box that can be read so.
-/

namespace GodotStream

open Storage

/-- The changed boxes, as what the chunk loop can be offered. -/
def Changed (dirtyData : List (Uuid × AABB)) (uuid : Uuid) (box : AABB) : Prop :=
  (uuid, box) ∈ dirtyData

namespace StreamSqliteDB

/-- The box of every row in the cache is the one that the table holds. -/
def CacheExact (db : StreamSqliteDB) : Prop :=
  db.CacheFits fun _ columns box => box = readColumns columns

theorem CacheExact.serves {db : StreamSqliteDB} (cached : db.CacheExact)
    (dirtyData : List (Uuid × AABB)) :
    (runBoxes dirtyData db).CacheFits (ServedFrom (Changed dirtyData)) := by
  apply CacheFits.runBoxes
  · intro uuid present box found
    exact Or.inr (cached uuid present box found)
  · intro entry listed
    exact Or.inl listed

section ChunkKeys

variable {db : StreamSqliteDB}

/-- The foreign key on `chunk_id`: a chunk column that is not NULL names a row. -/
def ChunkKeysHold (db : StreamSqliteDB) : Prop :=
  ∀ uuid row id, db.objects.rows.get? uuid = some row → row.chunkId = some id →
    id ∈ db.chunks.chunkMetadata

theorem mem_chunkMetadata_queryChunk (agrees : db.ChunkCacheAgrees) (chunk : Chunk) {id : ℤ}
    (named : id ∈ db.chunks.chunkMetadata) :
    id ∈ (db.queryChunk chunk).2.chunks.chunkMetadata := by
  rcases Table.mem_iff_get?.mp named with ⟨other, stored⟩
  exact Table.mem_of_get? ((queryChunk_spec agrees chunk).2.2 id other stored)

theorem chunks_setObjectChunk (db : StreamSqliteDB) (uuid : Uuid) (chunkId : ℤ) :
    (db.setObjectChunk uuid chunkId).chunks = db.chunks := by
  simp only [setObjectChunk]
  split <;> rfl

theorem ChunkKeysHold.queryChunk (keys : db.ChunkKeysHold) (agrees : db.ChunkCacheAgrees)
    (chunk : Chunk) : (db.queryChunk chunk).2.ChunkKeysHold := by
  intro uuid row id found idEq
  rw [objects_queryChunk] at found
  exact mem_chunkMetadata_queryChunk agrees chunk (keys uuid row id found idEq)

theorem ChunkKeysHold.setObjectChunk (keys : db.ChunkKeysHold) (uuid : Uuid) (chunkId : ℤ) :
    (db.setObjectChunk uuid chunkId).ChunkKeysHold := by
  intro other row id found idEq
  rw [chunks_setObjectChunk]
  simp only [StreamSqliteDB.setObjectChunk] at found
  split at found
  case isTrue named =>
    simp only [ObjectTable.setChunk, ObjectTable.get?_updateColumns] at found
    split at found
    · rcases Option.map_eq_some_iff.mp found with ⟨old, _, rowEq⟩
      rw [← rowEq] at idEq
      exact Option.some.inj idEq ▸ named
    · exact keys other row id found idEq
  case isFalse => exact keys other row id found idEq

/-- Naming another chunk changes no object's chunk. -/
theorem chunkOf_queryChunk (keys : db.ChunkKeysHold) (agrees : db.ChunkCacheAgrees)
    (chunk : Chunk) (uuid : Uuid) : (db.queryChunk chunk).2.chunkOf uuid = db.chunkOf uuid := by
  simp only [chunkOf, objects_queryChunk]
  cases idEq : (db.objects.rows.get? uuid).bind ObjectRow.chunkId with
  | none => rfl
  | some id =>
      rcases Option.bind_eq_some_iff.mp idEq with ⟨row, found, rowId⟩
      rcases Table.mem_iff_get?.mp (keys uuid row id found rowId) with ⟨other, stored⟩
      rw [Option.bind_some, Option.bind_some, stored]
      exact (queryChunk_spec agrees chunk).2.2 id other stored

/-- Writing the chunk of one object changes no other object's chunk. -/
theorem chunkOf_writeChunk_of_ne {state : FlushState} (keys : state.db.ChunkKeysHold)
    (agrees : state.db.ChunkCacheAgrees) {uuid other : Uuid} (distinct : other ≠ uuid)
    (box : AABB) : (state.writeChunk uuid box).db.chunkOf other = state.db.chunkOf other := by
  rw [← chunkOf_queryChunk keys agrees (Chunk.computeChunk box) other]
  simp only [FlushState.writeChunk, chunkOf, get?_setObjectChunk_of_ne distinct,
    chunks_setObjectChunk]

theorem ChunkKeysHold.writeChunk {state : FlushState} (keys : state.db.ChunkKeysHold)
    (agrees : state.db.ChunkCacheAgrees) (uuid : Uuid) (box : AABB) :
    (state.writeChunk uuid box).db.ChunkKeysHold :=
  (keys.queryChunk agrees _).setObjectChunk _ _

theorem chunkKeysHold_runBoxes (keys : db.ChunkKeysHold) (dirtyData : List (Uuid × AABB)) :
    (runBoxes dirtyData db).ChunkKeysHold := by
  apply List.foldlRecOn dirtyData _ keys
  intro other otherKeys entry _ uuid row id found idEq
  simp only [setObjectAabb, ObjectTable.setAabb, ObjectTable.get?_updateColumns] at found ⊢
  split at found
  · rcases Option.map_eq_some_iff.mp found with ⟨old, oldFound, rowEq⟩
    rw [← rowEq] at idEq
    exact otherKeys _ old id oldFound idEq
  · exact otherKeys uuid row id found idEq

theorem chunkOf_runBoxes (dirtyData : List (Uuid × AABB)) (db : StreamSqliteDB) (uuid : Uuid) :
    (runBoxes dirtyData db).chunkOf uuid = db.chunkOf uuid := by
  simp only [runBoxes]
  induction dirtyData generalizing db with
  | nil => rfl
  | cons entry rest ih =>
      rw [List.foldl_cons, ih]
      simp only [chunkOf, setObjectAabb, ObjectTable.setAabb, ObjectTable.get?_updateColumns]
      by_cases same : uuid = entry.1
      · rw [if_pos same, same]
        cases db.objects.rows.get? entry.1 <;> rfl
      · rw [if_neg same]

end ChunkKeys

section Prepared

variable {db : StreamSqliteDB} {dirtyData other : List (Uuid × AABB)}

theorem childRows_runBoxes (dirtyData : List (Uuid × AABB)) (db : StreamSqliteDB) (uuid : Uuid) :
    childRows (runBoxes dirtyData db).objects.rows uuid = childRows db.objects.rows uuid := by
  simp only [runBoxes]
  induction dirtyData generalizing db with
  | nil => rfl
  | cons entry rest ih =>
      rw [List.foldl_cons, ih]
      exact ObjectTable.childRows_updateColumns _ _ _ _ _

theorem ancestor_runBoxes {upper lower : Uuid} :
    (runBoxes dirtyData db).objects.Ancestor upper lower ↔ db.objects.Ancestor upper lower := by
  have childEq := ObjectTable.isChild_congr (parentOf_runBoxes dirtyData db)
  simp only [ObjectTable.Ancestor, childEq]

/-- The box columns after the updates do not depend on their order. -/
theorem aabbOf_runBoxes_perm (perm : dirtyData.Perm other)
    (distinct : (dirtyData.map Prod.fst).Nodup)
    (present : ∀ entry ∈ dirtyData, entry.1 ∈ db.objects.rows) (uuid : Uuid) :
    (runBoxes dirtyData db).objects.aabbOf uuid = (runBoxes other db).objects.aabbOf uuid := by
  have otherDistinct : (other.map Prod.fst).Nodup := (perm.map Prod.fst).nodup_iff.mp distinct
  by_cases listed : uuid ∈ dirtyData.map Prod.fst
  · rcases List.mem_map.mp listed with ⟨entry, entryMem, rfl⟩
    rw [aabbOf_runBoxes distinct entryMem (present entry entryMem),
      aabbOf_runBoxes otherDistinct (perm.mem_iff.mp entryMem) (present entry entryMem)]
  · have otherUnlisted : uuid ∉ other.map Prod.fst :=
      fun otherListed => listed ((perm.map Prod.fst).mem_iff.mpr otherListed)
    rw [aabbOf_runBoxes_of_not_mem listed, aabbOf_runBoxes_of_not_mem otherUnlisted]

/-- The boxes of changed objects above other changed objects are given back by their columns. -/
def AncestorsReadBack (db : StreamSqliteDB) (dirtyData : List (Uuid × AABB)) : Prop :=
  ∀ entry ∈ dirtyData, (∃ lower ∈ dirtyData, db.objects.Ancestor entry.1 lower.1) →
    entry.2.ReadsBack

instance (db : StreamSqliteDB) (dirtyData : List (Uuid × AABB)) :
    Decidable (db.AncestorsReadBack dirtyData) := by
  unfold AncestorsReadBack
  infer_instance

theorem AncestorsReadBack.perm (readBack : db.AncestorsReadBack dirtyData)
    (perm : dirtyData.Perm other) : db.AncestorsReadBack other := by
  intro entry listed above
  apply readBack entry (perm.mem_iff.mpr listed)
  rcases above with ⟨lower, lowerMem, ancestor⟩
  exact ⟨lower, perm.mem_iff.mpr lowerMem, ancestor⟩

/-- A box held for a changed object is then its new box. -/
theorem HeldBox.current {uuid : Uuid} {own : AABB}
    (held : (runBoxes dirtyData db).HeldBox (Changed dirtyData) dirtyData uuid own)
    (distinct : (dirtyData.map Prod.fst).Nodup) (readBack : db.AncestorsReadBack dirtyData)
    (present : uuid ∈ db.objects.rows) :
    (uuid, own) ∈ dirtyData ∨ (uuid ∉ dirtyData.map Prod.fst ∧ own = db.storedAabb uuid) := by
  rcases held with changed | ⟨stored, lower, lowerMem, ancestor⟩
  · exact Or.inl changed
  · by_cases listed : uuid ∈ dirtyData.map Prod.fst
    · left
      rcases List.mem_map.mp listed with ⟨entry, entryMem, rfl⟩
      rw [ancestor_runBoxes] at ancestor
      rw [storedAabb_of_aabbOf (aabbOf_runBoxes distinct entryMem present),
        readBack entry entryMem ⟨lower, lowerMem, ancestor⟩] at stored
      rw [stored]
      exact entryMem
    · right
      rw [storedAabb_congr (aabbOf_runBoxes_of_not_mem listed)] at stored
      exact ⟨listed, stored⟩

/-- So the orders agree on it. -/
theorem HeldBox.unique_of_perm {uuid : Uuid} {own otherOwn : AABB}
    (held : (runBoxes dirtyData db).HeldBox (Changed dirtyData) dirtyData uuid own)
    (otherHeld : (runBoxes other db).HeldBox (Changed other) other uuid otherOwn)
    (perm : dirtyData.Perm other)
    (distinct : (dirtyData.map Prod.fst).Nodup) (readBack : db.AncestorsReadBack dirtyData)
    (present : uuid ∈ db.objects.rows) : own = otherOwn := by
  have otherDistinct : (other.map Prod.fst).Nodup := (perm.map Prod.fst).nodup_iff.mp distinct
  have sameKeys : uuid ∈ dirtyData.map Prod.fst ↔ uuid ∈ other.map Prod.fst :=
    (perm.map Prod.fst).mem_iff
  rcases held.current distinct readBack present with changed | ⟨unchanged, stored⟩
  · rcases otherHeld.current otherDistinct (readBack.perm perm) present with
      otherChanged | ⟨otherUnchanged, _⟩
    · have samePair := List.inj_on_of_nodup_map distinct changed (perm.mem_iff.mpr otherChanged) rfl
      exact congrArg Prod.snd samePair
    · exact absurd (sameKeys.mp (List.mem_map_of_mem changed)) otherUnchanged
  · rcases otherHeld.current otherDistinct (readBack.perm perm) present with
      otherChanged | ⟨_, otherStored⟩
    · exact absurd (sameKeys.mpr (List.mem_map_of_mem otherChanged)) unchanged
    · rw [stored, otherStored]

end Prepared

end StreamSqliteDB

namespace FlushState

variable {origin : StreamSqliteDB} {entries : List (Uuid × AABB)}

/-- The chunk loop follows the table it started at, and it changes the chunks of the objects that
it has written only. -/
structure Settles (origin : StreamSqliteDB) (entries : List (Uuid × AABB))
    (state : FlushState) : Prop where
  follows : Follows origin (Changed entries) entries state
  keys : state.db.ChunkKeysHold
  unwritten : ∀ uuid, uuid ∉ state.boxes → state.db.chunkOf uuid = origin.chunkOf uuid
  scope : ∀ uuid ∈ state.boxes, Touched origin entries uuid

theorem Settles.start (cached : origin.CacheFits (StreamSqliteDB.ServedFrom (Changed entries)))
    (agrees : origin.ChunkCacheAgrees) (keys : origin.ChunkKeysHold) :
    Settles origin entries { db := origin, boxes := ∅ } where
  follows := Follows.start cached agrees
  keys := keys
  unwritten := fun _ _ => rfl
  scope := by simp

theorem Settles.writeChunk {state : FlushState} (settles : Settles origin entries state)
    {uuid : Uuid} (touched : Touched origin entries uuid) {box : AABB}
    (followsAfter : Follows origin (Changed entries) entries (state.writeChunk uuid box)) :
    Settles origin entries (state.writeChunk uuid box) where
  follows := followsAfter
  keys := settles.keys.writeChunk settles.follows.chunkCache uuid _
  unwritten := by
    intro other free
    rw [mem_boxes_writeChunk, not_or] at free
    rw [StreamSqliteDB.chunkOf_writeChunk_of_ne settles.keys settles.follows.chunkCache free.1]
    exact settles.unwritten other free.2
  scope := by
    intro other written
    rcases mem_boxes_writeChunk.mp written with rfl | old
    · exact touched
    · exact settles.scope other old

theorem Settles.getObjectAabb {state : FlushState} (settles : Settles origin entries state)
    (uuid : Uuid) :
    Settles origin entries { state with db := (state.db.getObjectAabb uuid).2 } where
  follows := (settles.follows.getObjectAabb uuid).2
  keys := by simpa [StreamSqliteDB.ChunkKeysHold] using settles.keys
  unwritten := by simpa [StreamSqliteDB.chunkOf] using settles.unwritten
  scope := settles.scope

theorem loopInvariant_settles : LoopInvariant origin entries (Settles origin entries) where
  parents := fun _ settles => settles.follows.parents
  changed := by
    intro state settles entry listed
    exact settles.writeChunk ⟨entry, listed, Or.inl rfl⟩
      (settles.follows.writeChunk fun _ => Or.inl listed)
  visited := by
    intro state settles entry listed upper ancestor
    exact (settles.getObjectAabb upper).writeChunk ⟨entry, listed, Or.inr ancestor⟩
      (settles.follows.visit listed ancestor)

end FlushState

/-- The last two loops of the task: the boxes, then the chunks. -/
def flushDirty (dirtyData : List (Uuid × AABB)) (db : StreamSqliteDB) : Option FlushState :=
  let prepared := StreamSqliteDB.runBoxes dirtyData db
  FlushState.refreshAll (prepared.objects.rows.entries.length + 1) dirtyData
    { db := prepared, boxes := ∅ }

theorem flushTask_eq_flushDirty (batch : FlushBatch) (db : StreamSqliteDB) :
    flushTask batch db = flushDirty batch.dirtyData.entries
      (StreamSqliteDB.runUpserts batch.upsertData
        (StreamSqliteDB.runDeletes batch.remove.keys db)) :=
  rfl

section Orders

variable {db : StreamSqliteDB} {dirtyData : List (Uuid × AABB)}

theorem acyclic_runBoxes (acyclic : db.objects.Acyclic) :
    (StreamSqliteDB.runBoxes dirtyData db).objects.Acyclic := by
  simpa only [ObjectTable.Acyclic, StreamSqliteDB.ancestor_runBoxes] using acyclic

/-- The two loops end, with a chunk written for every changed object and its ancestors. -/
theorem flushDirty_spec (acyclic : db.objects.Acyclic) (exactCache : db.CacheExact)
    (agrees : db.ChunkCacheAgrees) (keys : db.ChunkKeysHold) (dirtyData : List (Uuid × AABB)) :
    ∃ final, flushDirty dirtyData db = some final ∧
      FlushState.Settles (StreamSqliteDB.runBoxes dirtyData db) dirtyData final ∧
      ∀ uuid, FlushState.Touched (StreamSqliteDB.runBoxes dirtyData db) dirtyData uuid →
        uuid ∈ final.boxes := by
  have start : FlushState.Settles (StreamSqliteDB.runBoxes dirtyData db) dirtyData
      { db := StreamSqliteDB.runBoxes dirtyData db, boxes := ∅ } :=
    FlushState.Settles.start (exactCache.serves dirtyData)
      (StreamSqliteDB.chunkCacheAgrees_runBoxes agrees dirtyData)
      (StreamSqliteDB.chunkKeysHold_runBoxes keys dirtyData)
  have invariant : FlushState.LoopInvariant (StreamSqliteDB.runBoxes dirtyData db) dirtyData _ :=
    FlushState.loopInvariant_settles
  rcases FlushState.exists_refreshAll invariant
    (fun entry _ => (acyclic_runBoxes acyclic).rooted entry.1) (fun _ listed => listed) start with
    ⟨final, ended⟩
  rcases FlushState.refreshAll_rule invariant (fun _ listed => listed) start ended with
    ⟨settles, _, reached⟩
  refine ⟨final, ended, settles, ?_⟩
  rintro uuid ⟨entry, listed, rfl | ancestor⟩
  · exact reached entry listed entry.1 Relation.ReflTransGen.refl
  · exact reached entry listed uuid ancestor.to_reflTransGen

theorem mem_rows_of_touched (present : ∀ entry ∈ dirtyData, entry.1 ∈ db.objects.rows)
    {uuid : Uuid}
    (touched : FlushState.Touched (StreamSqliteDB.runBoxes dirtyData db) dirtyData uuid) :
    uuid ∈ (StreamSqliteDB.runBoxes dirtyData db).objects.rows := by
  rcases touched with ⟨entry, listed, rfl | ancestor⟩
  · exact StreamSqliteDB.mem_runBoxes.mpr (present entry listed)
  · exact ObjectTable.mem_of_below ancestor.to_reflTransGen
      (StreamSqliteDB.mem_runBoxes.mpr (present entry listed))

theorem touched_runBoxes_perm {other : List (Uuid × AABB)} (perm : dirtyData.Perm other)
    (uuid : Uuid) :
    FlushState.Touched (StreamSqliteDB.runBoxes dirtyData db) dirtyData uuid ↔
      FlushState.Touched (StreamSqliteDB.runBoxes other db) other uuid := by
  simp only [FlushState.Touched, StreamSqliteDB.ancestor_runBoxes, perm.mem_iff]

/-- For any two orders of the map of changed boxes, the two loops end and leave every object with
the same chunk coordinates and the same stored box, when the boxes of changed objects above others
are given back by their columns. -/
theorem flushDirty_order_independent {changed : Table Uuid AABB}
    {first second : List (Uuid × AABB)} (firstOrder : first.Perm changed.entries)
    (secondOrder : second.Perm changed.entries) (acyclic : db.objects.Acyclic)
    (exactCache : db.CacheExact) (agrees : db.ChunkCacheAgrees) (keys : db.ChunkKeysHold)
    (readBack : db.AncestorsReadBack changed.entries)
    (present : ∀ entry ∈ changed.entries, entry.1 ∈ db.objects.rows) :
    ∃ final other, flushDirty first db = some final ∧ flushDirty second db = some other ∧
      ∀ uuid, final.db.chunkOf uuid = other.db.chunkOf uuid ∧
        final.db.objects.aabbOf uuid = other.db.objects.aabbOf uuid := by
  have perm := firstOrder.trans secondOrder.symm
  have distinct : (first.map Prod.fst).Nodup :=
    (firstOrder.map Prod.fst).nodup_iff.mpr changed.distinct
  have firstPresent : ∀ entry ∈ first, entry.1 ∈ db.objects.rows :=
    fun entry listed => present entry (firstOrder.mem_iff.mp listed)
  have secondPresent : ∀ entry ∈ second, entry.1 ∈ db.objects.rows :=
    fun entry listed => present entry (secondOrder.mem_iff.mp listed)
  rcases flushDirty_spec acyclic exactCache agrees keys first with
    ⟨final, finalEq, settles, written⟩
  rcases flushDirty_spec acyclic exactCache agrees keys second with
    ⟨other, otherEq, otherSettles, otherWritten⟩
  have columns := StreamSqliteDB.aabbOf_runBoxes_perm perm distinct firstPresent
  refine ⟨final, other, finalEq, otherEq, ?_⟩
  intro uuid
  constructor
  · by_cases touched : FlushState.Touched (StreamSqliteDB.runBoxes first db) first uuid
    · have otherTouched := (touched_runBoxes_perm perm uuid).mp touched
      have inRows := mem_rows_of_touched firstPresent touched
      have otherInRows := mem_rows_of_touched secondPresent otherTouched
      rcases Table.mem_iff_get?.mp (written uuid touched) with ⟨box, boxEq⟩
      rcases Table.mem_iff_get?.mp (otherWritten uuid otherTouched) with ⟨otherBox, otherBoxEq⟩
      rcases settles.follows.merged uuid inRows box boxEq with ⟨own, held, merged⟩
      rcases otherSettles.follows.merged uuid otherInRows otherBox otherBoxEq with
        ⟨otherOwn, otherHeld, otherMerged⟩
      -- both merge the same own box with the same boxes in the same order
      have sameOwn : own = otherOwn :=
        held.unique_of_perm otherHeld perm distinct (readBack.perm firstOrder.symm)
          (StreamSqliteDB.mem_runBoxes.mp inRows)
      have sameChildren : childRows (StreamSqliteDB.runBoxes first db).objects.rows uuid =
          childRows (StreamSqliteDB.runBoxes second db).objects.rows uuid := by
        rw [StreamSqliteDB.childRows_runBoxes, StreamSqliteDB.childRows_runBoxes]
      have sameBox : box = otherBox := by
        rw [merged, otherMerged, sameOwn]
        exact StreamSqliteDB.aggregate_congr sameChildren columns otherOwn
      rw [settles.follows.chunks uuid inRows box boxEq,
        otherSettles.follows.chunks uuid otherInRows otherBox otherBoxEq, sameBox]
    · have unwritten : uuid ∉ final.boxes := fun old => touched (settles.scope uuid old)
      have otherUnwritten : uuid ∉ other.boxes := fun old =>
        touched ((touched_runBoxes_perm perm uuid).mpr (otherSettles.scope uuid old))
      rw [settles.unwritten uuid unwritten, otherSettles.unwritten uuid otherUnwritten,
        StreamSqliteDB.chunkOf_runBoxes, StreamSqliteDB.chunkOf_runBoxes]
  · rw [settles.follows.columns, otherSettles.follows.columns, columns]

/-- A root, its child without a box, and its grandchild, in a fresh database. -/
def nestedDb : StreamSqliteDB :=
  StreamSqliteDB.runUpserts [(1, {}), (2, { parentUuid := 1 }), (3, { parentUuid := 2 })] .create

theorem flushDirty_order_independent_nestedDb :
    ∃ final other, flushDirty [(1, unitBox), (3, farBox)] nestedDb = some final ∧
      flushDirty [(3, farBox), (1, unitBox)] nestedDb = some other ∧
      ∀ uuid, final.db.chunkOf uuid = other.db.chunkOf uuid ∧
        final.db.objects.aabbOf uuid = other.db.objects.aabbOf uuid := by
  let changed : Table Uuid AABB := (Table.insert ∅ 1 unitBox).insert 3 farBox
  have firstOrder : [(1, unitBox), (3, farBox)].Perm changed.entries := by decide +kernel
  have secondOrder : [(3, farBox), (1, unitBox)].Perm changed.entries := by decide +kernel
  have exactCache : nestedDb.CacheExact := by
    intro uuid _ box cached
    simp [nestedDb, StreamSqliteDB.runUpserts, StreamSqliteDB.upsertObjectUuids,
      StreamSqliteDB.create] at cached
  have agrees : nestedDb.ChunkCacheAgrees := by
    intro chunk id cached
    simp [nestedDb, StreamSqliteDB.runUpserts, StreamSqliteDB.upsertObjectUuids,
      StreamSqliteDB.create] at cached
  have keys : nestedDb.ChunkKeysHold := by
    have noChunks : ∀ entry ∈ nestedDb.objects.rows.entries, entry.2.chunkId = none := by
      decide +kernel
    intro uuid row id found idEq
    rw [noChunks (uuid, row) (Table.get?_eq_some.mp found)] at idEq
    simp at idEq
  exact flushDirty_order_independent firstOrder secondOrder (by decide +kernel) exactCache agrees
    keys (by decide +kernel) (by decide +kernel)

/-- A root and its child, with room for one box in the cache. -/
def crampedDb : StreamSqliteDB :=
  { StreamSqliteDB.runUpserts [(1, {}), (2, { parentUuid := 1 })] .create with
    aabbCache := .make 1 }

/-- A box whose end is rounded in single precision. -/
def roundedBox : AABB :=
  { position := ⟨-4, 0, 0⟩, size := ⟨67108872, 1, 1⟩ }

def leftBox : AABB :=
  { position := ⟨-5, 0, 0⟩, size := ⟨1, 1, 1⟩ }

/-- The root's own box is the given one when the root is refreshed last, and is read from its
columns when the child is. -/
theorem flushDirty_depends_on_order :
    crampedDb.objects.Acyclic ∧ crampedDb.CacheExact ∧ crampedDb.ChunkCacheAgrees ∧
    crampedDb.ChunkKeysHold ∧ roundedBox.Integral ∧ leftBox.Integral ∧
    1 ∈ crampedDb.objects.rows ∧ 2 ∈ crampedDb.objects.rows ∧
    (∃ final ∈ flushDirty [(1, roundedBox), (2, leftBox)] crampedDb,
      (final.db.chunkOf 1).map Chunk.level = some 13) ∧
    ∃ final ∈ flushDirty [(2, leftBox), (1, roundedBox)] crampedDb,
      (final.db.chunkOf 1).map Chunk.level = some 14 := by
  have keys : crampedDb.ChunkKeysHold := by
    have noChunks : ∀ entry ∈ crampedDb.objects.rows.entries, entry.2.chunkId = none := by
      decide +kernel
    intro uuid row id found idEq
    rw [noChunks (uuid, row) (Table.get?_eq_some.mp found)] at idEq
    simp at idEq
  refine ⟨by decide +kernel, ?_, ?_, keys, by decide +kernel⟩
  · intro uuid _ box cached
    simp [crampedDb] at cached
  · intro chunk id cached
    simp [crampedDb, StreamSqliteDB.runUpserts, StreamSqliteDB.upsertObjectUuids,
      StreamSqliteDB.create] at cached

end Orders

end GodotStream
