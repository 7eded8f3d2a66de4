import GodotStream.BatchOrder
import GodotStream.BoxCache

/-!
# Boxes of ancestors

For every ancestor of a changed object, the walk along the parent chain merges the
ancestor's own box with the boxes of its direct children. A box further below is
covered only as far as those reach, and a merge can round the end of a box. This file
proves that the chunk loop ends on every acyclic table and determines when the box that
it hands to `compute_chunk` for an ancestor encloses a changed box below it.
-/

namespace GodotStream

open Storage Rounding

namespace StreamSqliteDB

section CachedBoxes

variable {fits : Uuid → Option BoxColumns → AABB → Prop} {db : StreamSqliteDB}

/-- What `get_object_aabb` reads from the columns of a row. -/
def readColumns (columns : Option BoxColumns) : AABB :=
  columns.elim default readAabb

theorem storedAabb_eq_readColumns (db : StreamSqliteDB) (uuid : Uuid) :
    db.storedAabb uuid = readColumns (db.objects.aabbOf uuid) := by
  unfold storedAabb readColumns
  cases db.objects.aabbOf uuid <;> rfl

/-- Every cached box of a row stands in the given relation to the box columns of the row. -/
def CacheFits (fits : Uuid → Option BoxColumns → AABB → Prop) (db : StreamSqliteDB) : Prop :=
  ∀ uuid ∈ db.objects.rows, ∀ box, db.aabbCache.peek uuid = some box →
    fits uuid (db.objects.aabbOf uuid) box

theorem CacheFits.congr {other : StreamSqliteDB} (cacheFits : db.CacheFits fits)
    (present : ∀ uuid, uuid ∈ other.objects.rows ↔ uuid ∈ db.objects.rows)
    (columns : ∀ uuid, other.objects.aabbOf uuid = db.objects.aabbOf uuid)
    (sameCache : other.aabbCache = db.aabbCache) : other.CacheFits fits := by
  intro uuid uuidMem box cached
  rw [columns]
  rw [sameCache] at cached
  exact cacheFits uuid ((present uuid).mp uuidMem) box cached

/-- A read answers with a box that fits, and leaves a cache that does. -/
theorem CacheFits.getObjectAabb (cacheFits : db.CacheFits fits)
    (reads : ∀ uuid columns, fits uuid columns (readColumns columns)) (uuid : Uuid) :
    (uuid ∈ db.objects.rows → fits uuid (db.objects.aabbOf uuid) (db.getObjectAabb uuid).1) ∧
      (db.getObjectAabb uuid).2.CacheFits fits := by
  constructor
  · intro present
    rw [getObjectAabb_fst]
    cases cached : db.aabbCache.peek uuid with
    | none =>
        rw [Option.getD_none, storedAabb_eq_readColumns]
        exact reads _ _
    | some box => exact cacheFits uuid present box cached
  · intro other present box cached
    rw [objects_getObjectAabb] at present ⊢
    rcases peek_getObjectAabb cached with old | ⟨_, _, stored⟩
    · exact cacheFits other present box old
    · rw [stored, storedAabb_eq_readColumns]
      exact reads _ _

theorem CacheFits.setObjectAabb (cacheFits : db.CacheFits fits) {uuid : Uuid} {aabb : AABB}
    (bound : fits uuid (some (bindAabb aabb)) aabb) :
    (db.setObjectAabb uuid aabb).CacheFits fits := by
  intro other present box cached
  have presentBefore : other ∈ db.objects.rows := ObjectTable.mem_updateColumns.mp present
  simp only [StreamSqliteDB.setObjectAabb] at cached ⊢
  by_cases same : other = uuid
  · subst same
    rw [FixedSizedCache.peek_put_self, Option.some.injEq] at cached
    rw [ObjectTable.aabbOf_setAabb_self _ presentBefore, ← cached]
    exact bound
  · rw [ObjectTable.aabbOf_setAabb_of_ne _ same]
    exact cacheFits other presentBefore box (FixedSizedCache.peek_put_of_ne same cached)

theorem CacheFits.runBoxes (cacheFits : db.CacheFits fits) {dirtyData : List (Uuid × AABB)}
    (bound : ∀ entry ∈ dirtyData, fits entry.1 (some (bindAabb entry.2)) entry.2) :
    (runBoxes dirtyData db).CacheFits fits := by
  apply List.foldlRecOn dirtyData _ cacheFits
  intro other otherFits entry listed
  exact otherFits.setObjectAabb (bound entry listed)

theorem CacheFits.writeChunk {state : FlushState} (cacheFits : state.db.CacheFits fits)
    (uuid : Uuid) (box : AABB) : (state.writeChunk uuid box).db.CacheFits fits := by
  apply cacheFits.congr
  · intro other
    simp [FlushState.writeChunk]
  · intro other
    simp [FlushState.writeChunk]
  · simp [FlushState.writeChunk]

/-- A cached box is the stored one, or one that is offered for the object. -/
def ServedFrom (offers : Uuid → AABB → Prop) (uuid : Uuid) (columns : Option BoxColumns)
    (box : AABB) : Prop :=
  offers uuid box ∨ box = readColumns columns

/-- A box of a row with box columns: the one that they give back, or one that was stored in them. -/
def FromColumns (columns : Option BoxColumns) (box : AABB) : Prop :=
  ∀ stored ∈ columns, box = readAabb stored ∨ bindAabb box = stored

theorem fromColumns_readColumns (columns : Option BoxColumns) :
    FromColumns columns (readColumns columns) := by
  rintro stored rfl
  exact Or.inl rfl

theorem storedAabb_of_aabbOf {uuid : Uuid} {columns : BoxColumns}
    (stored : db.objects.aabbOf uuid = some columns) : db.storedAabb uuid = readAabb columns := by
  simp only [storedAabb, stored]

/-- Both caches hold what the tables hold, and boxes as they were stored. -/
structure CachesAgree (db : StreamSqliteDB) : Prop where
  boxes : db.CacheFits fun _ => FromColumns
  chunks : db.ChunkCacheAgrees

theorem cachesAgree_create : create.CachesAgree := by
  constructor
  · intro uuid _ box cached
    simp [create] at cached
  · intro chunk id cached
    simp [create] at cached

theorem CachesAgree.removeObject (agrees : db.CachesAgree) (uuid : Uuid) :
    (db.removeObject uuid).CachesAgree := by
  refine ⟨?_, agrees.chunks⟩
  intro other present box cached
  rcases ObjectTable.mem_delete.mp present with ⟨spared, before⟩
  simp only [StreamSqliteDB.removeObject, FixedSizedCache.peek_remove] at cached
  split at cached
  case isTrue => simp at cached
  case isFalse =>
    rw [StreamSqliteDB.removeObject, ObjectTable.aabbOf_delete, if_neg spared]
    exact agrees.boxes other before box cached

theorem CachesAgree.upsertObjectUuids (agrees : db.CachesAgree) (uuid : Uuid)
    (objectdata : ObjectData) : (db.upsertObjectUuids uuid objectdata).CachesAgree := by
  refine ⟨?_, agrees.chunks⟩
  intro other present box cached stored columns
  simp only [StreamSqliteDB.upsertObjectUuids, ObjectTable.aabbOf_upsert] at columns
  have before : other ∈ db.objects.rows := by
    rcases Option.bind_eq_some_iff.mp columns with ⟨row, found, _⟩
    exact Table.mem_of_get? found
  exact agrees.boxes other before box cached stored columns

theorem chunkCacheAgrees_runBoxes (agrees : db.ChunkCacheAgrees)
    (dirtyData : List (Uuid × AABB)) : (runBoxes dirtyData db).ChunkCacheAgrees := by
  apply List.foldlRecOn dirtyData _ agrees
  intro other otherAgrees entry _
  exact otherAgrees

theorem CachesAgree.runBoxes (agrees : db.CachesAgree) (dirtyData : List (Uuid × AABB)) :
    (runBoxes dirtyData db).CachesAgree := by
  refine ⟨agrees.boxes.runBoxes fun entry _ => ?_, chunkCacheAgrees_runBoxes agrees.chunks _⟩
  exact fun stored bound => Or.inr (Option.some.inj bound)

theorem CachesAgree.writeChunk {state : FlushState} (agrees : state.db.CachesAgree) (uuid : Uuid)
    (box : AABB) : (state.writeChunk uuid box).db.CachesAgree :=
  ⟨agrees.boxes.writeChunk uuid box,
    chunkCacheAgrees_setObjectChunk (queryChunk_spec agrees.chunks _).2.1 _ _⟩

theorem CachesAgree.getObjectAabb (agrees : db.CachesAgree) (uuid : Uuid) :
    (db.getObjectAabb uuid).2.CachesAgree :=
  ⟨(agrees.boxes.getObjectAabb (fun _ => fromColumns_readColumns) uuid).2, by
    simpa [ChunkCacheAgrees] using agrees.chunks⟩

/-- The box given for the object last, as far as the cache can still hold it: its changed box, or
the one that was cached before the batch. -/
def GivenBox (db : StreamSqliteDB) (batch : FlushBatch) (uuid : Uuid) (box : AABB) : Prop :=
  match batch.dirtyData.get? uuid with
  | some changed => box = changed
  | none => db.aabbCache.peek uuid = some box

/-- The box is given for the object, and its columns are those of the row. -/
def OfferedBox (db : StreamSqliteDB) (batch : FlushBatch) (uuid : Uuid) (box : AABB) : Prop :=
  db.GivenBox batch uuid box ∧ (db.prepare batch).objects.aabbOf uuid = some (bindAabb box)

/-- A changed box replaces what is cached for its object. -/
theorem peek_runBoxes {dirtyData : List (Uuid × AABB)} (distinct : (dirtyData.map Prod.fst).Nodup)
    {uuid : Uuid} {box : AABB} (cached : (runBoxes dirtyData db).aabbCache.peek uuid = some box) :
    (uuid, box) ∈ dirtyData ∨
      (uuid ∉ dirtyData.map Prod.fst ∧ db.aabbCache.peek uuid = some box) := by
  induction dirtyData generalizing db with
  | nil => exact Or.inr ⟨by simp, cached⟩
  | cons first rest ih =>
      simp only [List.map_cons, List.nodup_cons] at distinct
      rcases ih distinct.2 cached with listed | ⟨unlisted, before⟩
      · exact Or.inl (List.mem_cons_of_mem _ listed)
      · simp only [StreamSqliteDB.setObjectAabb] at before
        by_cases own : uuid = first.1
        · rw [own, FixedSizedCache.peek_put_self, Option.some.injEq] at before
          rw [own, ← before]
          exact Or.inl List.mem_cons_self
        · refine Or.inr ⟨?_, FixedSizedCache.peek_put_of_ne own before⟩
          simp only [List.map_cons, List.mem_cons, not_or]
          exact ⟨own, unlisted⟩

/-- Before the boxes are written nothing new is cached. -/
theorem peek_runUpserts_runDeletes {upsertData : List (Uuid × ObjectData)} {remove : List Uuid}
    {uuid : Uuid} {box : AABB}
    (cached : (runUpserts upsertData (runDeletes remove db)).aabbCache.peek uuid = some box) :
    db.aabbCache.peek uuid = some box := by
  have upserted : (runUpserts upsertData (runDeletes remove db)).aabbCache =
      (runDeletes remove db).aabbCache := by
    apply List.foldlRecOn (motive := fun other : StreamSqliteDB =>
      other.aabbCache = (runDeletes remove db).aabbCache) upsertData _ rfl
    exact fun _ same _ _ => same
  rw [upserted] at cached
  have deleted : (runDeletes remove db).aabbCache.peek uuid = some box →
      db.aabbCache.peek uuid = some box := by
    apply List.foldlRecOn (motive := fun other : StreamSqliteDB =>
      other.aabbCache.peek uuid = some box → db.aabbCache.peek uuid = some box)
      remove StreamSqliteDB.removeObject id
    intro other kept removed _ held
    simp only [StreamSqliteDB.removeObject, FixedSizedCache.peek_remove] at held
    split at held
    · simp at held
    · exact kept held
  exact deleted cached

section Prepare

variable {batch : FlushBatch}

theorem CachesAgree.upserted (agrees : db.CachesAgree) (upsertData : List (Uuid × ObjectData))
    (remove : List Uuid) : (runUpserts upsertData (runDeletes remove db)).CachesAgree := by
  have deleted : (runDeletes remove db).CachesAgree := by
    apply List.foldlRecOn remove StreamSqliteDB.removeObject agrees
    exact fun _ otherAgrees uuid _ => otherAgrees.removeObject uuid
  apply List.foldlRecOn upsertData _ deleted
  exact fun _ otherAgrees entry _ => otherAgrees.upsertObjectUuids _ _

theorem CachesAgree.prepare (agrees : db.CachesAgree) : (db.prepare batch).CachesAgree :=
  (agrees.upserted _ _).runBoxes _

/-- Before the chunk loop every cached box is the stored one or given for its object. -/
theorem cacheFits_prepare (agrees : db.CachesAgree)
    (boxed : ∀ uuid ∈ (db.prepare batch).objects.rows,
      ∃ columns, (db.prepare batch).objects.aabbOf uuid = some columns) :
    (db.prepare batch).CacheFits (ServedFrom (db.OfferedBox batch)) := by
  intro uuid present box cached
  rcases boxed uuid present with ⟨columns, stored⟩
  have fits := agrees.prepare.boxes uuid present box cached columns stored
  rcases fits with read | bound
  · right
    rw [read, stored]
    rfl
  · left
    refine ⟨?_, stored.trans (congrArg some bound.symm)⟩
    rcases peek_runBoxes batch.dirtyData.distinct cached with listed | ⟨unlisted, before⟩
    · rw [GivenBox, Table.get?_eq_some.mpr listed]
    · rw [GivenBox, Table.get?_eq_none.mpr unlisted]
      exact peek_runUpserts_runDeletes before

end Prepare

end CachedBoxes

section RunBoxes

theorem aabbOf_runBoxes_of_not_mem {dirtyData : List (Uuid × AABB)} {db : StreamSqliteDB}
    {uuid : Uuid} (unlisted : uuid ∉ dirtyData.map Prod.fst) :
    (runBoxes dirtyData db).objects.aabbOf uuid = db.objects.aabbOf uuid := by
  rw [ObjectTable.aabbOf, ObjectTable.aabbOf, get?_runBoxes_of_not_mem unlisted]

/-- A changed object that has a row is left with its new box. -/
theorem aabbOf_runBoxes {dirtyData : List (Uuid × AABB)}
    (distinct : (dirtyData.map Prod.fst).Nodup) {db : StreamSqliteDB} {entry : Uuid × AABB}
    (listed : entry ∈ dirtyData) (present : entry.1 ∈ db.objects.rows) :
    (runBoxes dirtyData db).objects.aabbOf entry.1 = some (bindAabb entry.2) := by
  induction dirtyData generalizing db with
  | nil => simp at listed
  | cons first rest ih =>
      simp only [List.map_cons, List.nodup_cons] at distinct
      rw [runBoxes, List.foldl_cons]
      change (runBoxes rest _).objects.aabbOf entry.1 = _
      rcases List.mem_cons.mp listed with rfl | later
      · rw [aabbOf_runBoxes_of_not_mem distinct.1]
        exact ObjectTable.aabbOf_setAabb_self _ present
      · apply ih distinct.2 later
        exact ObjectTable.mem_updateColumns.mpr present

end RunBoxes

section Coverage

/-- Where an end comes out of a merge into a box that starts at `start`. -/
def keptEnd (start stop : ℚ) : ℚ :=
  rounded (start + rounded (stop - start))

theorem keptEnd_mono (start : ℚ) : Monotone (keptEnd start) := by
  intro first second le
  apply Rounding.monotone
  have inner : rounded (first - start) ≤ rounded (second - start) :=
    Rounding.monotone (by linarith)
  linarith

/-- The ends of merged boxes on one axis, each as the later merges leave it. -/
def carriedEnds (axis : Axis) : ℚ → List ℚ → List AABB → List ℚ
  | _, ends, [] => ends
  | start, ends, box :: rest =>
      let start := min start (box.position.coord axis)
      carriedEnds axis start ((ends ++ [box.getEnd.coord axis]).map (keptEnd start)) rest

/-- The merged box ends at the greatest of the carried ends. -/
theorem isGreatest_carriedEnds (axis : Axis) (boxes : List AABB) {own : AABB} {ends : List ℚ}
    (greatest : IsGreatest {stop | stop ∈ ends} (own.getEnd.coord axis)) :
    IsGreatest {stop | stop ∈ carriedEnds axis (own.position.coord axis) ends boxes}
      ((boxes.foldl AABB.mergeWith own).getEnd.coord axis) := by
  induction boxes generalizing own ends with
  | nil => exact greatest
  | cons box rest ih =>
      have startEq := AABB.coord_position_mergeWith own box axis
      have endEq : (own.mergeWith box).getEnd.coord axis =
          keptEnd (min (own.position.coord axis) (box.position.coord axis))
            (max (own.getEnd.coord axis) (box.getEnd.coord axis)) := by
        rw [AABB.coord_getEnd, AABB.coord_size_mergeWith, startEq, keptEnd]
      rw [List.foldl_cons, carriedEnds, ← startEq]
      apply ih
      rw [endEq, startEq]
      have both : IsGreatest {stop | stop ∈ ends ++ [box.getEnd.coord axis]}
          (max (own.getEnd.coord axis) (box.getEnd.coord axis)) := by
        constructor
        · rcases max_choice (own.getEnd.coord axis) (box.getEnd.coord axis) with same | same
          · rw [same]
            exact List.mem_append_left _ greatest.1
          · rw [same]
            exact List.mem_append_right _ List.mem_cons_self
        · intro stop listed
          rcases List.mem_append.mp listed with before | last
          · exact (greatest.2 before).trans (le_max_left _ _)
          · rw [List.mem_singleton.mp last]
            exact le_max_right _ _
      constructor
      · exact List.mem_map_of_mem both.1
      · intro stop listed
        rcases List.mem_map.mp listed with ⟨old, oldMem, rfl⟩
        exact keptEnd_mono _ (both.2 oldMem)

/-- The boxes of the direct children, in the order of their rows. -/
def childBoxes (db : StreamSqliteDB) (uuid : Uuid) : List AABB :=
  (childRows db.objects.rows uuid).map db.storedAabb

/-- On every axis the object's own box or a direct child's starts as low as the inner box, and one
of them ends as high, with its end as the merges in the order of the rows leave it. -/
def Covers (db : StreamSqliteDB) (own : AABB) (uuid : Uuid) (inner : AABB) : Prop :=
  ∀ axis,
    (∃ member ∈ own :: db.childBoxes uuid,
      member.position.coord axis ≤ inner.position.coord axis) ∧
    ∃ stop ∈ carriedEnds axis (own.position.coord axis) [own.getEnd.coord axis]
        (db.childBoxes uuid),
      inner.getEnd.coord axis ≤ stop

instance (db : StreamSqliteDB) (own : AABB) (uuid : Uuid) (inner : AABB) :
    Decidable (db.Covers own uuid inner) := by
  unfold Covers
  infer_instance

theorem encloses_aggregate_iff {db : StreamSqliteDB} {own : AABB} {uuid : Uuid} {inner : AABB} :
    (db.aggregate own uuid).encloses inner ↔ db.Covers own uuid inner := by
  rw [AABB.encloses_iff]
  apply forall_congr'
  intro axis
  apply and_congr
  · rw [position_aggregate_le_iff]
    simp [childBoxes, ObjectTable.mem_childRows_iff]
  · have single : IsGreatest {stop | stop ∈ [own.getEnd.coord axis]} (own.getEnd.coord axis) := by
      simp [isGreatest_singleton]
    rcases isGreatest_carriedEnds axis (db.childBoxes uuid) single with ⟨reached, bounded⟩
    rw [aggregate_eq_foldl]
    constructor
    · exact fun le => ⟨_, reached, le⟩
    · rintro ⟨stop, listed, le⟩
      exact le.trans (bounded listed)

/-- What the chunk loop can take for an object's own box: one that is offered, or the stored one
when a box below it has changed. -/
def HeldBox (db : StreamSqliteDB) (offers : Uuid → AABB → Prop) (entries : List (Uuid × AABB))
    (uuid : Uuid) (own : AABB) : Prop :=
  offers uuid own ∨
    (own = db.storedAabb uuid ∧ ∃ entry ∈ entries, db.objects.Ancestor uuid entry.1)

end Coverage

end StreamSqliteDB

namespace FlushState

variable {origin : StreamSqliteDB} {offers : Uuid → AABB → Prop}
  {entries : List (Uuid × AABB)}

/-- The chunk loop that started at `origin` has changed no parent and no box, and every box that
it handed to `compute_chunk` for a row is the merge of a box held for the row and the stored boxes
of its direct children. -/
structure Follows (origin : StreamSqliteDB) (offers : Uuid → AABB → Prop)
    (entries : List (Uuid × AABB)) (state : FlushState) : Prop where
  parents : ∀ uuid, state.db.objects.parentOf uuid = origin.objects.parentOf uuid
  columns : ∀ uuid, state.db.objects.aabbOf uuid = origin.objects.aabbOf uuid
  children : ∀ uuid, childRows state.db.objects.rows uuid = childRows origin.objects.rows uuid
  present : ∀ uuid, uuid ∈ state.db.objects.rows ↔ uuid ∈ origin.objects.rows
  cached : state.db.CacheFits (StreamSqliteDB.ServedFrom offers)
  chunkCache : state.db.ChunkCacheAgrees
  chunks : ∀ uuid ∈ origin.objects.rows, ∀ box, state.boxes.get? uuid = some box →
    state.db.chunkOf uuid = some (Chunk.computeChunk box)
  merged : ∀ uuid ∈ origin.objects.rows, ∀ box, state.boxes.get? uuid = some box →
    ∃ own, origin.HeldBox offers entries uuid own ∧ box = origin.aggregate own uuid

theorem Follows.start (cached : origin.CacheFits (StreamSqliteDB.ServedFrom offers))
    (chunkCache : origin.ChunkCacheAgrees) :
    Follows origin offers entries { db := origin, boxes := ∅ } :=
  { parents := fun _ => rfl
    columns := fun _ => rfl
    children := fun _ => rfl
    present := fun _ => Iff.rfl
    cached := cached
    chunkCache := chunkCache
    chunks := by simp
    merged := by simp }

theorem Follows.writeChunk {state : FlushState} (follows : Follows origin offers entries state)
    {uuid : Uuid} {own : AABB} (held : uuid ∈ origin.objects.rows →
      origin.HeldBox offers entries uuid own) :
    Follows origin offers entries (state.writeChunk uuid (state.db.aggregate own uuid)) := by
  refine ⟨?_, ?_, ?_, ?_, follows.cached.writeChunk uuid _, ?_, ?_, ?_⟩
  · intro other
    simpa [FlushState.writeChunk] using follows.parents other
  · intro other
    simpa [FlushState.writeChunk] using follows.columns other
  · intro other
    simpa [FlushState.writeChunk] using follows.children other
  · intro other
    simpa [FlushState.writeChunk] using follows.present other
  · exact StreamSqliteDB.chunkCacheAgrees_setObjectChunk
      (StreamSqliteDB.queryChunk_spec follows.chunkCache _).2.1 _ _
  · intro other present found foundEq
    simp only [FlushState.writeChunk, Table.get?_insert] at foundEq
    split at foundEq
    case isTrue same =>
      subst same
      rw [← Option.some.inj foundEq]
      exact StreamSqliteDB.chunkOf_setObjectChunk follows.chunkCache
        ((follows.present other).mpr present) _
    case isFalse distinct =>
      exact StreamSqliteDB.chunkOf_setObjectChunk_of_ne follows.chunkCache distinct
        (follows.chunks other present found foundEq) _
  · intro other present found foundEq
    simp only [FlushState.writeChunk, Table.get?_insert] at foundEq
    split at foundEq
    case isTrue same =>
      subst same
      rw [← Option.some.inj foundEq]
      exact ⟨own, held present,
        StreamSqliteDB.aggregate_congr (follows.children other) follows.columns own⟩
    case isFalse => exact follows.merged other present found foundEq

/-- Reading a box through the cache, whether its columns are NULL or not. -/
theorem Follows.getObjectAabb {state : FlushState} (follows : Follows origin offers entries state)
    (uuid : Uuid) :
    (uuid ∈ origin.objects.rows →
      StreamSqliteDB.ServedFrom offers uuid (origin.objects.aabbOf uuid)
        (state.db.getObjectAabb uuid).1) ∧
      Follows origin offers entries { state with db := (state.db.getObjectAabb uuid).2 } := by
  rcases follows.cached.getObjectAabb (fun _ _ => Or.inr rfl) uuid with ⟨answer, cachedAfter⟩
  constructor
  · intro present
    rw [← follows.columns]
    exact answer ((follows.present uuid).mpr present)
  · exact
      { parents := by simpa using follows.parents
        columns := by simpa using follows.columns
        children := by simpa using follows.children
        present := by simpa using follows.present
        cached := cachedAfter
        chunkCache := by simpa [StreamSqliteDB.ChunkCacheAgrees] using follows.chunkCache
        chunks := by simpa [StreamSqliteDB.chunkOf] using follows.chunks
        merged := follows.merged }

theorem Follows.visit {state : FlushState} (follows : Follows origin offers entries state)
    {upper : Uuid} {entry : Uuid × AABB} (listed : entry ∈ entries)
    (ancestor : origin.objects.Ancestor upper entry.1) :
    Follows origin offers entries (state.visit upper) := by
  rcases follows.getObjectAabb upper with ⟨answer, followsRead⟩
  apply followsRead.writeChunk
  intro present
  rcases answer present with changed | stored
  · exact Or.inl changed
  · refine Or.inr ⟨?_, entry, listed, ancestor⟩
    rw [StreamSqliteDB.storedAabb_eq_readColumns]
    exact stored

/-- Following the start is an invariant of the chunk loop. -/
theorem loopInvariant_follows
    (offered : ∀ entry ∈ entries, entry.1 ∈ origin.objects.rows → offers entry.1 entry.2) :
    LoopInvariant origin entries (Follows origin offers entries) where
  parents := fun _ follows => follows.parents
  changed := by
    intro state follows entry listed
    exact follows.writeChunk fun present => Or.inl (offered entry listed present)
  visited := by
    intro state follows entry listed upper ancestor
    exact follows.visit listed ancestor

end FlushState

section Enclosure

variable {batch : FlushBatch} {db : StreamSqliteDB}

theorem offeredBox_of_dirty {entry : Uuid × AABB} (listed : entry ∈ batch.dirtyData.entries)
    (present : entry.1 ∈ (db.prepare batch).objects.rows) :
    db.OfferedBox batch entry.1 entry.2 := by
  refine ⟨?_, StreamSqliteDB.aabbOf_runBoxes batch.dirtyData.distinct listed
    (StreamSqliteDB.mem_runBoxes.mp present)⟩
  rw [StreamSqliteDB.GivenBox, Table.get?_eq_some.mpr listed]

/-- On an acyclic table whose rows all have boxes the task ends, with a box handed to
`compute_chunk` for every ancestor of a changed object. -/
theorem flushTask_spec (agrees : db.CachesAgree) (acyclic : (db.prepare batch).objects.Acyclic)
    (boxed : ∀ uuid ∈ (db.prepare batch).objects.rows,
      ∃ columns, (db.prepare batch).objects.aabbOf uuid = some columns) :
    ∃ state, flushTask batch db = some state ∧
      state.Follows (db.prepare batch) (db.OfferedBox batch) batch.dirtyData.entries ∧
      ∀ entry ∈ batch.dirtyData.entries, ∀ upper,
        (db.prepare batch).objects.Ancestor upper entry.1 → upper ∈ state.boxes := by
  have invariant : FlushState.LoopInvariant (db.prepare batch) batch.dirtyData.entries _ :=
    FlushState.loopInvariant_follows fun _ listed present => offeredBox_of_dirty listed present
  have start : FlushState.Follows (db.prepare batch) (db.OfferedBox batch)
      batch.dirtyData.entries { db := db.prepare batch, boxes := ∅ } :=
    FlushState.Follows.start (StreamSqliteDB.cacheFits_prepare agrees boxed) agrees.prepare.chunks
  rcases exists_flushTask acyclic invariant start with ⟨state, ended⟩
  rcases flushTask_rule invariant start ended with ⟨follows, reached⟩
  refine ⟨state, ended, follows, ?_⟩
  intro entry listed upper ancestor
  exact reached entry listed upper ancestor.to_reflTransGen

/-- Flush tasks keep what is assumed of the caches. -/
theorem cachesAgree_flushTask {state : FlushState} (agrees : db.CachesAgree)
    (ended : flushTask batch db = some state) : state.db.CachesAgree := by
  have invariant : FlushState.LoopInvariant (db.prepare batch) batch.dirtyData.entries
      fun state => FlushState.KeepsRows (db.prepare batch) batch.dirtyData.entries state ∧
        state.db.CachesAgree := by
    have keepsRows : FlushState.LoopInvariant (db.prepare batch) batch.dirtyData.entries _ :=
      FlushState.loopInvariant_keepsRows
    refine ⟨fun _ kept => kept.1.parents, ?_, ?_⟩
    · intro before kept entry listed
      exact ⟨keepsRows.changed before kept.1 entry listed, kept.2.writeChunk _ _⟩
    · intro before kept entry listed upper ancestor
      refine ⟨keepsRows.visited before kept.1 entry listed upper ancestor, ?_⟩
      have read : ({ before with db := (before.db.getObjectAabb upper).2 } :
          FlushState).db.CachesAgree := kept.2.getObjectAabb upper
      exact read.writeChunk _ _
  exact (flushTask_rule invariant ⟨FlushState.KeepsRows.start, agrees.prepare⟩ ended).1.2

end Enclosure

section Chain

def unitBox : AABB :=
  { position := ⟨0, 0, 0⟩, size := ⟨1, 1, 1⟩ }

def farBox : AABB :=
  { position := ⟨100, 0, 0⟩, size := ⟨1, 1, 1⟩ }

/-- A root, its child and its grandchild added in one frame, the first two with unit boxes. -/
def chainBatch (grandchild : AABB) : FlushBatch :=
  { upsertData := [(1, {}), (2, { parentUuid := 1 }), (3, { parentUuid := 2 })]
    remove := ∅
    dirtyData := ((Table.insert ∅ 1 unitBox).insert 2 unitBox).insert 3 grandchild }

end Chain

end GodotStream
