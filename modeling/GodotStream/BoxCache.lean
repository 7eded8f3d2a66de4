import GodotStream.StreamSqliteDB

/-!
# Reading boxes through the cache

Sequences of calls on the database, answered through `aabb_cache` and answered by the
statements alone. A box in the cache outlives its row when the foreign key deletes the row
together with an ancestor, it never had a row when it was set for an absent uuid, and it
is not the stored one when its columns do not give it back.
-/

namespace GodotStream

open Storage

/-- The calls that read or change boxes or the rows that hold them. -/
inductive BoxCall where
  | upsertObjectUuids (uuid : Uuid) (objectdata : ObjectData)
  | setObjectAabb (uuid : Uuid) (aabb : AABB)
  | getObjectAabb (uuid : Uuid)
  | removeObject (uuid : Uuid)

namespace StreamSqliteDB

def call (db : StreamSqliteDB) : BoxCall → Option AABB × StreamSqliteDB
  | .upsertObjectUuids uuid objectdata => (none, db.upsertObjectUuids uuid objectdata)
  | .setObjectAabb uuid aabb => (none, db.setObjectAabb uuid aabb)
  | .getObjectAabb uuid => (some (db.getObjectAabb uuid).1, (db.getObjectAabb uuid).2)
  | .removeObject uuid => (none, db.removeObject uuid)

/-- The statements of the same calls, without the cache. -/
def callUncached (db : StreamSqliteDB) : BoxCall → Option AABB × StreamSqliteDB
  | .upsertObjectUuids uuid objectdata =>
      (none, { db with objects := db.objects.upsert uuid objectdata.parentUuid })
  | .setObjectAabb uuid aabb =>
      (none, { db with objects := db.objects.setAabb uuid (bindAabb aabb) })
  | .getObjectAabb uuid => (some (db.storedAabb uuid), db)
  | .removeObject uuid => (none, { db with objects := db.objects.delete uuid })

/-- What a sequence of calls returns. -/
def answers (perform : StreamSqliteDB → BoxCall → Option AABB × StreamSqliteDB) :
    List BoxCall → StreamSqliteDB → List (Option AABB)
  | [], _ => []
  | request :: rest, db => (perform db request).1 :: answers perform rest (perform db request).2

/-- The uuids whose cached box is not the stored one. -/
structure Astray where
  /-- The box was last set without a row, or the row was deleted after that through an ancestor. -/
  orphaned : List Uuid
  /-- The box last set is not given back by its columns, and none was read from them since. -/
  altered : List Uuid

def Astray.none : Astray :=
  { orphaned := [], altered := [] }

def astrayAfter (db : StreamSqliteDB) (astray : Astray) : BoxCall → Astray
  | .upsertObjectUuids _ _ => astray
  | .setObjectAabb uuid aabb =>
      { orphaned :=
          if uuid ∈ db.objects.rows then astray.orphaned.filter (· ≠ uuid)
          else uuid :: astray.orphaned
        altered :=
          if aabb.ReadsBack then astray.altered.filter (· ≠ uuid) else uuid :: astray.altered }
  | .getObjectAabb uuid =>
      if db.aabbCache.peek uuid = none then
        { astray with altered := astray.altered.filter (· ≠ uuid) }
      else astray
  | .removeObject uuid =>
      { orphaned := (db.objects.cascade uuid ++ astray.orphaned).filter (· ≠ uuid)
        altered := astray.altered.filter (· ≠ uuid) }

/-- A call reads no box that went astray, except for a default one without a row. -/
def ReadsFresh (db : StreamSqliteDB) (astray : Astray) : BoxCall → Prop
  | .getObjectAabb uuid =>
      if uuid ∈ astray.orphaned then ∀ box ∈ db.aabbCache.peek uuid, box = default
      else uuid ∈ astray.altered → db.aabbCache.peek uuid = none
  | _ => True

instance (db : StreamSqliteDB) (astray : Astray) :
    ∀ request, Decidable (db.ReadsFresh astray request)
  | .upsertObjectUuids _ _ => isTrue trivial
  | .setObjectAabb _ _ => isTrue trivial
  | .getObjectAabb _ => by
      unfold ReadsFresh
      infer_instance
  | .removeObject _ => isTrue trivial

/-- No call of the sequence reads a box that went astray. -/
def AlwaysFresh : List BoxCall → StreamSqliteDB → Astray → Prop
  | [], _, _ => True
  | request :: rest, db, astray =>
      db.ReadsFresh astray request ∧
        AlwaysFresh rest (db.call request).2 (db.astrayAfter astray request)

instance decidableAlwaysFresh : ∀ calls db astray, Decidable (AlwaysFresh calls db astray)
  | [], _, _ => isTrue trivial
  | request :: rest, db, astray =>
      have := decidableAlwaysFresh rest (db.call request).2 (db.astrayAfter astray request)
      inferInstanceAs (Decidable (_ ∧ _))

/-- Orphaned boxes are not stored and altered ones are not the stored ones; every other box in the
cache is the stored one. -/
structure Tracks (db : StreamSqliteDB) (astray : Astray) : Prop where
  lost : ∀ uuid ∈ astray.orphaned, db.storedAabb uuid = default
  changed : ∀ uuid, uuid ∉ astray.orphaned → uuid ∈ astray.altered →
    ∀ box, db.aabbCache.peek uuid = some box → box ≠ db.storedAabb uuid
  kept : ∀ uuid, uuid ∉ astray.orphaned → uuid ∉ astray.altered →
    ∀ box, db.aabbCache.peek uuid = some box → box = db.storedAabb uuid

section Calls

variable {db : StreamSqliteDB} {astray : Astray} {uuid other : Uuid} {aabb : AABB}

theorem storedAabb_congr {changed : StreamSqliteDB}
    (columns : changed.objects.aabbOf uuid = db.objects.aabbOf uuid) :
    changed.storedAabb uuid = db.storedAabb uuid := by
  simp only [storedAabb, columns]

theorem storedAabb_setObjectAabb_of_ne (distinct : other ≠ uuid) :
    (db.setObjectAabb uuid aabb).storedAabb other = db.storedAabb other :=
  storedAabb_congr (ObjectTable.aabbOf_setAabb_of_ne _ distinct)

theorem storedAabb_setObjectAabb_self (present : uuid ∈ db.objects.rows) :
    (db.setObjectAabb uuid aabb).storedAabb uuid = readAabb (bindAabb aabb) := by
  have columns : (db.setObjectAabb uuid aabb).objects.aabbOf uuid = some (bindAabb aabb) :=
    ObjectTable.aabbOf_setAabb_self _ present
  simp only [storedAabb, columns]

theorem storedAabb_of_absent (absent : uuid ∉ db.objects.rows) :
    db.storedAabb uuid = default := by
  simp only [storedAabb, ObjectTable.aabbOf, Table.get?_eq_none.mpr absent, Option.bind_none]

theorem storedAabb_setObjectAabb_of_absent (absent : uuid ∉ db.objects.rows) :
    (db.setObjectAabb uuid aabb).storedAabb uuid = default := by
  apply storedAabb_of_absent
  simpa only [setObjectAabb, ObjectTable.setAabb, ObjectTable.mem_updateColumns] using absent

theorem storedAabb_removeObject (db : StreamSqliteDB) (uuid other : Uuid) :
    (db.removeObject uuid).storedAabb other =
      if db.objects.Below uuid other then default else db.storedAabb other := by
  simp only [storedAabb, removeObject, ObjectTable.aabbOf_delete]
  by_cases below : db.objects.Below uuid other
  · simp only [below, if_true]
  · simp only [below, if_false]

theorem Tracks.upsertObjectUuids (tracks : db.Tracks astray) (uuid : Uuid)
    (objectdata : ObjectData) : (db.upsertObjectUuids uuid objectdata).Tracks astray := by
  have storedEq (other : Uuid) :
      (db.upsertObjectUuids uuid objectdata).storedAabb other = db.storedAabb other :=
    storedAabb_congr (ObjectTable.aabbOf_upsert _ _ _ _)
  refine ⟨?_, ?_, ?_⟩
  · intro other listed
    rw [storedEq]
    exact tracks.lost other listed
  · intro other kept altered box cached
    rw [storedEq]
    exact tracks.changed other kept altered box cached
  · intro other kept unaltered box cached
    rw [storedEq]
    exact tracks.kept other kept unaltered box cached

theorem Tracks.setObjectAabb (tracks : db.Tracks astray) (uuid : Uuid) (aabb : AABB) :
    (db.setObjectAabb uuid aabb).Tracks (db.astrayAfter astray (.setObjectAabb uuid aabb)) := by
  have others {other box} (distinct : other ≠ uuid)
      (cached : (db.setObjectAabb uuid aabb).aabbCache.peek other = some box) :
      db.aabbCache.peek other = some box :=
    FixedSizedCache.peek_put_of_ne distinct cached
  have own {box} (cached : (db.setObjectAabb uuid aabb).aabbCache.peek uuid = some box) :
      aabb = box := by
    simpa [StreamSqliteDB.setObjectAabb] using cached
  have sameOrphan {other} (distinct : other ≠ uuid) :
      other ∈ (db.astrayAfter astray (.setObjectAabb uuid aabb)).orphaned ↔
        other ∈ astray.orphaned := by
    simp only [astrayAfter]
    split <;> simp [distinct]
  have sameAltered {other} (distinct : other ≠ uuid) :
      other ∈ (db.astrayAfter astray (.setObjectAabb uuid aabb)).altered ↔
        other ∈ astray.altered := by
    simp only [astrayAfter]
    split <;> simp [distinct]
  have ownOrphan : uuid ∈ (db.astrayAfter astray (.setObjectAabb uuid aabb)).orphaned ↔
      uuid ∉ db.objects.rows := by
    simp only [astrayAfter]
    split <;> simp [*]
  have ownAltered : uuid ∈ (db.astrayAfter astray (.setObjectAabb uuid aabb)).altered ↔
      ¬ aabb.ReadsBack := by
    simp only [astrayAfter]
    split <;> simp [*]
  refine ⟨?_, ?_, ?_⟩
  · intro other listed
    by_cases same : other = uuid
    · subst same
      exact storedAabb_setObjectAabb_of_absent (ownOrphan.mp listed)
    · rw [storedAabb_setObjectAabb_of_ne same]
      exact tracks.lost other ((sameOrphan same).mp listed)
  · intro other kept altered box cached
    by_cases same : other = uuid
    · subst same
      rw [ownOrphan, not_not] at kept
      rw [storedAabb_setObjectAabb_self kept, ← own cached]
      exact fun readsBack => ownAltered.mp altered readsBack.symm
    · rw [storedAabb_setObjectAabb_of_ne same]
      rw [sameOrphan same] at kept
      exact tracks.changed other kept ((sameAltered same).mp altered) box (others same cached)
  · intro other kept unaltered box cached
    by_cases same : other = uuid
    · subst same
      rw [ownOrphan, not_not] at kept
      rw [ownAltered, not_not] at unaltered
      rw [storedAabb_setObjectAabb_self kept, ← own cached]
      exact unaltered.symm
    · rw [storedAabb_setObjectAabb_of_ne same]
      rw [sameOrphan same] at kept
      rw [sameAltered same] at unaltered
      exact tracks.kept other kept unaltered box (others same cached)

theorem Tracks.removeObject (tracks : db.Tracks astray) (uuid : Uuid) :
    (db.removeObject uuid).Tracks (db.astrayAfter astray (.removeObject uuid)) := by
  -- a box that is still cached belongs to another object, and its row is not deleted
  have survives {other box}
      (kept : other ∉ (db.astrayAfter astray (.removeObject uuid)).orphaned)
      (cached : (db.removeObject uuid).aabbCache.peek other = some box) :
      other ≠ uuid ∧ other ∉ astray.orphaned ∧ db.aabbCache.peek other = some box ∧
        (db.removeObject uuid).storedAabb other = db.storedAabb other := by
    simp only [StreamSqliteDB.removeObject, FixedSizedCache.peek_remove] at cached
    split at cached
    case isTrue => simp at cached
    case isFalse distinct =>
      simp only [astrayAfter, List.mem_filter, List.mem_append, ObjectTable.mem_cascade,
        decide_eq_true_eq, not_and, not_not] at kept
      have above : ¬ db.objects.Below uuid other := fun below =>
        distinct (kept (Or.inl below))
      refine ⟨distinct, fun old => distinct (kept (Or.inr old)), cached, ?_⟩
      rw [storedAabb_removeObject, if_neg above]
  refine ⟨?_, ?_, ?_⟩
  · intro other listed
    simp only [astrayAfter, List.mem_filter, List.mem_append, ObjectTable.mem_cascade] at listed
    rw [storedAabb_removeObject]
    split
    case isTrue => rfl
    case isFalse above => exact tracks.lost other (listed.1.resolve_left above)
  · intro other kept altered box cached
    rcases survives kept cached with ⟨_, keptBefore, cachedBefore, storedEq⟩
    rw [storedEq]
    exact tracks.changed other keptBefore (List.mem_of_mem_filter altered) box cachedBefore
  · intro other kept unaltered box cached
    rcases survives kept cached with ⟨distinct, keptBefore, cachedBefore, storedEq⟩
    rw [storedEq]
    simp only [astrayAfter, List.mem_filter, decide_eq_true_eq, not_and, not_not] at unaltered
    exact tracks.kept other keptBefore (fun listed => distinct (unaltered listed)) box cachedBefore

/-- A hit answers with the cached box, a miss with the stored one. -/
theorem getObjectAabb_fst (db : StreamSqliteDB) (uuid : Uuid) :
    (db.getObjectAabb uuid).1 = (db.aabbCache.peek uuid).getD (db.storedAabb uuid) := by
  rw [← FixedSizedCache.tryGet_fst]
  simp only [getObjectAabb]
  rcases db.aabbCache.tryGet uuid with ⟨_ | box, cache⟩ <;> rfl

theorem objects_getObjectAabb_snd (db : StreamSqliteDB) (uuid : Uuid) :
    (db.getObjectAabb uuid).2.objects = db.objects := by
  simp only [getObjectAabb]
  split <;> rfl

/-- A box in the cache after a read was there before, or it was missing and is the stored one. -/
theorem peek_getObjectAabb {box : AABB}
    (cached : (db.getObjectAabb uuid).2.aabbCache.peek other = some box) :
    db.aabbCache.peek other = some box ∨
      other = uuid ∧ db.aabbCache.peek uuid = none ∧ box = db.storedAabb other := by
  have hit := FixedSizedCache.tryGet_fst db.aabbCache uuid
  have cacheEq := FixedSizedCache.peek_tryGet db.aabbCache uuid
  simp only [getObjectAabb] at cached
  generalize db.aabbCache.tryGet uuid = answer at cached hit cacheEq
  rcases answer with ⟨_ | found, cache⟩
  · by_cases same : other = uuid
    · subst same
      simp only [FixedSizedCache.peek_put_self, Option.some.injEq] at cached
      exact Or.inr ⟨rfl, hit.symm, cached.symm⟩
    · rw [← cacheEq]
      exact Or.inl (FixedSizedCache.peek_put_of_ne same cached)
  · rw [← cacheEq]
    exact Or.inl cached

theorem Tracks.getObjectAabb (tracks : db.Tracks astray) (uuid : Uuid) :
    (db.getObjectAabb uuid).2.Tracks (db.astrayAfter astray (.getObjectAabb uuid)) := by
  have storedEq (other : Uuid) :
      (db.getObjectAabb uuid).2.storedAabb other = db.storedAabb other :=
    storedAabb_congr (by rw [objects_getObjectAabb_snd])
  have sameOrphans : (db.astrayAfter astray (.getObjectAabb uuid)).orphaned = astray.orphaned := by
    simp only [astrayAfter]
    split <;> rfl
  have alteredIff (other : Uuid) : other ∈ (db.astrayAfter astray (.getObjectAabb uuid)).altered ↔
      other ∈ astray.altered ∧ (db.aabbCache.peek uuid = none → other ≠ uuid) := by
    simp only [astrayAfter]
    split <;> simp [*]
  refine ⟨?_, ?_, ?_⟩
  · intro other listed
    rw [sameOrphans] at listed
    rw [storedEq]
    exact tracks.lost other listed
  · intro other kept altered box cached
    rw [sameOrphans] at kept
    rcases (alteredIff other).mp altered with ⟨alteredBefore, missed⟩
    rw [storedEq]
    rcases peek_getObjectAabb cached with old | ⟨same, missing, _⟩
    · exact tracks.changed other kept alteredBefore box old
    · exact absurd same (missed missing)
  · intro other kept unaltered box cached
    rw [sameOrphans] at kept
    rw [storedEq]
    rcases peek_getObjectAabb cached with old | ⟨_, _, stored⟩
    · by_cases alteredBefore : other ∈ astray.altered
      · rw [alteredIff, not_and, Classical.not_imp, not_not] at unaltered
        rcases unaltered alteredBefore with ⟨missing, rfl⟩
        rw [missing] at old
        simp at old
      · exact tracks.kept other kept alteredBefore box old
    · exact stored

/-- A read through the cache answers with the stored box exactly when it is fresh. -/
theorem Tracks.getObjectAabb_iff (tracks : db.Tracks astray) (uuid : Uuid) :
    (db.getObjectAabb uuid).1 = db.storedAabb uuid ↔
      db.ReadsFresh astray (.getObjectAabb uuid) := by
  rw [getObjectAabb_fst]
  simp only [ReadsFresh]
  cases cached : db.aabbCache.peek uuid with
  | none => simp
  | some box =>
      simp only [Option.getD_some, Option.mem_def, Option.some.injEq, forall_eq', reduceCtorEq,
        imp_false]
      split
      case isTrue listed => rw [tracks.lost uuid listed]
      case isFalse unlisted =>
        constructor
        · exact fun same altered => tracks.changed uuid unlisted altered box cached same
        · exact fun unaltered => tracks.kept uuid unlisted unaltered box cached

/-- What one call does: it changes the table as its statement does, it keeps track of the boxes
that went astray, and its answer is the uncached one exactly when it reads a fresh box. -/
theorem Tracks.call (tracks : db.Tracks astray) (request : BoxCall) {plain : StreamSqliteDB}
    (sameTable : plain.objects = db.objects) :
    (db.call request).2.Tracks (db.astrayAfter astray request) ∧
    (plain.callUncached request).2.objects = (db.call request).2.objects ∧
    ((db.call request).1 = (plain.callUncached request).1 ↔ db.ReadsFresh astray request) := by
  cases request with
  | upsertObjectUuids uuid objectdata =>
      refine ⟨tracks.upsertObjectUuids uuid objectdata, ?_, by simp [StreamSqliteDB.call,
        callUncached, ReadsFresh]⟩
      simp only [StreamSqliteDB.call, callUncached, StreamSqliteDB.upsertObjectUuids, sameTable]
  | setObjectAabb uuid aabb =>
      refine ⟨tracks.setObjectAabb uuid aabb, ?_, by simp [StreamSqliteDB.call, callUncached,
        ReadsFresh]⟩
      simp only [StreamSqliteDB.call, callUncached, StreamSqliteDB.setObjectAabb, sameTable]
  | getObjectAabb uuid =>
      refine ⟨tracks.getObjectAabb uuid, ?_, ?_⟩
      · simp only [StreamSqliteDB.call, callUncached, objects_getObjectAabb_snd, sameTable]
      · have storedEq : plain.storedAabb uuid = db.storedAabb uuid :=
          storedAabb_congr (by rw [sameTable])
        simp only [StreamSqliteDB.call, callUncached, Option.some.injEq, storedEq]
        exact tracks.getObjectAabb_iff uuid
  | removeObject uuid =>
      refine ⟨tracks.removeObject uuid, ?_, by simp [StreamSqliteDB.call, callUncached,
        ReadsFresh]⟩
      simp only [StreamSqliteDB.call, callUncached, StreamSqliteDB.removeObject, sameTable]

theorem Tracks.answers_iff (tracks : db.Tracks astray) (calls : List BoxCall)
    {plain : StreamSqliteDB} (sameTable : plain.objects = db.objects) :
    answers StreamSqliteDB.call calls db = answers callUncached calls plain ↔
      AlwaysFresh calls db astray := by
  induction calls generalizing db astray plain with
  | nil => simp [answers, AlwaysFresh]
  | cons request rest ih =>
      rcases tracks.call request sameTable with ⟨tracksAfter, sameAfter, answerIff⟩
      simp only [answers, List.cons.injEq, AlwaysFresh, answerIff]
      exact and_congr_right fun _ => ih tracksAfter sameAfter

end Calls

/-- From an empty cache of any capacity, a sequence of calls is answered as without the cache
exactly when no call reads a box that went astray. -/
theorem aabbCache_transparent_iff (db : StreamSqliteDB) (capacity : ℕ) (calls : List BoxCall) :
    answers call calls { db with aabbCache := .make capacity } =
        answers callUncached calls { db with aabbCache := .make capacity } ↔
      AlwaysFresh calls { db with aabbCache := .make capacity } .none := by
  have tracks : Tracks { db with aabbCache := .make capacity } .none :=
    ⟨by simp [Astray.none], by simp, by simp⟩
  exact tracks.answers_iff calls rfl

/-- A child's box is read, the other object is removed, and the child is read again. -/
def readAroundRemoval (removed : Uuid) : List BoxCall :=
  [.upsertObjectUuids 1 {}, .upsertObjectUuids 2 { parentUuid := 1 },
    .setObjectAabb 2 ⟨⟨0, 0, 0⟩, ⟨1, 1, 1⟩⟩, .getObjectAabb 2, .removeObject removed,
    .getObjectAabb 2]

theorem aabbCache_transparent_ownRemoval :
    answers call (readAroundRemoval 2) { create with aabbCache := .make 1000 } =
      answers callUncached (readAroundRemoval 2) { create with aabbCache := .make 1000 } :=
  (aabbCache_transparent_iff create 1000 (readAroundRemoval 2)).mpr (by decide +kernel)

/-- Removing the parent leaves the child's box in the cache, and the second read returns it. -/
theorem aabbCache_keepsCascaded :
    answers call (readAroundRemoval 1) create =
      [none, none, none, some ⟨⟨0, 0, 0⟩, ⟨1, 1, 1⟩⟩, none, some ⟨⟨0, 0, 0⟩, ⟨1, 1, 1⟩⟩] ∧
    answers callUncached (readAroundRemoval 1) create =
      [none, none, none, some ⟨⟨0, 0, 0⟩, ⟨1, 1, 1⟩⟩, none, some default] ∧
    (default : AABB) ≠ ⟨⟨0, 0, 0⟩, ⟨1, 1, 1⟩⟩ := by
  decide +kernel

end StreamSqliteDB

end GodotStream
