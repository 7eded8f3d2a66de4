import GodotStream.BatchOrder
import GodotStream.Streaming

/-!
# When a flush commits

The walk of the flush task follows the stored parents up to a root and keeps no record of
where it has been. It ends, having visited each object at most once, if and only if no
object above the changed one is its own ancestor. The schema does not rule that out: a row
may be its own parent, and an update may close a longer cycle.
-/

namespace GodotStream

open Storage Run

namespace FlushState

variable {origin : StreamSqliteDB} {state final : FlushState}

section Trace

/-- `walkParents`, with the objects that it visits. -/
def walkTrace : ℕ → Uuid → FlushState → Option (List Uuid × FlushState)
  | 0, _, _ => none
  | fuel + 1, parent, state =>
      if parent = Uuid.nil then some ([], state)
      else
        (walkTrace fuel (state.db.queryObject parent).parentUuid (state.visit parent)).map
          fun rest => (parent :: rest.1, rest.2)

def refreshTrace (fuel : ℕ) (state : FlushState) (entry : Uuid × AABB) :
    Option (List Uuid × FlushState) :=
  let state := state.writeChunk entry.1 (state.db.aggregate entry.2 entry.1)
  state.walkTrace fuel (state.db.queryObject entry.1).parentUuid

/-- The chunk loop, with what the walk of each changed object visits. -/
def loopTrace (fuel : ℕ) : List (Uuid × AABB) → FlushState → Option (List (List Uuid) × FlushState)
  | [], state => some ([], state)
  | entry :: rest, state =>
      (state.refreshTrace fuel entry).bind fun walked =>
        (loopTrace fuel rest walked.2).map fun others => (walked.1 :: others.1, others.2)

/-- The trace belongs to the walk of the task. -/
theorem walkParents_eq_trace (fuel : ℕ) (uuid : Uuid) (state : FlushState) :
    walkParents fuel uuid state = (walkTrace fuel uuid state).map Prod.snd := by
  induction fuel generalizing uuid state with
  | zero => rfl
  | succ fuel ih =>
      by_cases isNil : uuid = Uuid.nil
      · simp only [walkParents, walkTrace, isNil, if_true, Option.map_some]
      · simp only [walkParents, walkTrace, isNil, if_false, ih, Option.map_map]
        rfl

theorem refreshAll_eq_trace (fuel : ℕ) (entries : List (Uuid × AABB)) (state : FlushState) :
    refreshAll fuel entries state = (loopTrace fuel entries state).map Prod.snd := by
  induction entries generalizing state with
  | nil => rfl
  | cons entry rest ih =>
      have walked : refresh fuel state entry = (refreshTrace fuel state entry).map Prod.snd :=
        walkParents_eq_trace fuel _ _
      simp only [refreshAll, loopTrace, walked]
      cases refreshTrace fuel state entry with
      | none => rfl
      | some first => simp only [Option.map_some, Option.bind_some, ih, Option.map_map]; rfl

end Trace

section Parents

/-- The loop has left the parents as they were in `origin`. -/
def SameParents (origin : StreamSqliteDB) (state : FlushState) : Prop :=
  ∀ uuid, state.db.objects.parentOf uuid = origin.objects.parentOf uuid

theorem SameParents.start : SameParents origin { db := origin, boxes := ∅ } :=
  fun _ => rfl

theorem SameParents.writeChunk (same : SameParents origin state) (uuid : Uuid) (box : AABB) :
    SameParents origin (state.writeChunk uuid box) := by
  intro other
  simp only [FlushState.writeChunk, StreamSqliteDB.parentOf_setObjectChunk,
    StreamSqliteDB.objects_queryChunk]
  exact same other

theorem SameParents.visit (same : SameParents origin state) (uuid : Uuid) :
    SameParents origin (state.visit uuid) := by
  have read : SameParents origin { state with db := (state.db.getObjectAabb uuid).2 } := by
    intro other
    rw [StreamSqliteDB.objects_getObjectAabb]
    exact same other
  exact read.writeChunk uuid _

theorem loopInvariant_sameParents (entries : List (Uuid × AABB)) :
    LoopInvariant origin entries (SameParents origin) where
  parents := fun _ same => same
  changed := fun _ same entry _ => same.writeChunk entry.1 _
  visited := fun _ same _ _ upper _ => same.visit upper

end Parents

section Walks

theorem walkTrace_nil {fuel : ℕ} {walk : List Uuid}
    (ended : walkTrace fuel Uuid.nil state = some (walk, final)) : walk = [] := by
  cases fuel with
  | zero => simp [walkTrace] at ended
  | succ fuel =>
      simp only [walkTrace, if_true, Option.some.injEq, Prod.mk.injEq] at ended
      exact ended.1.symm

/-- A walk that ends has climbed a chain without a cycle, and visited each object on it once. -/
theorem walkTrace_ended {fuel : ℕ} {uuid : Uuid} {walk : List Uuid}
    (same : SameParents origin state)
    (ended : walkTrace fuel uuid state = some (walk, final)) :
    walk.Nodup ∧ (∀ upper ∈ walk, origin.objects.Below upper uuid) ∧
      (uuid ≠ Uuid.nil → origin.objects.Rooted uuid) := by
  induction fuel generalizing uuid state walk with
  | zero => simp [walkTrace] at ended
  | succ fuel ih =>
      by_cases isNil : uuid = Uuid.nil
      · rw [isNil] at ended
        rw [walkTrace_nil ended]
        exact ⟨List.nodup_nil, by simp, fun nonNil => absurd isNil nonNil⟩
      · simp only [walkTrace, isNil, if_false, parentUuid_queryObject (same uuid),
          Option.map_eq_some_iff] at ended
        rcases ended with ⟨rest, restEnded, restEq⟩
        simp only [Prod.mk.injEq] at restEq
        rcases restEq with ⟨rfl, rfl⟩
        cases parentEq : origin.objects.parentOf uuid with
        | none =>
            rw [parentEq] at restEnded
            rw [walkTrace_nil restEnded]
            refine ⟨List.nodup_singleton uuid, ?_,
              fun _ => ObjectTable.rooted_of_parentOf_none parentEq⟩
            intro upper listed
            rw [List.mem_singleton] at listed
            rw [listed]
            exact Relation.ReflTransGen.refl
        | some parent =>
            rw [parentEq] at restEnded
            rcases ih (same.visit uuid) restEnded with ⟨once, above, rooted⟩
            have parentRooted := rooted (ObjectTable.parent_ne_nil parentEq)
            have uuidRooted := (ObjectTable.rooted_iff_parent parentEq).mpr parentRooted
            refine ⟨List.nodup_cons.mpr ⟨?_, once⟩, ?_, fun _ => uuidRooted⟩
            · intro again
              exact uuidRooted.not_ancestor
                (ObjectTable.ancestor_iff.mpr ⟨parent, parentEq, above uuid again⟩)
            · intro upper listed
              rcases List.mem_cons.mp listed with own | higher
              · rw [own]
                exact Relation.ReflTransGen.refl
              · exact (above upper higher).tail parentEq

theorem refreshTrace_ended {fuel : ℕ} {entry : Uuid × AABB} {walk : List Uuid}
    (same : SameParents origin state)
    (ended : refreshTrace fuel state entry = some (walk, final)) :
    walk.Nodup ∧ origin.objects.Rooted entry.1 := by
  have written := same.writeChunk entry.1 (state.db.aggregate entry.2 entry.1)
  simp only [refreshTrace, parentUuid_queryObject (written entry.1)] at ended
  rcases walkTrace_ended written ended with ⟨once, _, rooted⟩
  refine ⟨once, ?_⟩
  cases parentEq : origin.objects.parentOf entry.1 with
  | none => exact ObjectTable.rooted_of_parentOf_none parentEq
  | some parent =>
      rw [parentEq] at rooted
      exact (ObjectTable.rooted_iff_parent parentEq).mpr
        (rooted (ObjectTable.parent_ne_nil parentEq))

theorem sameParents_refreshTrace {fuel : ℕ} {entry : Uuid × AABB} {walk : List Uuid}
    (same : SameParents origin state)
    (ended : refreshTrace fuel state entry = some (walk, final)) : SameParents origin final := by
  have refreshed : refresh fuel state entry = some final := by
    have walked : refresh fuel state entry = (refreshTrace fuel state entry).map Prod.snd :=
      walkParents_eq_trace fuel _ _
    rw [walked, ended, Option.map_some]
  exact (refresh_rule (loopInvariant_sameParents [entry]) (List.mem_singleton_self entry) same
    refreshed).1

/-- Every walk of a loop that ends has visited each object at most once, on a chain without a
cycle. -/
theorem loopTrace_ended {fuel : ℕ} {entries : List (Uuid × AABB)} {walks : List (List Uuid)}
    (same : SameParents origin state)
    (ended : loopTrace fuel entries state = some (walks, final)) :
    (∀ walk ∈ walks, walk.Nodup) ∧ ∀ entry ∈ entries, origin.objects.Rooted entry.1 := by
  induction entries generalizing state walks with
  | nil =>
      simp only [loopTrace, Option.some.injEq, Prod.mk.injEq] at ended
      rw [← ended.1]
      simp
  | cons entry rest ih =>
      rcases Option.bind_eq_some_iff.mp ended with ⟨first, firstEnded, restEnded⟩
      rcases Option.map_eq_some_iff.mp restEnded with ⟨others, othersEnded, split⟩
      simp only [Prod.mk.injEq] at split
      rcases split with ⟨rfl, rfl⟩
      rcases refreshTrace_ended same firstEnded with ⟨once, rooted⟩
      rcases ih (sameParents_refreshTrace same firstEnded) othersEnded with ⟨allOnce, allRooted⟩
      exact ⟨List.forall_mem_cons.mpr ⟨once, allOnce⟩,
        List.forall_mem_cons.mpr ⟨rooted, allRooted⟩⟩

end Walks

end FlushState

/-- The task comes to its `COMMIT`, and each walk visits every object at most once. -/
def Commits (batch : FlushBatch) (db : StreamSqliteDB) : Prop :=
  ∃ fuel walks state, FlushState.loopTrace fuel batch.dirtyData.entries
      { db := db.prepare batch, boxes := ∅ } = some (walks, state) ∧
    ∀ walk ∈ walks, walk.Nodup

variable {batch : FlushBatch} {db : StreamSqliteDB}

theorem rooted_prepare (uuid : Uuid) :
    (db.prepare batch).objects.Rooted uuid ↔ (batch.rowsAfter db).Rooted uuid := by
  have edges : (db.prepare batch).objects.IsChild = (batch.rowsAfter db).IsChild :=
    ObjectTable.isChild_congr fun uuid => FlushBatch.parentOf_prepare uuid
  simp only [ObjectTable.Rooted, ObjectTable.Ancestor, edges]

theorem rooted_of_loopTrace {fuel : ℕ} {walks : List (List Uuid)} {state : FlushState}
    (ended : FlushState.loopTrace fuel batch.dirtyData.entries
      { db := db.prepare batch, boxes := ∅ } = some (walks, state)) :
    ∀ uuid ∈ batch.dirtyData, (batch.rowsAfter db).Rooted uuid := by
  intro uuid listed
  rcases List.mem_map.mp (Table.mem_def.mp listed) with ⟨entry, entryListed, rfl⟩
  have walked := FlushState.loopTrace_ended FlushState.SameParents.start ended
  exact (rooted_prepare entry.1).mp (walked.2 entry entryListed)

/-- The fuel of the task is enough whenever there is an end to reach. -/
theorem exists_flushTask_of_rooted
    (rooted : ∀ uuid ∈ batch.dirtyData, (batch.rowsAfter db).Rooted uuid) :
    ∃ state, flushTask batch db = some state := by
  have rowRooted : ∀ entry ∈ batch.dirtyData.entries,
      (db.prepare batch).objects.Rooted entry.1 := by
    intro entry listed
    exact (rooted_prepare entry.1).mpr (rooted entry.1 (Table.mem_of_entry listed))
  exact FlushState.exists_refreshAll
    (FlushState.loopInvariant_sameParents batch.dirtyData.entries) rowRooted
    (fun _ listed => listed) FlushState.SameParents.start

/-- A flush commits, with walks that visit each object at most once, if and only if no object above
a changed one is its own ancestor. -/
theorem commits_iff (batch : FlushBatch) (db : StreamSqliteDB) :
    Commits batch db ↔ ∀ uuid ∈ batch.dirtyData, ∀ upper,
      (batch.rowsAfter db).Ancestor upper uuid → ¬ (batch.rowsAfter db).Ancestor upper upper := by
  constructor
  · rintro ⟨fuel, walks, state, ended, _⟩
    exact rooted_of_loopTrace ended
  · intro rooted
    rcases exists_flushTask_of_rooted rooted with ⟨state, ended⟩
    simp only [flushTask, FlushState.refreshAll_eq_trace, Option.map_eq_some_iff] at ended
    rcases ended with ⟨⟨walks, last⟩, traced, _⟩
    exact ⟨_, walks, last, traced,
      (FlushState.loopTrace_ended FlushState.SameParents.start traced).1⟩

/-- An object whose parent is set to itself. -/
def ownParent : World :=
  runAll World.step [.create 1 Uuid.nil World.unitBox, .enter 1, .addObject 1, .updateObject 1 1]
    World.blank

/-- The row becomes its own parent, and the walk does not end. -/
theorem not_commits_ownParent :
    Reaches World.step (fun _ _ => True) World.blank ownParent ∧
      ownParent.manager.upsertData = [(1, { parentUuid := 1, nodeRoot := 1 })] ∧
      1 ∈ ownParent.dirtyData ∧ ¬ Commits ownParent.captureBatch .create := by
  refine ⟨reaches_runAll (by decide +kernel) (by decide +kernel), by decide +kernel,
    by decide +kernel, ?_⟩
  rintro ⟨fuel, walks, state, ended, _⟩
  have changed : 1 ∈ ownParent.captureBatch.dirtyData := by decide +kernel
  have own : (ownParent.captureBatch.rowsAfter .create).Ancestor 1 1 := by decide +kernel
  exact (rooted_of_loopTrace ended 1 changed).not_ancestor own

end GodotStream
