import GodotStream.Steady
import GodotStream.SubtreeRemoval

/-!
# Deletions by the user

`remove_object` only records the uuid. The next frame removes the recorded objects that are
still registered and hands their uuids to a flush. Until then the database thread may finish
tasks and results may be delivered, and a result that lacks the object unregisters it.
-/

namespace GodotStream

open Storage Run

/-- A flush that deletes an object and does not upsert it leaves no row of it. -/
theorem not_mem_rows_flushTask {batch : FlushBatch} {db : StreamSqliteDB} {state : FlushState}
    {uuid : Uuid} (ended : flushTask batch db = some state) (removed : uuid ∈ batch.remove)
    (unlisted : uuid ∉ batch.upsertData.map Prod.fst) : uuid ∉ state.db.objects.rows := by
  intro present
  rw [(flushTask_keepsRows ended).present, FlushBatch.mem_prepare, FlushBatch.rowsAfter,
    Table.mem_iff_get?, ObjectTable.get?_upsertAll_of_not_mem unlisted, ← Table.mem_iff_get?,
    ObjectTable.mem_deleteAll] at present
  exact present.2 uuid removed Relation.ReflTransGen.refl

theorem AsyncDbWorker.drain_append (first second : List Task) (db : StreamSqliteDB) :
    drain (first ++ second) db = (drain first db).bind (drain second) := by
  induction first generalizing db with
  | nil => rfl
  | cons task rest ih =>
      simp only [List.cons_append, drain]
      cases task.run db with
      | none => rfl
      | some done => exact ih done.1

namespace World

variable {world : World} {uuid : Uuid}

/-- The database thread runs and results are delivered. -/
def Between (_ : World) : Event → Prop
  | .workerStep => True
  | .flushCallbacks => True
  | _ => False

instance decidableBetween (world : World) : ∀ event, Decidable (Between world event)
  | .workerStep | .flushCallbacks => isTrue trivial
  | .create .. | .enter _ | .exit _ | .reparent _ | .queueFree _ | .deleteQueued _ | .addObject _
  | .removeObject _ | .updateObject .. | .aabbChanged .. | .boxChanged .. | .loadProbe ..
  | .unloadProbe _ | .process _ | .asyncSave _ => isFalse id

theorem mem_objectRemoval_removeChild (id : ObjectID)
    (waiting : uuid ∈ world.manager.objectRemoval) :
    uuid ∈ (world.removeChild id).manager.objectRemoval := by
  have exited : uuid ∈ (world.onObjectExited id).manager.objectRemoval := by
    simp only [onObjectExited]
    split
    · exact waiting
    · split
      · exact waiting
      · simp only [StreamManager.removeObject]
        split
        · exact waiting
        · exact Table.mem_insert.mpr (Or.inr waiting)
  simp only [removeChild]
  split
  · exact waiting
  · split
    · split
      · exact exited
      · exact waiting
    · exact waiting

theorem mem_objectRemoval_unloadCollected (objId : Uuid)
    (waiting : uuid ∈ world.manager.objectRemoval) :
    uuid ∈ (world.unloadCollected objId).manager.objectRemoval := by
  have touched : uuid ∈ (world.touchEntry objId).manager.objectRemoval := waiting
  simp only [unloadCollected]
  split
  · exact touched
  · exact mem_objectRemoval_removeChild _ touched

/-- A delivered result takes no uuid from the removals that wait. -/
theorem mem_objectRemoval_onQueryResult (dbObjects : Table Uuid ObjectData)
    (waiting : uuid ∈ world.manager.objectRemoval) :
    uuid ∈ (world.onQueryResult dbObjects).manager.objectRemoval := by
  let waits (other : World) : Prop := uuid ∈ other.manager.objectRemoval
  have delivered : waits (world.onQueryResult dbObjects) := by
    apply onQueryResult_rule waiting
    · exact fun _ _ otherWaits => otherWaits
    · exact fun _ objId otherWaits _ => mem_objectRemoval_unloadCollected objId otherWaits
    · exact fun _ _ otherWaits _ => otherWaits
    · intro other otherWaits
      rcases StreamManager.exists_applyObjects other.manager dbObjects with ⟨_, _, applied⟩
      rw [applied]
      exact otherWaits
  exact delivered

theorem mem_objectRemoval_between {first : World} (between : Reaches step Between first world)
    (waiting : uuid ∈ first.manager.objectRemoval) : uuid ∈ world.manager.objectRemoval := by
  apply between.invariant waiting
  intro state event next waits allowed stepped
  cases happens_of_step stepped with
  | workerStep => exact waits
  | flushCallbacks =>
      let waitsIn (other : World) : Prop := uuid ∈ other.manager.objectRemoval
      have flushed : waitsIn state.flushCallbacks := by
        apply flushCallbacks_rule waits
        · exact fun _ _ => waits
        · exact fun _ _ dbObjects otherWaits _ _ =>
            mem_objectRemoval_onQueryResult dbObjects otherWaits
      exact flushed
  | create | enter | exit | reparent | queueFree | deleteQueued | addObject | removeObject
  | updateObject | aabbChanged | boxChanged | loadProbe | unloadProbe | process | asyncSave =>
      exact allowed.elim

/-- A removal moves an object from the registry to the removed ones, or leaves it. -/
theorem Deletes.tracked {ids : List Uuid} {before after : World}
    (deletes : Deletes ids before after) :
    (uuid ∈ after.manager.registry ∨ uuid ∈ after.manager.toRemove) ↔
      (uuid ∈ before.manager.registry ∨ uuid ∈ before.manager.toRemove) := by
  rw [deletes.removals, deletes.mem_registry]
  by_cases listed : uuid ∈ ids <;> simp [listed]

theorem tracked_foldl_removeObject (uuid : Uuid) (removals : List Uuid) (world : World) :
    (uuid ∈ (removals.foldl _removeObject world).manager.registry ∨
        uuid ∈ (removals.foldl _removeObject world).manager.toRemove) ↔
      (uuid ∈ world.manager.registry ∨ uuid ∈ world.manager.toRemove) := by
  induction removals generalizing world with
  | nil => rfl
  | cons removed rest ih => exact (ih _).trans (deletes_removeObject world removed).tracked

/-- No object that is removed stays registered. -/
theorem not_mem_registry_foldl_removeObject {removals : List Uuid} (listed : uuid ∈ removals)
    (world : World) : uuid ∉ (removals.foldl _removeObject world).manager.registry := by
  intro present
  have spared := ((mem_registry_foldl_removeObject removals world uuid).mp present).2
  exact spared uuid listed Relation.ReflTransGen.refl

/-- A frame removes what is recorded and registered. -/
theorem mem_toRemove_runRemovals (waiting : uuid ∈ world.manager.objectRemoval)
    (nothingRemoved : world.manager.toRemove = ∅) :
    uuid ∈ world.runRemovals.manager.toRemove ↔ uuid ∈ world.manager.registry := by
  have absent := not_mem_registry_foldl_removeObject waiting world
  have tracked := tracked_foldl_removeObject uuid world.manager.objectRemoval.keys world
  rw [nothingRemoved, or_iff_right absent, or_iff_left (Table.not_mem_empty uuid)] at tracked
  exact tracked

/-- The next frame removes the object and hands it to a flush, and its row does not outlive the
tasks that wait then. -/
structure DeletesRow (world : World) (loader : Loader) (uuid : Uuid) : Prop where
  removed : uuid ∈ world.runRemovals.captureBatch.remove
  pushed : ∃ worker ∈ (world.process loader).dbWorker,
    Task.flush world.runRemovals.captureBatch ∈ worker.taskQueue
  gone : ∀ worker ∈ (world.process loader).dbWorker, ∀ final ∈
    AsyncDbWorker.drain worker.taskQueue worker.db, uuid ∉ final.objects.rows

theorem dbWorker_queryProbes (world : World) :
    world.queryProbes.dbWorker = world.dbWorker ∨
      ∃ aabbs, world.queryProbes.dbWorker =
        world.dbWorker.map fun worker => worker.pushTask (.query aabbs) := by
  simp only [queryProbes]
  split
  · split
    · exact Or.inl rfl
    · exact Or.inr ⟨_, rfl⟩
  · exact Or.inl rfl

/-- A frame that removes something hands the batch over, and at most a query follows it. -/
theorem taskQueue_process {worker : AsyncDbWorker} (insideTree : world.manager.insideTree = true)
    (running : world.runRemovals.dbWorker = some worker) (loader : Loader)
    (removed : uuid ∈ world.runRemovals.manager.toRemove) :
    ∃ later, (world.process loader).dbWorker = some { worker with
        taskQueue := worker.taskQueue ++ .flush world.runRemovals.captureBatch :: later } ∧
      ∀ task ∈ later, ∃ aabbs, task = .query aabbs := by
  have nonempty : world.runRemovals.manager.toRemove.entries.isEmpty = false := by
    cases entries : world.runRemovals.manager.toRemove.entries with
    | nil => simp [Table.mem_def, Table.keys, entries] at removed
    | cons => rfl
  have flushed : world.runRemovals.flushPendingDbOps.dbWorker =
      some (worker.pushTask (.flush world.runRemovals.captureBatch)) := by
    simp only [flushPendingDbOps, running, nonempty, captureBatch, Bool.and_false, Bool.false_and,
      Bool.false_eq_true, if_false, pushTask, Option.map_some]
  have frame : (world.process loader).dbWorker =
      world.runRemovals.flushPendingDbOps.queryProbes.dbWorker := by
    simp only [process, insideTree, running, Bool.not_true, Bool.false_eq_true, if_false]
    rw [(loads_streamScenes _ loader).frame]
  rw [frame]
  rcases dbWorker_queryProbes world.runRemovals.flushPendingDbOps with same | ⟨aabbs, queried⟩
  · refine ⟨[], ?_, by simp⟩
    rw [same, flushed]
    rfl
  · refine ⟨[.query aabbs], ?_, fun task listed => ⟨aabbs, List.mem_singleton.mp listed⟩⟩
    rw [queried, flushed]
    simp [AsyncDbWorker.pushTask]

/-- Queries change no rows. -/
theorem drain_queries {later : List Task} (queries : ∀ task ∈ later, ∃ aabbs, task = .query aabbs)
    (db : StreamSqliteDB) : AsyncDbWorker.drain later db = some db := by
  induction later with
  | nil => rfl
  | cons task rest ih =>
      rcases queries task List.mem_cons_self with ⟨aabbs, rfl⟩
      exact ih fun other listed => queries other (List.mem_cons_of_mem _ listed)

/-- After `remove_object` was called for an object, and the database thread has run and results
were delivered, the next frame deletes it exactly when it is still registered. -/
theorem deletion_kept_iff {db : StreamSqliteDB} {files : Table ScenePath PackedScene}
    {sceneCap nodeCap : ℕ} {uuidGenerator : ℕ → {uuid : Uuid // uuid ≠ Uuid.nil}}
    {called first : World} (nonNil : uuid ≠ Uuid.nil)
    (began : Reaches step (fun _ _ => True) (make db files sceneCap nodeCap uuidGenerator) called)
    (removal : called.step (.removeObject uuid) = some first)
    (between : Reaches step Between first world) (loader : Loader) :
    world.DeletesRow loader uuid ↔ uuid ∈ world.manager.registry := by
  have recorded : uuid ∈ first.manager.objectRemoval := by
    rw [← Option.some.inj removal]
    simp [StreamManager.removeObject, nonNil]
  have waiting := mem_objectRemoval_between between recorded
  have steady : world.Steady uuidGenerator := by
    apply between.invariant ((steady_of_reaches began).step removal)
    exact fun _ _ _ before _ stepped => before.step stepped
  have removed := mem_toRemove_runRemovals waiting steady.toRemove
  refine ⟨fun deletes => removed.mp deletes.removed, ?_⟩
  intro registered
  have frame := (sparesEntry_runRemovals uuid world).frame
  rcases Option.isSome_iff_exists.mp steady.running with ⟨worker, running⟩
  have stillRunning : world.runRemovals.dbWorker = some worker := by
    rw [frame]
    exact running
  rcases taskQueue_process steady.insideTree stillRunning loader (removed.mpr registered) with
    ⟨later, processed, queries⟩
  refine ⟨removed.mpr registered, ⟨_, processed, ?_⟩, ?_⟩
  · exact List.mem_append_right _ List.mem_cons_self
  · intro other otherRunning final drained
    rw [processed, Option.mem_def, Option.some.injEq] at otherRunning
    subst otherRunning
    rw [AsyncDbWorker.drain_append, Option.mem_def, Option.bind_eq_some_iff] at drained
    rcases drained with ⟨middle, _, drained⟩
    rcases Option.bind_eq_some_iff.mp drained with ⟨done, ran, rest⟩
    rcases Option.map_eq_some_iff.mp ran with ⟨state, ended, rfl⟩
    rw [drain_queries queries, Option.some.injEq] at rest
    subst rest
    apply not_mem_rows_flushTask ended (removed.mpr registered)
    intro listed
    -- an upsert is captured only for what is still registered
    have present := (StreamManager.mem_upsertData.mp listed).2
    exact not_mem_registry_foldl_removeObject waiting world present

/-- No delivered result lacks the object. -/
def SeenBy (uuid : Uuid) (world : World) : Event → Prop
  | .flushCallbacks => ∀ worker ∈ world.dbWorker, ∀ dbObjects,
      Callback.onQueryResult dbObjects ∈ worker.completedCallbacks → uuid ∈ dbObjects
  | _ => True

/-- As long as the delivered results hold the object, it stays registered. -/
theorem registered_of_seen {first : World}
    (between : Reaches step (fun state event => Between state event ∧ SeenBy uuid state event)
      first world) (registered : uuid ∈ first.manager.registry) :
    uuid ∈ world.manager.registry := by
  apply between.invariant registered
  intro state event next present allowed stepped
  cases happens_of_step stepped with
  | workerStep => exact present
  | flushCallbacks =>
      let registers (other : World) : Prop := uuid ∈ other.manager.registry
      have flushed : registers state.flushCallbacks := by
        apply flushCallbacks_rule present
        · exact fun _ _ => present
        · intro other worker dbObjects _ running completed
          rcases Table.mem_iff_get?.mp (allowed.2 worker running dbObjects completed) with
            ⟨row, found⟩
          apply Table.mem_iff_get?.mpr
          simp only [onQueryResult, StreamManager.get?_applyObjects, found]
          split <;> exact ⟨_, rfl⟩
      exact flushed
  | create | enter | exit | reparent | queueFree | deleteQueued | addObject | removeObject
  | updateObject | aabbChanged | boxChanged | loadProbe | unloadProbe | process | asyncSave =>
      exact allowed.1.elim

/-- An object has entered, and its flush and a query around a probe wait. -/
def enteredBeside (probe : AABB) : World :=
  runAll step ([.loadProbe 50 probe, .create Uuid.nil Uuid.nil unitBox, .enter 1] ++
    List.replicate 4 (.process eagerLoader)) blank

def untilDelivered : List Event :=
  [.workerStep, .workerStep, .workerStep, .flushCallbacks]

/-- The probe is at the object, so the result holds it. -/
theorem deletion_kept_seen :
    let first := runAll step [.removeObject 101] (enteredBeside unitBox)
    (runAll step untilDelivered first).DeletesRow eagerLoader 101 := by
  intro first
  have began : Reaches step (fun _ _ => True) (make .create ∅ 2 2 counting)
      (enteredBeside unitBox) :=
    reaches_runAll (by decide +kernel) (by decide +kernel)
  have removal : (enteredBeside unitBox).step (.removeObject 101) = some first :=
    step_eq_runAll (by decide +kernel)
  have between : Reaches step Between first (runAll step untilDelivered first) :=
    reaches_runAll (by decide +kernel) (by decide +kernel)
  apply (deletion_kept_iff (by decide) began removal between eagerLoader).mpr
  decide +kernel

/-- The probe is far away, and the result unregisters the object before the frame removes it. -/
theorem deletion_forgotten :
    let called := enteredBeside ⟨⟨5000, 0, 0⟩, ⟨1, 1, 1⟩⟩
    let first := runAll step [.removeObject 101] called
    let world := runAll step untilDelivered first
    Reaches step (fun _ _ => True) (make .create ∅ 2 2 counting) called ∧
    101 ∈ called.manager.registry ∧ called.step (.removeObject 101) = some first ∧
    Reaches step Between first world ∧ 101 ∉ world.runRemovals.captureBatch.remove ∧
    ∃ worker ∈ (world.process eagerLoader).dbWorker,
      ∃ final ∈ AsyncDbWorker.drain worker.taskQueue worker.db, 101 ∈ final.objects.rows := by
  intro called first world
  refine ⟨reaches_runAll (by decide +kernel) (by decide +kernel), by decide +kernel,
    step_eq_runAll (by decide +kernel), reaches_runAll (by decide +kernel) (by decide +kernel),
    by decide +kernel, by decide +kernel⟩

end World

end GodotStream
