import GodotStream.Deletion

/-!
# Growth of the load queues

Each delivered result queues the roots without a node once more, whether they wait already
or not. Everything else takes from the queues or moves between them: a load takes one
occurrence of a uuid out and puts at most that one back, however long its scene takes.
-/

namespace GodotStream

open Storage Run

namespace World

variable {world : World}

/-- The uuids that wait, with repetitions. -/
def queued (world : World) : List Uuid :=
  world.manager.loadQueue ++ world.manager.loadedQueue

section Handlers

theorem queued_of_same {after : World}
    (loadQueue : after.manager.loadQueue = world.manager.loadQueue)
    (loadedQueue : after.manager.loadedQueue = world.manager.loadedQueue) :
    after.queued = world.queued := by
  rw [queued, queued, loadQueue, loadedQueue]

theorem queued_addChild (world : World) (id : ObjectID) :
    (world.addChild id).queued = world.queued := by
  rcases queues_addChild world id with ⟨loadQueue, loadedQueue⟩
  exact queued_of_same loadQueue loadedQueue

theorem queued_removeChild (world : World) (id : ObjectID) :
    (world.removeChild id).queued = world.queued := by
  rcases exists_removeChild world id with ⟨_, _, _, _, _, same⟩
  rw [same]
  rfl

theorem queued_exitChild {id : ObjectID} {mount : Mount} {after : World}
    (exited : world.exitChild id mount = some after) : after.queued = world.queued := by
  rcases exists_of_exitChild exited with ⟨_, _, _, rfl⟩
  exact queued_removeChild world id

theorem queued_unloadStale (world : World) (stale : Uuid) :
    (world.unloadStale stale).queued = world.queued := by
  let same (other : World) : Prop := other.queued = world.queued
  have unloaded : same (world.unloadObject stale) := by
    apply unloadObject_rule (show same world from rfl)
    · exact fun _ _ kept => kept
    · intro other objId kept _ _
      rcases exists_unloadCollected other objId with ⟨_, _, _, _, _, _, _, frame, _⟩
      rw [frame]
      exact kept
  exact unloaded

/-- A load may put back what was taken for it. -/
theorem subperm_loadObjectScene (world : World) (loader : Loader) (uuid : Uuid) :
    (world.loadObjectScene loader uuid).queued.Subperm (uuid :: world.queued) := by
  rcases queues_loadObjectScene world loader uuid with ⟨loadQueue, same | appended⟩
  · rw [queued_of_same loadQueue same]
    exact (List.sublist_cons_self uuid world.queued).subperm
  · rw [queued, loadQueue, appended, ← List.append_assoc]
    exact (List.perm_append_singleton uuid world.queued).subperm

theorem subperm_runLoads (loader : Loader) (loads : ℕ) (world : World) :
    (runLoads loader loads world).queued.Subperm world.queued := by
  induction loads generalizing world with
  | zero => exact List.Subperm.refl _
  | succ loads ih =>
      simp only [runLoads]
      split
      · exact List.Subperm.refl _
      case h_2 uuid rest waiting =>
        let popped : World := { world with manager := { world.manager with loadQueue := rest } }
        have taken : uuid :: popped.queued = world.queued := by
          simp only [popped, queued, waiting, List.cons_append]
        apply (ih (popped.loadObjectScene loader uuid)).trans
        rw [← taken]
        exact subperm_loadObjectScene popped loader uuid

/-- A frame queues nothing that did not wait before. -/
theorem subperm_process (world : World) (loader : Loader) :
    (world.process loader).queued.Subperm world.queued := by
  have removed : world.runRemovals.queued = world.queued := by
    rw [(sparesEntry_runRemovals Uuid.nil world).frame]
    rfl
  have flushed : world.runRemovals.flushPendingDbOps.queryProbes.queued = world.queued := by
    rw [queryProbes_frame, ← removed]
    apply queued_of_same
    · rw [flushPendingDbOps_frame]
    · rw [flushPendingDbOps_frame]
  have streamed (other : World) : (other.streamScenes loader).queued.Subperm other.queued := by
    let updated : World := { other with
      manager := { other.manager with
        cache := other.manager.cache.update (other.loadStatus loader) } }
    have requeued : (other.streamScenes loader).queued = (runLoads loader 4 updated).queued :=
      List.append_nil _
    rw [requeued]
    exact subperm_runLoads loader 4 updated
  simp only [process]
  split
  · exact List.Subperm.refl _
  · split
    · rw [← removed]
      exact streamed _
    · rw [← flushed]
      exact streamed _

/-- A delivered result queues registered objects, each of them once. -/
theorem exists_queued_onQueryResult (world : World) (dbObjects : Table Uuid ObjectData) :
    ∃ roots, (world.onQueryResult dbObjects).queued.Perm (world.queued ++ roots) ∧
      roots.Nodup ∧ roots ⊆ (world.onQueryResult dbObjects).manager.registry.keys := by
  let unloaded := (world.manager.toUnload dbObjects).foldl unloadStale world
  have kept : unloaded.queued = world.queued := by
    apply List.foldlRecOn (motive := fun other : World => other.queued = world.queued) _ _ rfl
    intro other same stale _
    exact (queued_unloadStale other stale).trans same
  rcases StreamManager.exists_loadQueue_applyObjects unloaded.manager dbObjects with
    ⟨roots, pushed, once, isRoot⟩
  refine ⟨roots, ?_, once, ?_⟩
  · have loaded : (unloaded.manager.applyObjects dbObjects).loadedQueue =
        unloaded.manager.loadedQueue := by
      rcases StreamManager.exists_applyObjects unloaded.manager dbObjects with ⟨_, _, same⟩
      rw [same]
    have split : (world.onQueryResult dbObjects).queued =
        unloaded.manager.loadQueue ++ roots ++ unloaded.manager.loadedQueue := by
      rw [← pushed, ← loaded]
      rfl
    rw [split, ← kept, queued, List.append_assoc, List.append_assoc]
    exact List.perm_append_comm.append_left _
  · intro uuid listed
    rcases (isRoot uuid).mp listed with ⟨data, found, _⟩
    exact Table.mem_def.mp (Table.mem_of_get? found)

/-- What is no delivery adds nothing to the queues. -/
theorem subperm_step {event : Event} {next : World} (stepped : world.step event = some next)
    (undelivered : event ≠ .flushCallbacks) : next.queued.Subperm world.queued := by
  have same (kept : next.queued = world.queued) : next.queued.Subperm world.queued := by
    rw [kept]
  cases happens_of_step stepped with
  | process loader => exact world.subperm_process loader
  | flushCallbacks => exact absurd rfl undelivered
  | removeObject uuid =>
      apply same
      simp only [StreamManager.removeObject]
      split
      · rfl
      · rfl
  | exit id => exact same (queued_exitChild stepped)
  | reparent id => exact same (queued_exitChild stepped)
  | enter id => exact same (queued_addChild (world.setMount id .orphan) id)
  | deleteQueued id => exact same (queued_removeChild world id)
  | addObject id node found =>
      apply same
      by_cases isNil : node.uuid = Uuid.nil
      · simp only [StreamManager.addObject, isNil, if_true]
      · rcases StreamManager.exists_addObject world.manager id node isNil with ⟨_, registers⟩
        rw [registers]
        rfl
  | updateObject id parentUuid node found =>
      apply same
      rcases StreamManager.updateObject_cases world.manager id { node with parentUuid } with
        ⟨_, same⟩ | ⟨_, _, _, same, _⟩
      · rw [same]
        rfl
      · rw [same]
        rfl
  | aabbChanged id aabb node found =>
      apply same
      split
      · simp only [StreamManager.onObjectAabbChanged]
        split
        · rfl
        · rfl
      · rfl
  | create | queueFree | boxChanged | loadProbe | unloadProbe | workerStep | asyncSave =>
      exact same rfl

end Handlers

end World

/-- A run in which the delivered results are counted. -/
structure Tally where
  world : World
  deliveries : ℕ
  /-- How many objects each of them left registered, added up. -/
  registered : ℕ

namespace Tally

variable {start : World} {tally : Tally}

def deliver (tally : Tally) : Callback → Tally
  | .nothing => tally
  | .onQueryResult dbObjects =>
      let world := tally.world.onQueryResult dbObjects
      { world
        deliveries := tally.deliveries + 1
        registered := tally.registered + world.manager.registry.keys.length }

def step (tally : Tally) : Event → Option Tally
  | .flushCallbacks =>
      match tally.world.dbWorker with
      | none => some tally
      | some worker =>
          some (worker.completedCallbacks.foldl deliver { tally with
            world := { tally.world with
              dbWorker := some { worker with completedCallbacks := [] } } })
  | event => (tally.world.step event).map fun world => { tally with world }

theorem step_of_undelivered (tally : Tally) {event : Event}
    (undelivered : event ≠ .flushCallbacks) :
    tally.step event = (tally.world.step event).map fun world => { tally with world } := by
  rw [step]
  exact undelivered

/-- Counting does not change the run. -/
theorem world_step (tally : Tally) (event : Event) :
    (tally.step event).map Tally.world = tally.world.step event := by
  have delivered (callbacks : List Callback) (first : Tally) :
      (callbacks.foldl deliver first).world = callbacks.foldl World.runCallback first.world := by
    induction callbacks generalizing first with
    | nil => rfl
    | cons callback rest ih =>
        rw [List.foldl_cons, List.foldl_cons, ih]
        cases callback with
        | nothing => rfl
        | onQueryResult => rfl
  by_cases delivers : event = .flushCallbacks
  · subst delivers
    cases running : tally.world.dbWorker with
    | none => simp only [step, World.step, World.flushCallbacks, running, Option.map_some]
    | some worker =>
        simp only [step, World.step, World.flushCallbacks, running, Option.map_some, delivered]
  · rw [tally.step_of_undelivered delivers, Option.map_map]
    exact Option.map_id'

theorem exists_of_reaches {final : World}
    (reached : Reaches World.step (fun _ _ => True) start final) :
    ∃ tally : Tally, tally.world = final ∧
      Reaches step (fun _ _ => True) ⟨start, 0, 0⟩ tally := by
  induction reached with
  | refl => exact ⟨⟨start, 0, 0⟩, rfl, Reaches.refl⟩
  | @tail middle final event _ _ stepped ih =>
      rcases ih with ⟨tally, rfl, counted⟩
      rw [← world_step, Option.map_eq_some_iff] at stepped
      rcases stepped with ⟨next, taken, same⟩
      exact ⟨next, same, counted.tail trivial taken⟩

/-- Each delivered result accounts for one more occurrence of every uuid, and for no more uuids
than it leaves registered. -/
structure Accounted (start : World) (tally : Tally) : Prop where
  count : ∀ uuid, tally.world.queued.count uuid ≤ start.queued.count uuid + tally.deliveries
  length : tally.world.queued.length ≤ start.queued.length + tally.registered

theorem Accounted.of_subperm (accounted : Accounted start tally) {next : World}
    (fewer : next.queued.Subperm tally.world.queued) :
    Accounted start { tally with world := next } where
  count := fun uuid => (fewer.count_le uuid).trans (accounted.count uuid)
  length := fewer.length_le.trans accounted.length

theorem Accounted.onQueryResult (accounted : Accounted start tally)
    (dbObjects : Table Uuid ObjectData) :
    Accounted start (tally.deliver (.onQueryResult dbObjects)) := by
  rcases World.exists_queued_onQueryResult tally.world dbObjects with
    ⟨roots, queued, once, registered⟩
  constructor
  · intro uuid
    have before := accounted.count uuid
    have added : roots.count uuid ≤ 1 := List.nodup_iff_count_le_one.mp once uuid
    simp only [deliver]
    rw [queued.count_eq, List.count_append]
    omega
  · have before := accounted.length
    have added : roots.length ≤
        (tally.world.onQueryResult dbObjects).manager.registry.keys.length :=
      (List.subperm_of_subset once registered).length_le
    simp only [deliver]
    rw [queued.length_eq, List.length_append]
    omega

theorem Accounted.step (accounted : Accounted start tally) {event : Event} {next : Tally}
    (stepped : tally.step event = some next) : Accounted start next := by
  by_cases delivers : event = .flushCallbacks
  · subst delivers
    simp only [Tally.step] at stepped
    split at stepped
    · rw [← Option.some.inj stepped]
      exact accounted
    case h_2 worker running =>
      rw [← Option.some.inj stepped]
      have taken : Accounted start { tally with
          world := { tally.world with
            dbWorker := some { worker with completedCallbacks := [] } } } :=
        accounted.of_subperm (List.Subperm.refl _)
      apply List.foldlRecOn (motive := Accounted start) _ _ taken
      intro other otherAccounted callback _
      cases callback with
      | nothing => exact otherAccounted
      | onQueryResult dbObjects => exact otherAccounted.onQueryResult dbObjects
  · rw [tally.step_of_undelivered delivers, Option.map_eq_some_iff] at stepped
    rcases stepped with ⟨after, taken, rfl⟩
    exact accounted.of_subperm (World.subperm_step taken delivers)

/-- From any state on, a uuid waits at most once more for each delivered result, and no more uuids
wait than the results leave registered. -/
theorem accounted_of_reaches (reached : Reaches step (fun _ _ => True) ⟨start, 0, 0⟩ tally) :
    Accounted start tally := by
  apply reached.invariant
  · exact ⟨fun uuid => Nat.le_refl _, Nat.le_refl _⟩
  · exact fun _ _ _ accounted _ stepped => accounted.step stepped

/-- A loader that takes every request and finishes none. -/
def slowLoader : Loader :=
  { accepts := fun _ => true, progress := fun _ => .inProgress }

/-- The database of a session in which one object was stored. -/
def storedDb : StreamSqliteDB :=
  match (runAll World.step World.untilDelivered (World.enteredBeside World.unitBox)).dbWorker with
  | none => .create
  | some worker => worker.db

def nextSession : World :=
  World.make storedDb ∅ 2 2 World.counting

/-- Two results, with frames before each of them. -/
def deliveredTwice : List Event :=
  .loadProbe 50 World.unitBox :: List.replicate 4 (.process slowLoader) ++
    [.workerStep, .workerStep, .flushCallbacks] ++
    List.replicate 4 (.process slowLoader) ++ [.workerStep, .flushCallbacks]

/-- The object waits twice while it is loaded, and is the only one that is registered. -/
theorem queued_twice :
    Reaches World.step (fun _ _ => True) nextSession
        (runAll World.step deliveredTwice nextSession) ∧
      (runAll World.step deliveredTwice nextSession).queued = [101, 101] ∧
      (runAll World.step deliveredTwice nextSession).manager.registry.keys = [101] :=
  ⟨reaches_runAll (by decide +kernel) (by decide +kernel), by decide +kernel, by decide +kernel⟩

theorem accounted_queued_twice :
    Accounted nextSession (runAll step deliveredTwice ⟨nextSession, 0, 0⟩) :=
  accounted_of_reaches (reaches_runAll (by decide +kernel) (by decide +kernel))

end Tally

end GodotStream
