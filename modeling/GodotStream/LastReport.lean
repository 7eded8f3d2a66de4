import GodotStream.AncestorChunks
import GodotStream.NeverLost
import GodotStream.Steady

/-!
# The last reported box

A changed box is a mark in `dirty_aabb_`, and the next flush reads the box from the node
that the registry names. That box can change without a call, as when the sources of the
node enter the tree. This file follows one object from a report on: without a mark the
tasks that wait leave the box in its row. That holds as long as no unload drops the mark
and the registry's node still has the box of the report in the frame that flushes it.
-/

namespace GodotStream

open Storage Run

variable {uuid : Uuid} {aabb : AABB}

/-- The row of the object has the box, if there is one. -/
def StreamSqliteDB.HasBox (uuid : Uuid) (aabb : AABB) (db : StreamSqliteDB) : Prop :=
  uuid ∈ db.objects.rows → db.objects.aabbOf uuid = some (bindAabb aabb)

/-- Whether the object has the box after a task: a task without a box for it must not create its
row. -/
def Task.boxAfter (uuid : Uuid) (aabb : AABB) (now : Prop) : Task → Prop
  | .flush batch =>
      match batch.dirtyData.get? uuid with
      | some captured => captured = aabb
      | none => uuid ∉ batch.upsertData.map Prod.fst ∧ now
  | _ => now

/-- Whether the object has the box when all tasks have run. -/
def boxAfterTasks (uuid : Uuid) (aabb : AABB) (tasks : List Task) (now : Prop) : Prop :=
  tasks.foldl (Task.boxAfter uuid aabb) now

theorem boxAfterTasks_mono {tasks : List Task} {now later : Prop} (implies : now → later)
    (held : boxAfterTasks uuid aabb tasks now) : boxAfterTasks uuid aabb tasks later := by
  induction tasks generalizing now later with
  | nil => exact implies held
  | cons task rest ih =>
      apply ih _ held
      cases task with
      | init => exact implies
      | query => exact implies
      | flush batch =>
          simp only [Task.boxAfter]
          split
          · exact id
          · exact fun before => ⟨before.1, implies before.2⟩

namespace StreamSqliteDB

variable {db : StreamSqliteDB}

theorem HasBox.runDeletes (has : db.HasBox uuid aabb) (remove : List Uuid) :
    (db.runDeletes remove).HasBox uuid aabb := by
  apply List.foldlRecOn (motive := HasBox uuid aabb) remove removeObject has
  intro other otherHas removed _ present
  rcases ObjectTable.mem_delete.mp present with ⟨spared, before⟩
  rw [removeObject, ObjectTable.aabbOf_delete, if_neg spared]
  exact otherHas before

theorem HasBox.runUpserts {upsertData : List (Uuid × ObjectData)} (has : db.HasBox uuid aabb)
    (unlisted : uuid ∉ upsertData.map Prod.fst) : (db.runUpserts upsertData).HasBox uuid aabb := by
  apply List.foldlRecOn (motive := HasBox uuid aabb) upsertData _ has
  intro other otherHas entry listed present
  simp only [upsertObjectUuids, ObjectTable.aabbOf_upsert]
  rcases ObjectTable.mem_upsert.mp present with ⟨own, _⟩ | before
  · exact absurd (List.mem_map.mpr ⟨entry, listed, own.symm⟩) unlisted
  · exact otherHas before

/-- A box in the batch is in the row afterwards, and without one the row keeps its box. -/
theorem hasBox_prepare {batch : FlushBatch}
    (held : (Task.flush batch).boxAfter uuid aabb (db.HasBox uuid aabb)) :
    (db.prepare batch).HasBox uuid aabb := by
  intro present
  have before := mem_runBoxes.mp present
  simp only [Task.boxAfter] at held
  cases captured : batch.dirtyData.get? uuid with
  | some box =>
      rw [captured] at held
      have listed : (uuid, aabb) ∈ batch.dirtyData.entries :=
        Table.get?_eq_some.mp (captured.trans (congrArg some held))
      exact aabbOf_runBoxes batch.dirtyData.distinct listed before
  | none =>
      rw [captured] at held
      have unlisted : uuid ∉ batch.dirtyData.entries.map Prod.fst := Table.get?_eq_none.mp captured
      rw [prepare, aabbOf_runBoxes_of_not_mem unlisted]
      exact ((held.2.runDeletes _).runUpserts held.1) before

end StreamSqliteDB

theorem hasBox_run {task : Task} {db : StreamSqliteDB} {done : StreamSqliteDB × Callback}
    (ran : task.run db = some done) (held : task.boxAfter uuid aabb (db.HasBox uuid aabb)) :
    done.1.HasBox uuid aabb := by
  cases task with
  | init =>
      rw [← Option.some.inj ran]
      exact held
  | query aabbs =>
      rw [← Option.some.inj ran]
      exact held
  | flush batch =>
      rcases Option.map_eq_some_iff.mp ran with ⟨state, ended, rfl⟩
      have keeps := flushTask_keepsRows ended
      intro present
      rw [keeps.columns uuid]
      exact StreamSqliteDB.hasBox_prepare held ((keeps.present uuid).mp present)

namespace World

variable {world : World}

/-- `on_object_aabb_changed` or `add_object` is called for the object, whose node has this box then.
A change of an unregistered node is left out: it is not marked. In a frame the call is made for a
scene without a uuid, before the sources of its node are inside the tree; the box is any then. -/
def Calls (uuid : Uuid) (aabb : AABB) (world : World) : Event → Prop
  | .addObject called =>
      ∃ node ∈ world.objectDb.getInstance called, node.uuid = uuid ∧ node.aabb = aabb
  | .aabbChanged called box => box = aabb ∧ uuid ∈ world.manager.registry ∧
      ∃ node ∈ world.objectDb.getInstance called, node.mount = .manager ∧ node.uuid = uuid
  | .enter called => world.listening = true ∧
      ∃ node ∈ world.objectDb.getInstance called, node.uuid = Uuid.nil ∧
        (world.uuidGenerator world.generated).1 = uuid ∧ node.aabb = aabb
  | .process loader => uuid ∉ world.manager.dirtyAabb ∧
      uuid ∈ (world.process loader).manager.dirtyAabb
  | _ => False

/-- The steps that may follow: no further call for the object, and no removal of it. -/
def CallsOthers (uuid : Uuid) (world : World) : Event → Prop
  | .addObject called | .aabbChanged called _ =>
      ∀ node ∈ world.objectDb.getInstance called, node.uuid ≠ uuid
  | .process _ =>
      uuid ∈ world.manager.registry → uuid ∈ world.runRemovals.manager.registry
  | .create _ _ _ | .enter _ | .boxChanged _ _ | .loadProbe _ _ | .unloadProbe _ | .workerStep
  | .flushCallbacks | .asyncSave _ => True
  | _ => False

/-- The result does not unload the object while its mark is pending. -/
def SparesMark (uuid : Uuid) (world : World) : Callback → Prop
  | .nothing => True
  | .onQueryResult dbObjects => uuid ∈ world.manager.dirtyAabb →
      ∀ stale ∈ world.manager.toUnload dbObjects, uuid ∉ world.manager.collectDescendants stale

/-- Each result spares the mark in the state that it is applied to. -/
def AllSpareMark (uuid : Uuid) : List Callback → World → Prop
  | [], _ => True
  | callback :: rest, world =>
      world.SparesMark uuid callback ∧ AllSpareMark uuid rest (world.runCallback callback)

/-- A pending mark is not dropped, and in a frame that finds it the registry's node is inside the
tree and has the box of the call. -/
def KeepsMark (uuid : Uuid) (aabb : AABB) (world : World) : Event → Prop
  | .process _ => uuid ∈ world.manager.dirtyAabb →
      ∃ data ∈ world.manager.registry.get? uuid,
        ∃ node ∈ world.objectDb.getInstance data.nodeRoot,
          world.isInsideTree node = true ∧ node.aabb = aabb
  | .flushCallbacks => ∀ worker ∈ world.dbWorker, AllSpareMark uuid worker.completedCallbacks
      { world with dbWorker := some { worker with completedCallbacks := [] } }
  | _ => True

instance (world : World) : ∀ event, Decidable (CallsOthers uuid world event)
  | .addObject called | .aabbChanged called _ => inferInstanceAs (Decidable (
      ∀ node ∈ world.objectDb.getInstance called, node.uuid ≠ uuid))
  | .process _ => inferInstanceAs (Decidable (uuid ∈ world.manager.registry →
      uuid ∈ world.runRemovals.manager.registry))
  | .create .. | .enter _ | .boxChanged .. | .loadProbe .. | .unloadProbe _ | .workerStep
  | .flushCallbacks | .asyncSave _ => isTrue trivial
  | .exit _ | .reparent _ | .queueFree _ | .deleteQueued _ | .removeObject _
  | .updateObject .. => isFalse not_false

instance (world : World) : ∀ callback, Decidable (SparesMark uuid world callback)
  | .nothing => isTrue trivial
  | .onQueryResult dbObjects => inferInstanceAs (Decidable (uuid ∈ world.manager.dirtyAabb →
      ∀ stale ∈ world.manager.toUnload dbObjects, uuid ∉ world.manager.collectDescendants stale))

instance decidableAllSpareMark (uuid : Uuid) :
    ∀ callbacks world, Decidable (AllSpareMark uuid callbacks world)
  | [], _ => inferInstanceAs (Decidable True)
  | callback :: rest, world =>
      have := decidableAllSpareMark uuid rest (world.runCallback callback)
      inferInstanceAs (Decidable (_ ∧ _))

instance (world : World) : ∀ event, Decidable (KeepsMark uuid aabb world event)
  | .process _ => inferInstanceAs (Decidable (uuid ∈ world.manager.dirtyAabb →
      ∃ data ∈ world.manager.registry.get? uuid,
        ∃ node ∈ world.objectDb.getInstance data.nodeRoot,
          world.isInsideTree node = true ∧ node.aabb = aabb))
  | .flushCallbacks => inferInstanceAs (Decidable (∀ worker ∈ world.dbWorker,
      AllSpareMark uuid worker.completedCallbacks
        { world with dbWorker := some { worker with completedCallbacks := [] } }))
  | .create .. | .enter _ | .exit _ | .reparent _ | .queueFree _ | .deleteQueued _ | .addObject _
  | .removeObject _ | .updateObject .. | .aabbChanged .. | .boxChanged .. | .loadProbe ..
  | .unloadProbe _ | .workerStep | .asyncSave _ => isTrue trivial

/-- Without a mark the waiting tasks leave the box. A pending upsert never comes without a mark. -/
structure HoldsReport (uuid : Uuid) (aabb : AABB) (world : World) : Prop where
  identified : world.Identified
  nonNil : uuid ≠ Uuid.nil
  fresh : ∀ index, world.generated ≤ index → (world.uuidGenerator index).1 ≠ uuid
  upserts : uuid ∈ world.manager.toUpsertUuids → uuid ∈ world.manager.dirtyAabb
  settled : uuid ∉ world.manager.dirtyAabb → ∀ worker ∈ world.dbWorker,
    boxAfterTasks uuid aabb worker.taskQueue (worker.db.HasBox uuid aabb)

/-- Steps that leave the database thread, the generator and the marks of the object alone. -/
theorem HoldsReport.of_same {after : World} (holds : HoldsReport uuid aabb world)
    (identified : after.Identified) (dbWorker : after.dbWorker = world.dbWorker)
    (generated : world.generated ≤ after.generated)
    (uuidGenerator : after.uuidGenerator = world.uuidGenerator)
    (upserts : uuid ∈ after.manager.toUpsertUuids → uuid ∈ world.manager.toUpsertUuids)
    (dirty : uuid ∈ after.manager.dirtyAabb ↔ uuid ∈ world.manager.dirtyAabb) :
    HoldsReport uuid aabb after where
  identified := identified
  nonNil := holds.nonNil
  fresh := by
    intro index issued
    rw [uuidGenerator]
    exact holds.fresh index (generated.trans issued)
  upserts := fun pending => dirty.mpr (holds.upserts (upserts pending))
  settled := by
    rw [dirty, dbWorker]
    exact holds.settled

section Loading

theorem HoldsReport.setMount (holds : HoldsReport uuid aabb world) (moved : ObjectID)
    (mount : Mount) : HoldsReport uuid aabb (world.setMount moved mount) :=
  holds.of_same (holds.identified.setMount moved mount) rfl (Nat.le_refl _) rfl
    (fun pending => pending) Iff.rfl

theorem HoldsReport.onObjectEntered (holds : HoldsReport uuid aabb world) (entered : ObjectID) :
    HoldsReport uuid aabb (world.onObjectEntered entered) := by
  have identified := holds.identified.onObjectEntered entered
  simp only [World.onObjectEntered] at identified ⊢
  split at identified
  case h_1 => exact holds
  case h_2 node found =>
    split at identified
    case isTrue isNil =>
      rw [if_pos isNil]
      have distinct : uuid ≠ (world.uuidGenerator world.generated).1 :=
        fun same => holds.fresh world.generated (Nat.le_refl _) same.symm
      rcases StreamManager.exists_addObject world.manager entered
        { node with uuid := (world.uuidGenerator world.generated).1 }
        (world.uuidGenerator world.generated).2 with ⟨childrenMap, registers⟩
      refine holds.of_same identified rfl (Nat.le_succ _) rfl ?_ ?_
      · simp only [registers, Table.mem_insert]
        exact fun pending => pending.resolve_left distinct
      · simp only [registers, Table.mem_insert]
        exact or_iff_right distinct
    case isFalse nonNil =>
      rw [if_neg nonNil]
      exact holds.of_same identified rfl (Nat.le_refl _) rfl (fun pending => pending) Iff.rfl

theorem HoldsReport.addChild (holds : HoldsReport uuid aabb world) (added : ObjectID) :
    HoldsReport uuid aabb (world.addChild added) := by
  simp only [World.addChild]
  split
  · exact holds
  · split
    · split
      · exact (holds.setMount added .manager).onObjectEntered added
      · exact holds.setMount added .manager
    · exact holds

theorem HoldsReport.requestScene (holds : HoldsReport uuid aabb world) (loader : Loader)
    (requested : Uuid) : HoldsReport uuid aabb (world.requestScene loader requested) := by
  have identified := holds.identified.requestScene loader requested
  simp only [World.requestScene] at identified ⊢
  split at identified
  case isTrue accepted =>
    rw [if_pos accepted]
    exact holds.of_same identified rfl (Nat.le_refl _) rfl (fun pending => pending) Iff.rfl
  case isFalse refused =>
    rw [if_neg refused]
    exact holds.of_same identified rfl (Nat.le_refl _) rfl (fun pending => pending) Iff.rfl

theorem HoldsReport.loadObjectScene (holds : HoldsReport uuid aabb world) (loader : Loader)
    (loaded : Uuid) : HoldsReport uuid aabb (world.loadObjectScene loader loaded) := by
  have acquired : HoldsReport uuid aabb (world.acquired loaded) :=
    holds.of_same (holds.identified.acquired loaded) rfl (Nat.le_refl _) rfl
      (fun pending => pending) Iff.rfl
  apply loadObjectScene_rule holds acquired
  · exact acquired.requestScene loader loaded
  · exact fun made => acquired.addChild made

theorem HoldsReport.withManager (holds : HoldsReport uuid aabb world) {manager : StreamManager}
    (registry : manager.registry = world.manager.registry)
    (nodeCache : manager.cache.nodeCache = world.manager.cache.nodeCache)
    (upserts : manager.toUpsertUuids = world.manager.toUpsertUuids)
    (dirty : manager.dirtyAabb = world.manager.dirtyAabb) :
    HoldsReport uuid aabb { world with manager } := by
  refine holds.of_same ?_ rfl (Nat.le_refl _) rfl ?_ ?_
  · apply holds.identified.withManager
    · simpa only [StreamManager.RegistryNamed, registry] using holds.identified.registry
    · simpa only [StreamManager.CacheNamed, nodeCache] using holds.identified.nodeCache
  · rw [upserts]
    exact fun pending => pending
  · rw [dirty]

theorem HoldsReport.streamScenes (holds : HoldsReport uuid aabb world) (loader : Loader) :
    HoldsReport uuid aabb (world.streamScenes loader) := by
  apply streamScenes_rule holds
  · exact fun other otherHolds => otherHolds.withManager rfl (by simp) rfl rfl
  · exact fun other loadQueue loadedQueue otherHolds => otherHolds.withManager rfl rfl rfl rfl
  · exact fun other loaded otherHolds => otherHolds.loadObjectScene loader loaded

end Loading

section Tasks

/-- The box that a flush reads for an object: that of a node inside the tree. -/
def readBox (world : World) (uuid : Uuid) : Option AABB :=
  (world.manager.registry.get? uuid).bind fun object =>
    (world.objectDb.getInstance object.nodeRoot).bind fun node =>
      if world.isInsideTree node then some node.aabb else none

theorem dirtyData_eq (world : World) :
    world.dirtyData = world.manager.dirtyAabb.keys.foldl
      (fun data key => (world.readBox key).elim data (data.insert key)) ∅ := by
  simp only [dirtyData, readBox]
  congr 1
  funext data key
  cases world.manager.registry.get? key with
  | none => rfl
  | some object =>
      simp only [Option.bind_some]
      cases world.objectDb.getInstance object.nodeRoot with
      | none => rfl
      | some node =>
          simp only [Option.bind_some]
          split <;> rfl

theorem get?_dirtyData (world : World) (uuid : Uuid) :
    world.dirtyData.get? uuid =
      if uuid ∈ world.manager.dirtyAabb then world.readBox uuid else none := by
  have folded (keys : List Uuid) (start : Table Uuid AABB) :
      (keys.foldl (fun data key => (world.readBox key).elim data (data.insert key)) start).get?
          uuid =
        if uuid ∈ keys then (world.readBox uuid).or (start.get? uuid) else start.get? uuid := by
    induction keys generalizing start with
    | nil => simp
    | cons key rest ih =>
        rw [List.foldl_cons, ih]
        by_cases own : uuid = key
        · subst own
          cases world.readBox uuid <;> simp
        · have same : ((world.readBox key).elim start (start.insert key)).get? uuid =
              start.get? uuid := by
            cases world.readBox key with
            | none => rfl
            | some box => exact Table.get?_insert_of_ne _ own
          simp [same, own]
  rw [dirtyData_eq, folded, Table.get?_empty, Option.or_none]
  rfl

theorem HoldsReport.pushTask (holds : HoldsReport uuid aabb world) {task : Task}
    (leaves : ∀ now, now → task.boxAfter uuid aabb now) :
    HoldsReport uuid aabb (world.pushTask task) := by
  refine ⟨holds.identified.pushTask task, holds.nonNil, holds.fresh, holds.upserts, ?_⟩
  intro unmarked worker running
  rcases Option.map_eq_some_iff.mp running with ⟨old, oldRunning, rfl⟩
  simp only [AsyncDbWorker.pushTask, boxAfterTasks, List.foldl_append, List.foldl_cons,
    List.foldl_nil]
  exact leaves _ (holds.settled unmarked old oldRunning)

/-- A flush reads the box of the node that reported, or finds no mark. -/
theorem HoldsReport.flushPendingDbOps (holds : HoldsReport uuid aabb world)
    (reads : uuid ∈ world.manager.dirtyAabb → world.readBox uuid = some aabb) :
    HoldsReport uuid aabb world.flushPendingDbOps := by
  have identified := holds.identified.flushPendingDbOps
  have marked (mark : uuid ∈ world.manager.dirtyAabb) : world.dirtyData.get? uuid = some aabb := by
    rw [get?_dirtyData, if_pos mark, reads mark]
  have captured (unmarked : uuid ∉ world.manager.dirtyAabb) :
      world.dirtyData.get? uuid = none ∧ uuid ∉ world.manager.upsertData.map Prod.fst := by
    rw [get?_dirtyData, if_neg unmarked, StreamManager.mem_upsertData]
    exact ⟨rfl, fun listed => unmarked (holds.upserts listed.1)⟩
  simp only [World.flushPendingDbOps] at identified ⊢
  split at identified
  case h_1 => exact holds
  case h_2 =>
    split at identified
    case isTrue noOps =>
      rw [if_pos noOps]
      exact holds
    case isFalse someOps =>
      rw [if_neg someOps]
      split at identified
      case isTrue isEmpty =>
        rw [if_pos isEmpty]
        have unmarked : uuid ∉ world.manager.dirtyAabb := by
          intro mark
          simp only [Bool.and_eq_true, List.isEmpty_iff] at isEmpty
          have listed := Table.get?_eq_some.mp (marked mark)
          rw [show world.dirtyData.entries = [] from isEmpty.2] at listed
          simp at listed
        refine ⟨identified, holds.nonNil, holds.fresh, ?_,
          fun _ => holds.settled unmarked⟩
        exact fun pending => absurd pending (Table.not_mem_empty uuid)
      case isFalse someData =>
        rw [if_neg someData]
        refine ⟨identified, holds.nonNil, holds.fresh,
          fun pending => absurd pending (Table.not_mem_empty uuid), ?_⟩
        intro _ worker running
        rcases Option.map_eq_some_iff.mp running with ⟨old, oldRunning, rfl⟩
        simp only [AsyncDbWorker.pushTask, boxAfterTasks, List.foldl_append, List.foldl_cons,
          List.foldl_nil, Task.boxAfter, captureBatch]
        by_cases mark : uuid ∈ world.manager.dirtyAabb
        · rw [marked mark]
        · rw [(captured mark).1]
          exact ⟨(captured mark).2, holds.settled mark old oldRunning⟩

theorem HoldsReport.queryProbes (holds : HoldsReport uuid aabb world) :
    HoldsReport uuid aabb world.queryProbes := by
  have counted (registeredProbes : Table ObjectID Unit) (queryProcess : ℕ) :
      HoldsReport uuid aabb { world with
        manager := { world.manager with registeredProbes, queryProcess } } :=
    holds.withManager rfl rfl rfl rfl
  simp only [World.queryProbes]
  split
  · split
    · exact counted _ _
    · exact (counted _ _).pushTask fun _ held => held
  · exact counted _ _

theorem HoldsReport.runNext (holds : HoldsReport uuid aabb world)
    {worker next : AsyncDbWorker} (running : world.dbWorker = some worker)
    (ran : worker.runNext = some next) :
    HoldsReport uuid aabb { world with dbWorker := some next } := by
  rcases AsyncDbWorker.runNext_cases ran with ⟨task, db, callback, queued, taskRun, dbEq, _⟩
  refine ⟨holds.identified.runNext running ran, holds.nonNil, holds.fresh,
    holds.upserts, ?_⟩
  intro unmarked other otherRunning
  rw [← Option.some.inj otherRunning, dbEq]
  have before := holds.settled unmarked worker running
  rw [queued] at before
  exact boxAfterTasks_mono (hasBox_run taskRun) before

end Tasks

section Removal

theorem HoldsReport.runRemovals (holds : HoldsReport uuid aabb world)
    (stays : uuid ∈ world.manager.registry → uuid ∈ world.runRemovals.manager.registry) :
    HoldsReport uuid aabb world.runRemovals := by
  have spares := sparesEntry_runRemovals uuid world
  refine holds.of_same holds.identified.runRemovals ?_ (Nat.le_of_eq ?_) ?_ spares.upserts
    ⟨spares.dirty, (spares.entry stays).2.2⟩
  · rw [spares.frame]
  · rw [spares.frame]
  · rw [spares.frame]

theorem HoldsReport.process (holds : HoldsReport uuid aabb world)
    (stays : uuid ∈ world.manager.registry → uuid ∈ world.runRemovals.manager.registry)
    {loader : Loader} (keeps : KeepsMark uuid aabb world (.process loader)) :
    HoldsReport uuid aabb (world.process loader) := by
  have removed := holds.runRemovals stays
  have spares := sparesEntry_runRemovals uuid world
  have reads : uuid ∈ world.runRemovals.manager.dirtyAabb →
      world.runRemovals.readBox uuid = some aabb := by
    intro mark
    rcases keeps (spares.dirty mark) with ⟨data, registered, node, found, inside, hasBox⟩
    rw [Option.mem_def] at registered found
    have insideStill : world.runRemovals.isInsideTree node = true := by
      rw [spares.frame]
      exact inside
    have sameNodes : world.runRemovals.objectDb = world.objectDb := by
      rw [spares.frame]
    simp only [readBox, (spares.entry stays).1, registered, Option.bind_some, sameNodes, found,
      insideStill, if_true, hasBox]
  simp only [World.process]
  split
  · exact holds
  · apply HoldsReport.streamScenes
    split
    · exact removed
    · exact (removed.flushPendingDbOps reads).queryProbes

end Removal

section Delivery

/-- An unload of another object leaves the mark. -/
theorem mem_dirtyAabb_unloadCollected (identified : world.Identified) {objId : Uuid}
    (other : uuid ∈ world.manager.dirtyAabb → uuid ≠ objId) :
    uuid ∈ (world.unloadCollected objId).manager.dirtyAabb ↔ uuid ∈ world.manager.dirtyAabb := by
  have touched := identified.touchEntry objId
  simp only [World.unloadCollected]
  split
  · exact Iff.rfl
  case h_2 node found =>
    have carries : node.uuid = objId := ((named_nodeRootOf touched objId).2 node found).1
    change uuid ∈ ((world.touchEntry objId).removeChild
      ((world.touchEntry objId).manager.nodeRootOf objId)).manager.dirtyAabb ↔ _
    rcases dirtyAabb_removeChild found with same | erased
    · rw [same]
      exact Iff.rfl
    · rw [erased, Table.mem_erase, carries]
      exact ⟨fun mark => mark.2, fun mark => ⟨other mark, mark⟩⟩

/-- During a delivery that spares the mark. -/
structure DeliversReport (uuid : Uuid) (aabb : AABB) (before after : World) : Prop where
  holds : HoldsReport uuid aabb after
  dirty : uuid ∈ after.manager.dirtyAabb ↔ uuid ∈ before.manager.dirtyAabb

variable {before : World}

theorem DeliversReport.unloadCollected (delivers : DeliversReport uuid aabb before world)
    {objId : Uuid} (other : uuid ∈ before.manager.dirtyAabb → uuid ≠ objId) :
    DeliversReport uuid aabb before (world.unloadCollected objId) := by
  have holds := delivers.holds
  have dirty := mem_dirtyAabb_unloadCollected holds.identified
    fun mark => other (delivers.dirty.mp mark)
  rcases exists_unloadCollected world objId with ⟨_, _, _, _, _, _, _, same, _⟩
  refine ⟨holds.of_same (holds.identified.unloadCollected objId) ?_ ?_ ?_ ?_ dirty,
    dirty.trans delivers.dirty⟩
  · rw [same]
  · rw [same]
  · rw [same]
  · rw [same]
    exact fun pending => pending

theorem DeliversReport.eraseRegistryEntry (delivers : DeliversReport uuid aabb before world)
    {erased : Uuid} (other : uuid ∈ before.manager.dirtyAabb → uuid ≠ erased) :
    DeliversReport uuid aabb before
      { world with manager := world.manager.eraseRegistryEntry erased } := by
  have holds := delivers.holds
  have dirty : uuid ∈ world.manager.dirtyAabb.erase erased ↔ uuid ∈ world.manager.dirtyAabb := by
    rw [Table.mem_erase]
    exact ⟨fun mark => mark.2, fun mark => ⟨other (delivers.dirty.mp mark), mark⟩⟩
  have identified : Identified
      { world with manager := world.manager.eraseRegistryEntry erased } :=
    holds.identified.withManager (holds.identified.registry.erase rfl) holds.identified.nodeCache
  refine ⟨holds.of_same identified rfl (Nat.le_refl _) rfl ?_ dirty,
    dirty.trans delivers.dirty⟩
  exact fun pending => (Table.mem_erase.mp pending).2

theorem DeliversReport.applyObjects (delivers : DeliversReport uuid aabb before world)
    {dbObjects : Table Uuid ObjectData}
    (rootless : ∀ uuid data, dbObjects.get? uuid = some data → data.nodeRoot = 0) :
    DeliversReport uuid aabb before
      { world with manager := world.manager.applyObjects dbObjects } := by
  have holds := delivers.holds
  have identified : Identified { world with manager := world.manager.applyObjects dbObjects } :=
    holds.identified.withManager (holds.identified.registry.applyObjects rootless)
      (by simpa [StreamManager.CacheNamed] using holds.identified.nodeCache)
  rcases StreamManager.exists_applyObjects world.manager dbObjects with ⟨_, _, same⟩
  refine ⟨holds.of_same identified rfl (Nat.le_refl _) rfl ?_ ?_, ?_⟩
  · rw [same]
    exact fun pending => pending
  · rw [same]
  · rw [same]
    exact delivers.dirty

theorem HoldsReport.onQueryResult (holds : HoldsReport uuid aabb world)
    {dbObjects : Table Uuid ObjectData}
    (rootless : ∀ uuid data, dbObjects.get? uuid = some data → data.nodeRoot = 0)
    (spares : world.SparesMark uuid (.onQueryResult dbObjects)) :
    HoldsReport uuid aabb (world.onQueryResult dbObjects) := by
  -- no unload changes the children index, so each collects what it would have collected at first
  let unloading (other : World) : Prop :=
    DeliversReport uuid aabb world other ∧
      other.manager.childrenMap = world.manager.childrenMap
  have unloaded : unloading ((world.manager.toUnload dbObjects).foldl unloadStale world) := by
    have start : unloading world := ⟨⟨holds, Iff.rfl⟩, rfl⟩
    apply foldl_unloadStale_rule start
    · rintro other pendingRemoval ⟨delivers, same⟩
      exact ⟨⟨delivers.holds.withManager rfl rfl rfl rfl, delivers.dirty⟩, same⟩
    · rintro start stale other objId ⟨_, sameStart⟩ listed collected ⟨delivers, same⟩ _
      rw [StreamManager.collectDescendants_congr sameStart] at collected
      refine ⟨delivers.unloadCollected ?_, ?_⟩
      · rintro mark rfl
        exact spares mark stale listed collected
      · rcases exists_unloadCollected other objId with ⟨_, _, _, _, _, _, _, frame, _⟩
        rw [frame]
        exact same
    · rintro other stale ⟨delivers, same⟩ listed
      refine ⟨delivers.eraseRegistryEntry ?_, same⟩
      rintro mark rfl
      apply spares mark uuid listed
      exact StreamManager.mem_collectDescendants.mpr Relation.ReflTransGen.refl
  exact (unloaded.1.applyObjects rootless).holds

theorem HoldsReport.flushCallbacks (holds : HoldsReport uuid aabb world)
    (spares : KeepsMark uuid aabb world .flushCallbacks) :
    HoldsReport uuid aabb world.flushCallbacks := by
  simp only [World.flushCallbacks]
  split
  · exact holds
  case h_2 worker running =>
    have taken : HoldsReport uuid aabb
        { world with dbWorker := some { worker with completedCallbacks := [] } } := by
      refine ⟨⟨holds.identified.registry, holds.identified.nodeCache, ?_⟩, holds.nonNil,
        holds.fresh, holds.upserts, ?_⟩
      · intro other otherRunning dbObjects completed
        rw [← Option.some.inj otherRunning] at completed
        simp at completed
      · intro unmarked other otherRunning
        rw [← Option.some.inj otherRunning]
        exact holds.settled unmarked worker running
    have rootless : ∀ callback ∈ worker.completedCallbacks, ∀ dbObjects,
        callback = .onQueryResult dbObjects →
        ∀ uuid data, dbObjects.get? uuid = some data → data.nodeRoot = 0 := by
      rintro _ completed dbObjects rfl
      exact holds.identified.results worker running dbObjects completed
    have delivered (callbacks : List Callback) (other : World)
        (otherHolds : HoldsReport uuid aabb other)
        (rootless : ∀ callback ∈ callbacks, ∀ dbObjects, callback = .onQueryResult dbObjects →
          ∀ uuid data, dbObjects.get? uuid = some data → data.nodeRoot = 0)
        (allSpare : AllSpareMark uuid callbacks other) :
        HoldsReport uuid aabb (callbacks.foldl runCallback other) := by
      induction callbacks generalizing other with
      | nil => exact otherHolds
      | cons callback rest ih =>
          apply ih _ _ (fun later listed => rootless later (List.mem_cons_of_mem _ listed))
            allSpare.2
          cases callback with
          | nothing => exact otherHolds
          | onQueryResult dbObjects =>
              exact otherHolds.onQueryResult (rootless _ List.mem_cons_self dbObjects rfl)
                allSpare.1
    exact delivered worker.completedCallbacks _ taken rootless (spares worker running)

end Delivery

section Runs

theorem HoldsReport.step (holds : HoldsReport uuid aabb world) {event : Event} {next : World}
    (others : CallsOthers uuid world event) (keeps : KeepsMark uuid aabb world event)
    (stepped : world.step event = some next) : HoldsReport uuid aabb next := by
  have identified := holds.identified.step stepped
  cases happens_of_step stepped with
  | create newUuid parentUuid box =>
      exact holds.of_same identified rfl (Nat.le_refl _) rfl (fun pending => pending) Iff.rfl
  | enter entered => exact (holds.setMount entered .orphan).addChild entered
  | addObject called node found =>
      have distinct : uuid ≠ node.uuid := fun same => others node found same.symm
      by_cases isNil : node.uuid = Uuid.nil
      · simp only [StreamManager.addObject, isNil, if_true]
        exact holds
      · rcases StreamManager.exists_addObject world.manager called node isNil with
          ⟨childrenMap, registers⟩
        rw [registers] at identified ⊢
        refine holds.of_same identified rfl (Nat.le_refl _) rfl ?_ ?_
        · exact fun pending => (Table.mem_insert.mp pending).resolve_left distinct
        · exact Table.mem_insert.trans (or_iff_right distinct)
  | aabbChanged called box node found =>
      have distinct : uuid ≠ node.uuid := fun same => others node found same.symm
      refine holds.of_same identified rfl (Nat.le_refl _) rfl ?_ ?_
      · simp only [StreamManager.onObjectAabbChanged]
        split
        · split <;> exact fun pending => pending
        · exact fun pending => pending
      · simp only [StreamManager.onObjectAabbChanged]
        split
        · split
          · rw [Table.mem_insert]
            exact or_iff_right distinct
          · exact Iff.rfl
        · exact Iff.rfl
  | process loader => exact holds.process others keeps
  | workerStep worker running ran ranEq => exact holds.runNext running ranEq
  | flushCallbacks => exact holds.flushCallbacks keeps
  | boxChanged | loadProbe | unloadProbe | asyncSave =>
      exact holds.of_same identified rfl (Nat.le_refl _) rfl (fun pending => pending) Iff.rfl
  | exit | reparent | queueFree | deleteQueued | removeObject | updateObject => exact others.elim

theorem marked_addObject {manager : StreamManager} {node : StreamObjectNode} {id : ObjectID}
    (nonNil : node.uuid ≠ Uuid.nil) : node.uuid ∈ (manager.addObject id node).dirtyAabb := by
  simp only [StreamManager.addObject, nonNil, if_false]
  exact Table.mem_insert.mpr (Or.inl rfl)

theorem marked_of_calls {event : Event} {next : World} (calls : world.Calls uuid aabb event)
    (nonNil : uuid ≠ Uuid.nil) (stepped : world.step event = some next) :
    uuid ∈ next.manager.dirtyAabb := by
  cases event with
  | addObject called =>
      rcases calls with ⟨node, found, rfl, _⟩
      rw [Option.mem_def] at found
      simp only [World.step, found, Option.some.injEq] at stepped
      rw [← stepped]
      exact marked_addObject nonNil
  | aabbChanged called box =>
      rcases calls with ⟨_, registered, node, found, child, rfl⟩
      rw [Option.mem_def] at found
      simp only [World.step, found, child, if_true, StreamManager.onObjectAabbChanged, registered,
        Option.some.injEq] at stepped
      rw [← stepped]
      exact Table.mem_insert.mpr (Or.inl rfl)
  | enter called =>
      rcases calls with ⟨listening, node, found, isNil, rfl, _⟩
      rw [Option.mem_def] at found
      simp only [World.step, found] at stepped
      split at stepped
      · simp at stepped
      · have orphan : (world.setMount called .orphan).objectDb.getInstance called =
            some { node with mount := .orphan } := by
          simp [setMount, ObjectDB.getInstance_modify, found]
        have child : ((world.setMount called .orphan).setMount called .manager).objectDb.getInstance
            called = some { node with mount := .manager } := by
          simp [setMount, ObjectDB.getInstance_modify, found]
        have heard : ((world.setMount called .orphan).setMount called .manager).listening = true :=
          listening
        rw [← Option.some.inj stepped]
        simp only [addChild, orphan, if_true, heard, onObjectEntered, child, isNil]
        exact marked_addObject nonNil
  | process loader =>
      rw [← Option.some.inj stepped]
      exact calls.2
  | create | exit | reparent | queueFree | deleteQueued | removeObject | updateObject | boxChanged
  | loadProbe | unloadProbe | workerStep | flushCallbacks | asyncSave => exact calls.elim

/-- After a call for an object, in every run without a further call for it and without its removal,
in which its mark is not dropped and the registry's node has the box of the call in every frame that
finds the mark: when it has no mark and the queue is empty, its row has the box of the call. -/
theorem lastReport_wins {db : StreamSqliteDB} {files : Table ScenePath PackedScene}
    {sceneCap nodeCap : ℕ} {uuidGenerator : ℕ → {uuid : Uuid // uuid ≠ Uuid.nil}}
    {start first : World} {event : Event}
    (began : Reaches step (fun _ _ => True) (make db files sceneCap nodeCap uuidGenerator) start)
    (nonNil : uuid ≠ Uuid.nil) (calls : start.Calls uuid aabb event)
    (stepped : start.step event = some first)
    (fresh : ∀ index, first.generated ≤ index → (uuidGenerator index).1 ≠ uuid)
    (reached : Reaches step (fun state event => CallsOthers uuid state event ∧
      KeepsMark uuid aabb state event) first world) :
    ∀ worker ∈ world.dbWorker, uuid ∉ world.manager.dirtyAabb → worker.taskQueue = [] →
      worker.db.HasBox uuid aabb := by
  have marked := marked_of_calls calls nonNil stepped
  have generator : first.uuidGenerator = uuidGenerator :=
    ((steady_of_reaches began).step stepped).uuidGenerator
  have holdsFirst : HoldsReport uuid aabb first :=
    ⟨(identified_of_reaches began).step stepped, nonNil, generator ▸ fresh, fun _ => marked,
      fun unmarked => absurd marked unmarked⟩
  have holds : HoldsReport uuid aabb world :=
    reached.invariant holdsFirst fun _ _ _ before guarded next =>
      before.step guarded.1 guarded.2 next
  intro worker running unmarked drained
  have settled := holds.settled unmarked worker running
  rw [drained] at settled
  exact settled

/-- The box of an object that has moved away from the probe, and further away. -/
def farBox : AABB := ⟨⟨5000, 0, 0⟩, ⟨1, 1, 1⟩⟩

def fartherBox : AABB := ⟨⟨9000, 0, 0⟩, ⟨1, 1, 1⟩⟩

/-- A stored object moves away, and the query around the probe does not find it any more. -/
def movedAway : World :=
  runAll step ([.loadProbe 50 unitBox, .create Uuid.nil Uuid.nil unitBox, .enter 1,
    .process eagerLoader, .workerStep, .workerStep, .aabbChanged 1 farBox] ++
    List.replicate 3 (.process eagerLoader) ++ [.workerStep, .workerStep]) blank

theorem lastReport_movedAway :
    let first := runAll step [.aabbChanged 1 fartherBox] movedAway
    let final := runAll step [.process eagerLoader, .workerStep] first
    ∀ worker ∈ final.dbWorker, worker.db.HasBox 101 fartherBox := by
  intro first final
  have began : Reaches step (fun _ _ => True) (make .create ∅ 2 2 counting) movedAway :=
    reaches_runAll (by decide +kernel) (by decide +kernel)
  have found : movedAway.objectDb.getInstance 1 =
      some { uuid := 101, parentUuid := Uuid.nil, aabb := farBox, mount := .manager } := by
    decide +kernel
  have calls : movedAway.Calls 101 fartherBox (.aabbChanged 1 fartherBox) :=
    ⟨rfl, by decide +kernel, _, found, rfl, rfl⟩
  have stepped : movedAway.step (.aabbChanged 1 fartherBox) = some first :=
    step_eq_runAll (by decide +kernel)
  have fresh : ∀ index, first.generated ≤ index → (counting index).1 ≠ 101 := by
    have one : first.generated = 1 := by decide +kernel
    intro index issued
    rw [counting, if_neg (by omega)]
    decide
  have reached : Reaches step (fun state event => CallsOthers 101 state event ∧
      KeepsMark 101 fartherBox state event) first final :=
    reaches_runAll (by decide +kernel) (by decide +kernel)
  intro worker running
  apply lastReport_wins began (by decide) calls stepped fresh reached worker running
  · decide +kernel
  · exact (show ∀ other ∈ final.dbWorker, other.taskQueue = [] by decide +kernel) worker running

/-- The result that lacks the object is delivered before the flush. -/
theorem lastReport_dropped :
    let first := runAll step [.aabbChanged 1 fartherBox] movedAway
    let final := runAll step [.flushCallbacks, .process eagerLoader] first
    Reaches step (fun _ _ => True) (make .create ∅ 2 2 counting) movedAway ∧
    movedAway.Calls 101 fartherBox (.aabbChanged 1 fartherBox) ∧
    Reaches step (CallsOthers 101) first final ∧ final.manager.dirtyAabb.keys = [] ∧
    ∃ worker ∈ final.dbWorker, worker.taskQueue = [] ∧ ¬ worker.db.HasBox 101 fartherBox := by
  intro first final
  have found : movedAway.objectDb.getInstance 1 =
      some { uuid := 101, parentUuid := Uuid.nil, aabb := farBox, mount := .manager } := by
    decide +kernel
  refine ⟨reaches_runAll (by decide +kernel) (by decide +kernel),
    ⟨rfl, by decide +kernel, _, found, rfl, rfl⟩,
    reaches_runAll (by decide +kernel) (by decide +kernel), by decide +kernel, ?_⟩
  simp only [StreamSqliteDB.HasBox]
  decide +kernel

end Runs

end World

end GodotStream
