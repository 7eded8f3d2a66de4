import GodotStream.BatchOrder
import GodotStream.Unloading

/-!
# Objects that entered are kept

A query result may be older than the registry that it is applied to. This file follows
an object through frames, rounds of the database thread and delivered results, and shows
that it is kept as long as no result is delivered that lacks a live object whose upsert
has not been handed to the database thread.
-/

namespace GodotStream

open Storage

namespace Task

/-- The task writes the uuid. -/
def Upserts (uuid : Uuid) : Task → Prop
  | .flush batch => uuid ∈ batch.upsertData.map Prod.fst
  | _ => False

/-- No statement of the task violates the foreign key. -/
def Succeeds (db : StreamSqliteDB) : Task → Prop
  | .flush batch => batch.ParentsFirst db
  | _ => True

instance (uuid : Uuid) : ∀ task : Task, Decidable (task.Upserts uuid)
  | .flush batch => inferInstanceAs (Decidable (uuid ∈ batch.upsertData.map Prod.fst))
  | .init | .query _ => isFalse id

instance (db : StreamSqliteDB) : ∀ task : Task, Decidable (task.Succeeds db)
  | .flush batch => inferInstanceAs (Decidable (batch.ParentsFirst db))
  | .init | .query _ => isTrue trivial

end Task

namespace World

/-- The uuid is a row, or is written by a task that still waits. -/
def Stored (world : World) (uuid : Uuid) : Prop :=
  ∃ worker ∈ world.dbWorker, uuid ∈ worker.db.objects.rows ∨
    ∃ task ∈ worker.taskQueue, task.Upserts uuid

/-- A node that is attached and registered carries the uuid. -/
def HasNode (world : World) (uuid : Uuid) : Prop :=
  uuid ∈ world.manager.registry ∧
    ∃ id node, world.objectDb.getInstance id = some node ∧ node.mount = .manager ∧
      node.uuid = uuid

def Kept (world : World) (uuid : Uuid) : Prop :=
  world.HasNode uuid ∨ world.Stored uuid ∨ uuid ∈ world.manager.toUpsertUuids

/-- The result has every live object that is not stored yet. -/
def Covers (world : World) : Callback → Prop
  | .nothing => True
  | .onQueryResult dbObjects => ∀ uuid ∈ world.manager.toUnload dbObjects, world.Stored uuid

/-- A run without removals, in which every statement succeeds. -/
def Additive (world : World) : Event → Prop
  | .exit _ | .reparent _ | .deleteQueued _ | .removeObject _ => False
  | .workerStep => ∀ worker ∈ world.dbWorker, ∀ task ∈ worker.taskQueue.head?,
      task.Succeeds worker.db
  | _ => True

/-- Only results that cover the live objects are delivered. -/
def Covering (world : World) : Event → Prop
  | .flushCallbacks => ∀ worker ∈ world.dbWorker, ∀ callback ∈ worker.completedCallbacks,
      world.Covers callback
  | _ => True

def Timely (world : World) (event : Event) : Prop :=
  world.Additive event ∧ world.Covering event

instance (world : World) (uuid : Uuid) : Decidable (world.Stored uuid) := by
  unfold Stored
  infer_instance

instance (world : World) : ∀ callback, Decidable (world.Covers callback)
  | .nothing => isTrue trivial
  | .onQueryResult dbObjects =>
      inferInstanceAs (Decidable (∀ uuid ∈ world.manager.toUnload dbObjects, world.Stored uuid))

instance (world : World) : ∀ event, Decidable (world.Additive event)
  | .exit _ | .reparent _ | .deleteQueued _ | .removeObject _ => isFalse id
  | .workerStep => inferInstanceAs (Decidable (∀ worker ∈ world.dbWorker,
      ∀ task ∈ worker.taskQueue.head?, task.Succeeds worker.db))
  | .create .. | .enter _ | .queueFree _ | .addObject _ | .updateObject .. | .aabbChanged ..
  | .boxChanged .. | .loadProbe .. | .unloadProbe _ | .process _ | .flushCallbacks
  | .asyncSave _ => isTrue trivial

instance (world : World) : ∀ event, Decidable (world.Covering event)
  | .flushCallbacks => inferInstanceAs (Decidable (∀ worker ∈ world.dbWorker,
      ∀ callback ∈ worker.completedCallbacks, world.Covers callback))
  | .create .. | .enter _ | .exit _ | .reparent _ | .queueFree _ | .deleteQueued _ | .addObject _
  | .removeObject _ | .updateObject .. | .aabbChanged .. | .boxChanged .. | .loadProbe ..
  | .unloadProbe _ | .process _ | .workerStep | .asyncSave _ => isTrue trivial

instance (world : World) (event : Event) : Decidable (world.Timely event) :=
  inferInstanceAs (Decidable (_ ∧ _))

/-- What every state of such a run satisfies. -/
structure Safe (world : World) : Prop where
  identified : world.Identified
  listening : world.listening = true
  noRemoval : ∀ uuid, uuid ∉ world.manager.objectRemoval
  noDelete : ∀ uuid, uuid ∉ world.manager.toRemove
  batches : ∀ worker ∈ world.dbWorker, ∀ batch, Task.flush batch ∈ worker.taskQueue →
    ∀ uuid, uuid ∉ batch.remove
  running : world.dbWorker.isSome
  pending : ∀ uuid ∈ world.manager.toUpsertUuids, uuid ∈ world.manager.registry
  results : ∀ worker ∈ world.dbWorker, ∀ dbObjects,
    Callback.onQueryResult dbObjects ∈ worker.completedCallbacks →
      ∀ uuid ∈ dbObjects, uuid ∈ worker.db.objects.rows
  nodeCache : ∀ uuid id, world.manager.cache.nodeCache.peek uuid = some id → world.Stored uuid

/-- Every live object is stored. -/
def Covered (world : World) : Prop :=
  ∀ uuid data, world.manager.registry.get? uuid = some data → data.nodeRoot ≠ 0 →
    world.Stored uuid

variable {world : World}

/-- The parts that no handler but a removal and a flush touches. -/
structure SameQueues (before after : World) : Prop where
  listening : after.listening = before.listening
  objectRemoval : after.manager.objectRemoval = before.manager.objectRemoval
  toRemove : after.manager.toRemove = before.manager.toRemove
  dbWorker : after.dbWorker = before.dbWorker

theorem Safe.of_sameQueues {after : World} (safe : world.Safe) (same : SameQueues world after)
    (identified : after.Identified)
    (pending : ∀ uuid ∈ after.manager.toUpsertUuids, uuid ∈ after.manager.registry)
    (nodeCache : ∀ uuid id, after.manager.cache.nodeCache.peek uuid = some id →
      world.Stored uuid) : after.Safe where
  identified := identified
  listening := same.listening.trans safe.listening
  noRemoval := same.objectRemoval ▸ safe.noRemoval
  noDelete := same.toRemove ▸ safe.noDelete
  batches := same.dbWorker ▸ safe.batches
  running := same.dbWorker ▸ safe.running
  pending := pending
  results := same.dbWorker ▸ safe.results
  nodeCache := by
    intro uuid id held
    rw [Stored, same.dbWorker]
    exact nodeCache uuid id held

theorem Safe.withObjectDb (safe : world.Safe) {objectDb : ObjectDB}
    (keeps : world.objectDb.Keeps objectDb) : Safe { world with objectDb } :=
  safe.of_sameQueues ⟨rfl, rfl, rfl, rfl⟩ (safe.identified.withObjectDb keeps) safe.pending
    safe.nodeCache

theorem Safe.withCache (safe : world.Safe) {cache : ObjectSceneCache}
    (sub : ∀ uuid id, cache.nodeCache.peek uuid = some id →
      world.manager.cache.nodeCache.peek uuid = some id) :
    Safe { world with manager := { world.manager with cache } } :=
  safe.of_sameQueues ⟨rfl, rfl, rfl, rfl⟩ (safe.identified.withCache sub) safe.pending
    fun uuid id held => safe.nodeCache uuid id (sub uuid id held)

/-- The registered uuids and the attached nodes only grow. -/
structure Grows (before after : World) : Prop where
  registry : ∀ uuid ∈ before.manager.registry, uuid ∈ after.manager.registry
  nodes : ∀ id node, before.objectDb.getInstance id = some node → node.mount = .manager →
    ∃ found, after.objectDb.getInstance id = some found ∧ found.mount = .manager ∧
      found.uuid = node.uuid
  upserts : ∀ uuid ∈ before.manager.toUpsertUuids, uuid ∈ after.manager.toUpsertUuids
  dbWorker : after.dbWorker = before.dbWorker

theorem Grows.trans {before middle after : World} (first : Grows before middle)
    (second : Grows middle after) : Grows before after where
  registry := fun uuid registered => second.registry uuid (first.registry uuid registered)
  nodes := by
    intro id node found child
    rcases first.nodes id node found child with ⟨other, otherFound, otherChild, same⟩
    rcases second.nodes id other otherFound otherChild with ⟨last, lastFound, lastChild, lastSame⟩
    exact ⟨last, lastFound, lastChild, lastSame.trans same⟩
  upserts := fun uuid pending => second.upserts uuid (first.upserts uuid pending)
  dbWorker := second.dbWorker.trans first.dbWorker

/-- Steps that leave the nodes, the registry and the pending upserts alone. -/
theorem Grows.of_eq {before after : World} (objectDb : after.objectDb = before.objectDb)
    (registry : after.manager.registry = before.manager.registry)
    (upserts : after.manager.toUpsertUuids = before.manager.toUpsertUuids)
    (dbWorker : after.dbWorker = before.dbWorker) : Grows before after where
  registry := by simp [registry]
  nodes := by
    intro id node found child
    exact ⟨node, by rw [objectDb, found], child, rfl⟩
  upserts := by simp [upserts]
  dbWorker := dbWorker

theorem Grows.create (world : World) (node : StreamObjectNode) :
    Grows world { world with objectDb := world.objectDb.create node } where
  registry := fun _ registered => registered
  nodes := by
    intro id other found child
    have issued := (ObjectDB.issued_of_getInstance found).2
    refine ⟨other, ?_, child, rfl⟩
    rw [ObjectDB.getInstance_create, if_neg (Nat.ne_of_lt issued), found]
  upserts := fun _ pending => pending
  dbWorker := rfl

theorem Grows.modify (world : World) {id : ObjectID}
    {change : StreamObjectNode → StreamObjectNode}
    (same : ∀ node, world.objectDb.getInstance id = some node → node.mount = .manager →
      (change node).mount = .manager ∧ (change node).uuid = node.uuid) :
    Grows world { world with objectDb := world.objectDb.modify id change } where
  registry := fun _ registered => registered
  nodes := by
    intro other node found child
    simp only [ObjectDB.getInstance_modify]
    split
    case isTrue sameId =>
      subst sameId
      rcases same node found child with ⟨stillChild, stillUuid⟩
      exact ⟨change node, by rw [found, Option.map_some], stillChild, stillUuid⟩
    case isFalse => exact ⟨node, found, child, rfl⟩
  upserts := fun _ pending => pending
  dbWorker := rfl

theorem Grows.kept {before after : World} (grows : Grows before after) {uuid : Uuid}
    (kept : before.Kept uuid) : after.Kept uuid := by
  rcases kept with ⟨registered, id, node, found, child, carries⟩ | stored | pending
  · rcases grows.nodes id node found child with ⟨other, otherFound, otherChild, same⟩
    exact Or.inl ⟨grows.registry uuid registered, id, other, otherFound, otherChild,
      same.trans carries⟩
  · rw [Stored, ← grows.dbWorker] at stored
    exact Or.inr (Or.inl stored)
  · exact Or.inr (Or.inr (grows.upserts uuid pending))

/-- A safe state that has kept what was there. -/
structure SafelyGrows (before after : World) : Prop where
  safe : after.Safe
  grows : Grows before after

theorem SafelyGrows.trans {before middle after : World} (first : SafelyGrows before middle)
    (second : SafelyGrows middle after) : SafelyGrows before after :=
  ⟨second.safe, first.grows.trans second.grows⟩

theorem SafelyGrows.refl (safe : world.Safe) : SafelyGrows world world :=
  ⟨safe, Grows.of_eq rfl rfl rfl rfl⟩

section Entering

theorem Entered.grows {after : World} {id : ObjectID} {node : StreamObjectNode}
    (entered : Entered world after id node) (found : world.objectDb.getInstance id = some node)
    (orphan : node.mount = .orphan) : Grows world after where
  registry := by
    intro uuid registered
    rcases entered.registry with ⟨parentUuid, registryEq⟩
    rw [Table.mem_iff_get?, registryEq]
    split
    · exact ⟨_, rfl⟩
    · exact Table.mem_iff_get?.mp registered
  nodes := by
    intro other otherNode otherFound child
    have distinct : other ≠ id := by
      rintro rfl
      rw [found, Option.some.injEq] at otherFound
      subst otherFound
      rw [orphan] at child
      simp at child
    refine ⟨otherNode, ?_, child, rfl⟩
    rw [entered.nodes, if_neg distinct, otherFound]
  upserts := by
    intro uuid pending
    exact (entered.upserts uuid).mpr (Or.inr pending)
  dbWorker := by rw [entered.frame]

theorem Entered.hasNode {after : World} {id : ObjectID} {node : StreamObjectNode}
    (entered : Entered world after id node) : after.HasNode (world.entersAs node) := by
  rcases entered.registry with ⟨parentUuid, registryEq⟩
  have here := entered.nodes id
  rw [if_pos rfl] at here
  exact ⟨Table.mem_iff_get?.mpr ⟨_, by rw [registryEq, if_pos rfl]⟩, id, _, here, rfl, rfl⟩

theorem Safe.addChild (safe : world.Safe) (id : ObjectID) :
    SafelyGrows world (world.addChild id) := by
  by_cases orphan : ∃ node, world.objectDb.getInstance id = some node ∧ node.mount = .orphan
  · rcases orphan with ⟨node, found, orphan⟩
    have entered := entered_addChild safe.listening found orphan
    have grows := entered.grows found orphan
    refine ⟨?_, grows⟩
    refine safe.of_sameQueues ?_ (safe.identified.addChild id) ?_ ?_
    · rw [entered.frame]
      exact ⟨rfl, rfl, rfl, rfl⟩
    · intro uuid pending
      rcases (entered.upserts uuid).mp pending with ⟨_, rfl⟩ | old
      · exact entered.hasNode.1
      · exact grows.registry uuid (safe.pending uuid old)
    · rw [entered.frame]
      exact safe.nodeCache
  · have same : world.addChild id = world := by
      apply addChild_of_mounted
      intro node found isOrphan
      exact orphan ⟨node, found, isOrphan⟩
    rw [same]
    exact SafelyGrows.refl safe

end Entering

section Loading

theorem Safe.acquired (safe : world.Safe) (uuid : Uuid) :
    SafelyGrows world (world.acquired uuid) := by
  refine ⟨safe.of_sameQueues ⟨rfl, rfl, rfl, rfl⟩ (safe.identified.acquired uuid) safe.pending ?_,
    ?_⟩
  · intro other id held
    simp only [World.acquired, (ObjectSceneCache.acquire_caches _ _ _).1,
      FixedSizedCache.peek_pop] at held
    split at held
    · simp at held
    · exact safe.nodeCache other id held
  · by_cases usable : ∃ id, world.manager.cache.HoldsUsable world.objectDb uuid id
    · rcases usable with ⟨id, usable⟩
      exact Grows.of_eq (ObjectSceneCache.acquire_of_usable usable).2 rfl rfl rfl
    · rcases ObjectSceneCache.acquire_of_not_usable (not_exists.mp usable) with
        ⟨_, _, same⟩ | ⟨scene, _, _, made⟩
      · exact Grows.of_eq same rfl rfl rfl
      · cases root : scene.root with
        | none =>
            simp only [PackedScene.instantiate, root] at made
            exact Grows.of_eq made rfl rfl rfl
        | some sceneRoot =>
            simp only [PackedScene.instantiate, root, ObjectDB.instantiate] at made
            refine (Grows.create world _).trans (Grows.of_eq made rfl rfl rfl)

theorem Safe.requestScene (safe : world.Safe) (loader : Loader) (uuid : Uuid) :
    SafelyGrows world (world.requestScene loader uuid) := by
  have asked (accepts : Bool) : Safe { world with
      manager := { world.manager with
        cache := (world.manager.cache.requestScene uuid
          (world.manager.objectScenePath uuid) accepts).2 } } :=
    safe.withCache (by simp)
  simp only [World.requestScene]
  split
  · refine ⟨(asked _).of_sameQueues ⟨rfl, rfl, rfl, rfl⟩ ?_ safe.pending (asked _).nodeCache,
      Grows.of_eq rfl rfl rfl rfl⟩
    exact ⟨safe.identified.registry, (asked _).identified.nodeCache, safe.identified.results⟩
  · exact ⟨asked _, Grows.of_eq rfl rfl rfl rfl⟩

theorem Safe.loadObjectScene (safe : world.Safe) (loader : Loader) (uuid : Uuid) :
    SafelyGrows world (world.loadObjectScene loader uuid) := by
  have acquired := safe.acquired uuid
  apply loadObjectScene_rule (SafelyGrows.refl safe) acquired
  · exact acquired.trans (acquired.safe.requestScene loader uuid)
  · exact fun id => acquired.trans (acquired.safe.addChild id)

theorem Safe.streamScenes (safe : world.Safe) (loader : Loader) :
    SafelyGrows world (world.streamScenes loader) := by
  apply streamScenes_rule (SafelyGrows.refl safe)
  · rintro other ⟨otherSafe, grows⟩
    exact ⟨otherSafe.withCache (by simp), grows.trans (Grows.of_eq rfl rfl rfl rfl)⟩
  · rintro other loadQueue loadedQueue ⟨otherSafe, grows⟩
    refine ⟨otherSafe.of_sameQueues ⟨rfl, rfl, rfl, rfl⟩ ?_ otherSafe.pending otherSafe.nodeCache,
      grows.trans (Grows.of_eq rfl rfl rfl rfl)⟩
    exact ⟨otherSafe.identified.registry, otherSafe.identified.nodeCache,
      otherSafe.identified.results⟩
  · intro other uuid advanced
    exact advanced.trans (advanced.safe.loadObjectScene loader uuid)

end Loading

/-- A safe state in which everything is still kept. -/
structure SafelyKeeps (before after : World) : Prop where
  safe : after.Safe
  kept : ∀ uuid, before.Kept uuid → after.Kept uuid

theorem SafelyKeeps.trans {before middle after : World} (first : SafelyKeeps before middle)
    (second : SafelyKeeps middle after) : SafelyKeeps before after :=
  ⟨second.safe, fun uuid kept => second.kept uuid (first.kept uuid kept)⟩

theorem SafelyKeeps.refl (safe : world.Safe) : SafelyKeeps world world :=
  ⟨safe, fun _ kept => kept⟩

theorem SafelyGrows.keeps {before after : World} (advanced : SafelyGrows before after) :
    SafelyKeeps before after :=
  ⟨advanced.safe, fun _ kept => advanced.grows.kept kept⟩

section Database

theorem stored_pushTask {task : Task} {uuid : Uuid} (stored : world.Stored uuid) :
    (world.pushTask task).Stored uuid := by
  rcases stored with ⟨worker, running, storedAt⟩
  refine ⟨worker.pushTask task, ?_, ?_⟩
  · rw [Option.mem_def] at running
    simp only [World.pushTask, running, Option.map_some, Option.mem_def]
  · rcases storedAt with row | ⟨waiting, listed, upserts⟩
    · exact Or.inl row
    · exact Or.inr ⟨waiting, List.mem_append_left _ listed, upserts⟩

theorem stored_pushTask_self {task : Task} {uuid : Uuid} (running : world.dbWorker.isSome)
    (upserts : task.Upserts uuid) : (world.pushTask task).Stored uuid := by
  rcases Option.isSome_iff_exists.mp running with ⟨worker, runningEq⟩
  refine ⟨worker.pushTask task, ?_, Or.inr ⟨task, ?_, upserts⟩⟩
  · simp only [World.pushTask, runningEq, Option.map_some, Option.mem_def]
  · exact List.mem_append_right _ (List.mem_singleton_self task)

theorem Safe.pushTask (safe : world.Safe) {task : Task}
    (clean : ∀ batch, task = .flush batch → ∀ uuid, uuid ∉ batch.remove) :
    SafelyKeeps world (world.pushTask task) := by
  refine ⟨⟨safe.identified.pushTask task, safe.listening, safe.noRemoval, safe.noDelete, ?_, ?_,
    safe.pending, ?_, ?_⟩, ?_⟩
  · intro worker running batch listed
    rcases Option.map_eq_some_iff.mp running with ⟨old, oldRunning, rfl⟩
    rcases List.mem_append.mp listed with waiting | added
    · exact safe.batches old oldRunning batch waiting
    · exact clean batch (List.mem_singleton.mp added).symm
  · rcases Option.isSome_iff_exists.mp safe.running with ⟨worker, running⟩
    simp [World.pushTask, running]
  · intro worker running dbObjects completed
    rcases Option.map_eq_some_iff.mp running with ⟨old, oldRunning, rfl⟩
    exact safe.results old oldRunning dbObjects completed
  · exact fun uuid id held => stored_pushTask (safe.nodeCache uuid id held)
  · rintro uuid (has | stored | pending)
    · exact Or.inl has
    · exact Or.inr (Or.inl (stored_pushTask stored))
    · exact Or.inr (Or.inr pending)

theorem Safe.clearPending (safe : world.Safe) :
    Safe { world with manager := world.manager.clearPending } where
  identified := ⟨safe.identified.registry, safe.identified.nodeCache, safe.identified.results⟩
  listening := safe.listening
  noRemoval := safe.noRemoval
  noDelete := fun uuid => Table.not_mem_empty uuid
  batches := safe.batches
  running := safe.running
  pending := fun uuid pending => absurd pending (Table.not_mem_empty uuid)
  results := safe.results
  nodeCache := safe.nodeCache

/-- A pending upsert is handed over by the next flush. -/
theorem Safe.flushPendingDbOps (safe : world.Safe) :
    SafelyKeeps world world.flushPendingDbOps := by
  have captured {uuid : Uuid} (pending : uuid ∈ world.manager.toUpsertUuids) :
      uuid ∈ world.captureBatch.upsertData.map Prod.fst :=
    StreamManager.mem_upsertData.mpr ⟨pending, safe.pending uuid pending⟩
  simp only [World.flushPendingDbOps]
  split
  · exact SafelyKeeps.refl safe
  · split
    · exact SafelyKeeps.refl safe
    · split
      case isTrue isEmpty =>
        refine ⟨safe.clearPending, ?_⟩
        rintro uuid (has | stored | pending)
        · exact Or.inl has
        · exact Or.inr (Or.inl stored)
        · have listed := captured pending
          simp only [Bool.and_eq_true, List.isEmpty_iff] at isEmpty
          rw [isEmpty.1.1] at listed
          simp at listed
      case isFalse =>
        have clean : ∀ batch, Task.flush world.captureBatch = .flush batch →
            ∀ uuid, uuid ∉ batch.remove := by
          intro batch same
          rw [← Task.flush.inj same]
          exact safe.noDelete
        have pushed := safe.clearPending.pushTask clean
        refine ⟨pushed.safe, ?_⟩
        rintro uuid (has | stored | pending)
        · exact pushed.kept uuid (Or.inl has)
        · exact pushed.kept uuid (Or.inr (Or.inl stored))
        · exact Or.inr (Or.inl (stored_pushTask_self safe.running (captured pending)))

theorem Safe.queryProbes (safe : world.Safe) : SafelyKeeps world world.queryProbes := by
  have counted (registeredProbes : Table ObjectID Unit) (queryProcess : ℕ) :
      SafelyGrows world { world with
        manager := { world.manager with registeredProbes, queryProcess } } := by
    refine ⟨safe.of_sameQueues ⟨rfl, rfl, rfl, rfl⟩ ?_ safe.pending safe.nodeCache,
      Grows.of_eq rfl rfl rfl rfl⟩
    exact ⟨safe.identified.registry, safe.identified.nodeCache, safe.identified.results⟩
  simp only [World.queryProbes]
  split
  · split
    · exact (counted _ _).keeps
    · apply (counted _ _).keeps.trans
      apply (counted _ _).safe.pushTask
      simp
  · exact (counted _ _).keeps

theorem Safe.runRemovals (safe : world.Safe) : SafelyGrows world world.runRemovals := by
  have nothing : world.manager.objectRemoval.keys = [] :=
    List.eq_nil_iff_forall_not_mem.mpr safe.noRemoval
  simp only [World.runRemovals, nothing, List.foldl_nil]
  refine ⟨⟨?_, safe.listening, Table.not_mem_empty, safe.noDelete, safe.batches, safe.running,
    safe.pending, safe.results, safe.nodeCache⟩, Grows.of_eq rfl rfl rfl rfl⟩
  exact ⟨safe.identified.registry, safe.identified.nodeCache, safe.identified.results⟩

theorem Safe.process (safe : world.Safe) (loader : Loader) :
    SafelyKeeps world (world.process loader) := by
  have removed := safe.runRemovals
  simp only [World.process]
  split
  · exact SafelyKeeps.refl safe
  · apply removed.keeps.trans
    split
    · exact (removed.safe.streamScenes loader).keeps
    · have flushed := removed.safe.flushPendingDbOps
      have queried := flushed.safe.queryProbes
      exact (flushed.trans queried).trans (queried.safe.streamScenes loader).keeps

/-- A flush that deletes nothing keeps every row and adds its upserts. -/
theorem mem_flushTask {batch : FlushBatch} {db : StreamSqliteDB} {state : FlushState}
    (ended : flushTask batch db = some state) (first : batch.ParentsFirst db)
    (clean : ∀ uuid, uuid ∉ batch.remove) {uuid : Uuid} :
    uuid ∈ state.db.objects.rows ↔
      uuid ∈ batch.upsertData.map Prod.fst ∨ uuid ∈ db.objects.rows := by
  have nothing : batch.remove.keys = [] := List.eq_nil_iff_forall_not_mem.mpr clean
  rw [(flushTask_keepsRows ended).present, FlushBatch.mem_prepare, FlushBatch.rowsAfter,
    ObjectTable.mem_upsertAll (FlushBatch.parentsFirst_iff.mp first), nothing]
  rfl

theorem Safe.runNext (safe : world.Safe) {worker next : AsyncDbWorker}
    (running : world.dbWorker = some worker) (ran : worker.runNext = some next)
    (succeeds : ∀ task ∈ worker.taskQueue.head?, task.Succeeds worker.db) :
    SafelyKeeps world { world with dbWorker := some next } := by
  rcases AsyncDbWorker.runNext_cases ran with ⟨task, db, callback, queued, taskRun, dbEq, callbacks⟩
  have success : task.Succeeds worker.db := succeeds task (by simp [queued])
  -- the rows after the task are the old ones and what the task writes
  have rows : ∀ uuid, uuid ∈ worker.db.objects.rows ∨ task.Upserts uuid →
      uuid ∈ next.db.objects.rows := by
    intro uuid known
    rw [dbEq]
    cases task with
    | init =>
        simp only [Task.run, Option.some.injEq, Prod.mk.injEq] at taskRun
        simpa [Task.Upserts, ← taskRun.1] using known
    | query aabbs =>
        simp only [Task.run, Option.some.injEq, Prod.mk.injEq] at taskRun
        simpa [Task.Upserts, ← taskRun.1] using known
    | flush batch =>
        rcases Option.map_eq_some_iff.mp taskRun with ⟨state, ended, same⟩
        have clean := safe.batches worker running batch (by simp [queued])
        rw [← (Prod.mk.inj same).1, mem_flushTask ended success clean]
        exact known.symm
  have stored : ∀ uuid, world.Stored uuid → Stored { world with dbWorker := some next } uuid := by
    rintro uuid ⟨other, otherRunning, storedAt⟩
    rw [running, Option.mem_def, Option.some.injEq] at otherRunning
    subst otherRunning
    refine ⟨next, rfl, ?_⟩
    rcases storedAt with row | ⟨waiting, listed, upserts⟩
    · exact Or.inl (rows uuid (Or.inl row))
    · rw [queued, List.mem_cons] at listed
      rcases listed with rfl | later
      · exact Or.inl (rows uuid (Or.inr upserts))
      · exact Or.inr ⟨waiting, later, upserts⟩
  refine ⟨⟨safe.identified.runNext running ran, safe.listening, safe.noRemoval, safe.noDelete,
    ?_, rfl, safe.pending, ?_, ?_⟩, ?_⟩
  · intro other otherRunning batch listed
    rw [Option.mem_def, Option.some.injEq] at otherRunning
    subst otherRunning
    apply safe.batches worker running batch
    rw [queued]
    exact List.mem_cons_of_mem _ listed
  · intro other otherRunning dbObjects completed uuid found
    rw [Option.mem_def, Option.some.injEq] at otherRunning
    subst otherRunning
    apply rows
    rcases AsyncDbWorker.result_of_runNext ran completed with old | ⟨_, aabbs, rfl⟩
    · exact Or.inl (safe.results worker running dbObjects old uuid found)
    · exact Or.inl (StreamSqliteDB.mem_rows_of_mem_queryObjectsAny found)
  · exact fun uuid id held => stored uuid (safe.nodeCache uuid id held)
  · rintro uuid (has | was | pending)
    · exact Or.inl has
    · exact Or.inr (Or.inl (stored uuid was))
    · exact Or.inr (Or.inr pending)

end Database

section Unloading

/-- During a delivery every live object is stored. -/
structure Delivering (before after : World) : Prop where
  keeps : SafelyKeeps before after
  covered : after.Covered
  dbWorker : after.dbWorker = before.dbWorker

theorem Safe.touchEntry (safe : world.Safe) (uuid : Uuid) :
    SafelyGrows world (world.touchEntry uuid) := by
  have registered : ∀ other ∈ world.manager.registry,
      other ∈ (world.touchEntry uuid).manager.registry := by
    intro other present
    rw [Table.mem_iff_get?] at present ⊢
    simp only [World.touchEntry, Table.get?_touch]
    split
    · exact ⟨_, rfl⟩
    · exact present
  refine ⟨safe.of_sameQueues ⟨rfl, rfl, rfl, rfl⟩ (safe.identified.touchEntry uuid) ?_
    safe.nodeCache, ⟨registered, ?_, fun _ pending => pending, rfl⟩⟩
  · exact fun other pending => registered other (safe.pending other pending)
  · exact fun id node found child => ⟨node, found, child, rfl⟩

theorem Delivering.touchEntry {before : World} (delivering : Delivering before world)
    (uuid : Uuid) : Delivering before (world.touchEntry uuid) := by
  have touched := delivering.keeps.safe.touchEntry uuid
  refine ⟨delivering.keeps.trans touched.keeps, ?_, delivering.dbWorker⟩
  intro other data found live
  simp only [World.touchEntry, Table.get?_touch] at found
  split at found
  case isTrue same =>
    subst same
    cases stored : world.manager.registry.get? other with
    | none =>
        rw [stored, Option.getD_none, Option.some.injEq] at found
        exact absurd (congrArg ObjectData.nodeRoot found.symm) live
    | some old =>
        rw [stored, Option.getD_some, Option.some.injEq] at found
        exact delivering.covered other data (found ▸ stored) live
  case isFalse => exact delivering.covered other data found live

theorem Delivering.unloadCollected {before : World} (delivering : Delivering before world)
    {objId : Uuid} (pending : objId ∈ world.manager.pendingRemoval) :
    Delivering before (world.unloadCollected objId) := by
  have safe := delivering.keeps.safe
  rcases safe.identified.unloadCollected_cases safe.listening pending with
    same | ⟨data, node, registered, found, carries, _, live, unloaded⟩
  · rw [same]
    exact delivering.touchEntry objId
  · have storedSelf := delivering.covered objId data registered live
    have registry : ∀ uuid ∈ world.manager.registry,
        uuid ∈ (world.unloadCollected objId).manager.registry := by
      intro uuid present
      rw [Table.mem_iff_get?] at present ⊢
      rw [unloaded.registry]
      split
      · exact ⟨_, by rw [registered]; rfl⟩
      · exact present
    have storedSame : ∀ uuid, world.Stored uuid → (world.unloadCollected objId).Stored uuid := by
      intro uuid stored
      rw [unloaded.frame]
      exact stored
    refine ⟨delivering.keeps.trans ⟨safe.of_sameQueues ?_
      (safe.identified.unloadCollected objId) ?_ ?_, ?_⟩, ?_, ?_⟩
    · rw [unloaded.frame]
      exact ⟨rfl, rfl, rfl, rfl⟩
    · intro uuid listed
      apply registry
      rw [unloaded.frame] at listed
      exact safe.pending uuid listed
    · intro uuid id held
      rw [unloaded.nodeCache] at held
      by_cases same : uuid = objId
      · exact same ▸ storedSelf
      · exact safe.nodeCache uuid id (FixedSizedCache.peek_put_of_ne same held)
    · rintro uuid (⟨present, id, other, otherFound, child, otherCarries⟩ | stored | listed)
      · by_cases detached : id = data.nodeRoot
        · subst detached
          rw [found, Option.some.injEq] at otherFound
          subst otherFound
          exact Or.inr (Or.inl (storedSame uuid (otherCarries ▸ carries ▸ storedSelf)))
        · rcases unloaded.kept id other detached otherFound with still | ⟨key, _, held⟩
          · exact Or.inl ⟨registry uuid present, id, other, still, child, otherCarries⟩
          · have identity := (safe.identified.nodeCache key id held).2 other otherFound
            have keyStored := safe.nodeCache key id held
            rw [← identity.1, otherCarries] at keyStored
            exact Or.inr (Or.inl (storedSame uuid keyStored))
      · exact Or.inr (Or.inl (storedSame uuid stored))
      · rw [← show (world.unloadCollected objId).manager.toUpsertUuids =
          world.manager.toUpsertUuids by rw [unloaded.frame]] at listed
        exact Or.inr (Or.inr listed)
    · intro uuid other otherFound otherLive
      apply storedSame
      rw [unloaded.registry] at otherFound
      split at otherFound
      case isTrue same => exact same ▸ storedSelf
      case isFalse => exact delivering.covered uuid other otherFound otherLive
    · rw [unloaded.frame]
      exact delivering.dbWorker

/-- An entry may be erased once its uuid is stored. -/
theorem Delivering.eraseRegistryEntry {before : World} (delivering : Delivering before world)
    {uuid : Uuid} (stored : world.Stored uuid) :
    Delivering before { world with manager := world.manager.eraseRegistryEntry uuid } := by
  have safe := delivering.keeps.safe
  refine ⟨delivering.keeps.trans ⟨safe.of_sameQueues ⟨rfl, rfl, rfl, rfl⟩ ?_ ?_ safe.nodeCache, ?_⟩,
    ?_, delivering.dbWorker⟩
  · exact safe.identified.withManager (safe.identified.registry.erase rfl) safe.identified.nodeCache
  · intro other listed
    simp only [StreamManager.eraseRegistryEntry, Table.mem_erase] at listed ⊢
    exact ⟨listed.1, safe.pending other listed.2⟩
  · intro other kept
    by_cases same : other = uuid
    · exact Or.inr (Or.inl (same ▸ stored))
    · rcases kept with ⟨present, hasNode⟩ | otherStored | listed
      · exact Or.inl ⟨Table.mem_erase.mpr ⟨same, present⟩, hasNode⟩
      · exact Or.inr (Or.inl otherStored)
      · exact Or.inr (Or.inr (Table.mem_erase.mpr ⟨same, listed⟩))
  · intro other data found live
    simp only [StreamManager.eraseRegistryEntry, Table.get?_erase] at found
    split at found
    · simp at found
    · exact delivering.covered other data found live

theorem Delivering.applyObjects {before : World} (delivering : Delivering before world)
    {dbObjects : Table Uuid ObjectData}
    (rootless : ∀ uuid data, dbObjects.get? uuid = some data → data.nodeRoot = 0) :
    Delivering before { world with manager := world.manager.applyObjects dbObjects } := by
  have safe := delivering.keeps.safe
  have registry : ∀ uuid ∈ world.manager.registry,
      uuid ∈ (world.manager.applyObjects dbObjects).registry := by
    intro uuid present
    rcases Table.mem_iff_get?.mp present with ⟨here, found⟩
    rw [Table.mem_iff_get?, StreamManager.get?_applyObjects]
    simp only [found]
    cases dbObjects.get? uuid with
    | none => exact ⟨_, rfl⟩
    | some row => exact ⟨_, rfl⟩
  have identified : Identified { world with
      manager := world.manager.applyObjects dbObjects } :=
    safe.identified.withManager (safe.identified.registry.applyObjects rootless)
      (by simpa only [StreamManager.CacheNamed, StreamManager.cache_applyObjects] using
        safe.identified.nodeCache)
  have frame := StreamManager.exists_applyObjects world.manager dbObjects
  refine ⟨delivering.keeps.trans ⟨safe.of_sameQueues ?_ identified ?_ ?_, ?_⟩, ?_, ?_⟩
  · rcases frame with ⟨childrenMap, loadQueue, same⟩
    rw [same]
    exact ⟨rfl, rfl, rfl, rfl⟩
  · intro uuid listed
    apply registry
    rcases frame with ⟨childrenMap, loadQueue, same⟩
    rw [same] at listed
    exact safe.pending uuid listed
  · simpa only [StreamManager.cache_applyObjects] using safe.nodeCache
  · rintro uuid (⟨present, hasNode⟩ | stored | listed)
    · exact Or.inl ⟨registry uuid present, hasNode⟩
    · exact Or.inr (Or.inl stored)
    · refine Or.inr (Or.inr ?_)
      rcases frame with ⟨childrenMap, loadQueue, same⟩
      rw [same]
      exact listed
  · intro uuid data found live
    simp only [StreamManager.get?_applyObjects] at found
    split at found
    · exact delivering.covered uuid data found live
    case h_2 row rowFound =>
      split at found
      · exact absurd (rootless uuid data (rowFound.trans found)) live
      case h_2 here hereFound =>
        rw [Option.some.injEq] at found
        subst found
        exact delivering.covered uuid here hereFound live
  · rcases frame with ⟨childrenMap, loadQueue, same⟩
    rw [same]
    exact delivering.dbWorker

theorem Delivering.onQueryResult {before : World} (delivering : Delivering before world)
    {dbObjects : Table Uuid ObjectData}
    (rootless : ∀ uuid data, dbObjects.get? uuid = some data → data.nodeRoot = 0) :
    Delivering before (world.onQueryResult dbObjects) := by
  apply onQueryResult_rule delivering
  · rintro other pendingRemoval otherDelivering
    have safe := otherDelivering.keeps.safe
    refine ⟨otherDelivering.keeps.trans ⟨safe.of_sameQueues ⟨rfl, rfl, rfl, rfl⟩ ?_ safe.pending
      safe.nodeCache, fun _ kept => kept⟩, otherDelivering.covered, otherDelivering.dbWorker⟩
    exact ⟨safe.identified.registry, safe.identified.nodeCache, safe.identified.results⟩
  · exact fun other objId otherDelivering pending => otherDelivering.unloadCollected pending
  · intro other uuid otherDelivering stale
    rcases StreamManager.mem_toUnload.mp stale with ⟨data, registered, _, live⟩
    have stored := delivering.covered uuid data registered live
    rw [Stored, delivering.dbWorker, ← otherDelivering.dbWorker] at stored
    exact otherDelivering.eraseRegistryEntry stored
  · exact fun other otherDelivering => otherDelivering.applyObjects rootless

/-- Covering results leave every object in place or in the database. -/
theorem Safe.flushCallbacks (safe : world.Safe)
    (covers : ∀ worker ∈ world.dbWorker, ∀ callback ∈ worker.completedCallbacks,
      world.Covers callback) : SafelyKeeps world world.flushCallbacks := by
  rcases Option.isSome_iff_exists.mp safe.running with ⟨worker, running⟩
  let taken : World :=
    { world with dbWorker := some { worker with completedCallbacks := [] } }
  have storedTaken : ∀ uuid, world.Stored uuid → taken.Stored uuid := by
    rintro uuid ⟨other, otherRunning, storedAt⟩
    rw [running, Option.mem_def, Option.some.injEq] at otherRunning
    subst otherRunning
    exact ⟨_, rfl, storedAt⟩
  have start : SafelyKeeps world taken := by
    refine ⟨⟨⟨safe.identified.registry, safe.identified.nodeCache, ?_⟩, safe.listening,
      safe.noRemoval, safe.noDelete, ?_, rfl, safe.pending, ?_, ?_⟩, ?_⟩
    · intro other otherRunning dbObjects completed
      rw [← Option.some.inj otherRunning] at completed
      simp at completed
    · intro other otherRunning
      rw [← Option.some.inj otherRunning]
      exact safe.batches worker running
    · intro other otherRunning dbObjects completed
      rw [← Option.some.inj otherRunning] at completed
      simp at completed
    · exact fun uuid id held => storedTaken uuid (safe.nodeCache uuid id held)
    · rintro uuid (has | stored | pending)
      · exact Or.inl has
      · exact Or.inr (Or.inl (storedTaken uuid stored))
      · exact Or.inr (Or.inr pending)
  by_cases delivers : ∃ dbObjects, Callback.onQueryResult dbObjects ∈ worker.completedCallbacks
  · rcases delivers with ⟨first, completed⟩
    -- a live object is in the result, which lists rows, or is covered
    have covered : taken.Covered := by
      intro uuid data registered live
      apply storedTaken
      by_cases listed : uuid ∈ first
      · exact ⟨worker, running, Or.inl (safe.results worker running first completed uuid listed)⟩
      · exact covers worker running _ completed uuid
          (StreamManager.mem_toUnload.mpr ⟨data, registered, listed, live⟩)
    have delivered : Delivering taken world.flushCallbacks := by
      have initially : Delivering taken taken := ⟨SafelyKeeps.refl start.safe, covered, rfl⟩
      simp only [World.flushCallbacks, running]
      apply List.foldlRecOn (motive := Delivering taken) _ _ initially
      intro other delivering callback listed
      cases callback with
      | nothing => exact delivering
      | onQueryResult dbObjects =>
          exact delivering.onQueryResult (safe.identified.results worker running dbObjects listed)
    exact start.trans delivered.keeps
  · apply flushCallbacks_rule (SafelyKeeps.refl safe)
    · intro other otherRunning
      rw [running, Option.some.injEq] at otherRunning
      exact otherRunning ▸ start
    · intro other otherWorker dbObjects _ otherRunning completed
      rw [running, Option.some.injEq] at otherRunning
      exact absurd ⟨dbObjects, otherRunning ▸ completed⟩ delivers

end Unloading

section Runs

theorem Safe.enter (safe : world.Safe) {id : ObjectID} {node : StreamObjectNode}
    (found : world.objectDb.getInstance id = some node) (free : node.mount ≠ .manager) :
    SafelyGrows world ((world.setMount id .orphan).addChild id) := by
  have moved : SafelyGrows world (world.setMount id .orphan) := by
    refine ⟨safe.withObjectDb (ObjectDB.keeps_modify fun _ _ _ => rfl), Grows.modify world ?_⟩
    intro other otherFound child
    rw [found, Option.some.injEq] at otherFound
    exact absurd child (otherFound ▸ free)
  exact moved.trans (moved.safe.addChild id)

theorem Safe.addObject (safe : world.Safe) {id : ObjectID} {node : StreamObjectNode}
    (found : world.objectDb.getInstance id = some node) :
    SafelyGrows world { world with manager := world.manager.addObject id node } := by
  have stepped : world.step (.addObject id) =
      some { world with manager := world.manager.addObject id node } := by
    simp only [World.step, found]
  have identified := safe.identified.step stepped
  by_cases isNil : node.uuid = Uuid.nil
  · simp only [StreamManager.addObject, isNil, if_true]
    exact SafelyGrows.refl safe
  · rcases StreamManager.exists_addObject world.manager id node isNil with
      ⟨childrenMap, registers⟩
    rw [registers] at identified ⊢
    refine ⟨safe.of_sameQueues ⟨rfl, rfl, rfl, rfl⟩ identified ?_ safe.nodeCache, ?_⟩
    · intro uuid pending
      simp only [Table.mem_insert] at pending ⊢
      exact pending.imp_right (safe.pending uuid)
    · refine ⟨?_, fun other otherNode otherFound child => ⟨otherNode, otherFound, child, rfl⟩, ?_,
        rfl⟩
      · exact fun uuid registered => Table.mem_insert.mpr (Or.inr registered)
      · exact fun uuid pending => Table.mem_insert.mpr (Or.inr pending)

theorem Safe.updateObject (safe : world.Safe) {id : ObjectID} {node : StreamObjectNode}
    {parentUuid : Uuid} (found : world.objectDb.getInstance id = some node)
    {next : World} (stepped : world.step (.updateObject id parentUuid) = some next) :
    SafelyGrows world next := by
  have identified := safe.identified.step stepped
  have changed : SafelyGrows world { world with
      objectDb := world.objectDb.modify id fun _ => { node with parentUuid } } := by
    refine ⟨safe.withObjectDb (ObjectDB.keeps_modify ?_), Grows.modify world ?_⟩
    all_goals
      intro other otherFound
      rw [found, Option.some.injEq] at otherFound
      subst otherFound
    · exact fun _ => rfl
    · exact fun child => ⟨child, rfl⟩
  simp only [World.step, found] at stepped
  split at stepped
  · simp at stepped
  · rw [Option.some.injEq] at stepped
    subst stepped
    rcases StreamManager.updateObject_cases world.manager id { node with parentUuid } with
      ⟨_, same⟩ | ⟨_, registry, childrenMap, same, registryEq⟩
    · rw [same]
      exact changed
    · rw [same] at identified ⊢
      have grown : ∀ uuid ∈ world.manager.registry, uuid ∈ registry := by
        intro uuid registered
        rw [Table.mem_iff_get?, registryEq]
        split
        · exact ⟨_, rfl⟩
        · exact Table.mem_iff_get?.mp registered
      refine ⟨changed.safe.of_sameQueues ⟨rfl, rfl, rfl, rfl⟩ identified ?_ safe.nodeCache,
        ⟨grown, changed.grows.nodes, ?_, rfl⟩⟩
      · intro uuid pending
        rcases Table.mem_insert.mp pending with rfl | old
        · rw [Table.mem_iff_get?, registryEq, if_pos rfl]
          exact ⟨_, rfl⟩
        · exact grown uuid (safe.pending uuid old)
      · exact fun uuid pending => Table.mem_insert.mpr (Or.inr pending)

theorem Safe.boxChanged (safe : world.Safe) {id : ObjectID} {node : StreamObjectNode}
    (found : world.objectDb.getInstance id = some node) (aabb : AABB) :
    SafelyGrows world { world with
      objectDb := world.objectDb.modify id fun _ => { node with aabb } } := by
  refine ⟨safe.withObjectDb (ObjectDB.keeps_modify ?_), Grows.modify world ?_⟩
  all_goals
    intro other otherFound
    rw [found, Option.some.injEq] at otherFound
    subst otherFound
  · exact fun _ => rfl
  · exact fun child => ⟨child, rfl⟩

theorem Safe.aabbChanged (safe : world.Safe) {id : ObjectID} {node : StreamObjectNode}
    {aabb : AABB} (found : world.objectDb.getInstance id = some node)
    {next : World} (stepped : world.step (.aabbChanged id aabb) = some next) :
    SafelyGrows world next := by
  have identified := safe.identified.step stepped
  have changed := safe.boxChanged found aabb
  simp only [World.step, found, Option.some.injEq] at stepped
  subst stepped
  split at identified
  case isTrue child =>
    rcases StreamManager.exists_onObjectAabbChanged world.manager { node with aabb } with
      ⟨dirtyAabb, same⟩
    rw [if_pos child]
    rw [same] at identified ⊢
    exact ⟨changed.safe.of_sameQueues ⟨rfl, rfl, rfl, rfl⟩ identified safe.pending safe.nodeCache,
      changed.grows.trans (Grows.of_eq rfl rfl rfl rfl)⟩
  case isFalse notChild =>
    rw [if_neg notChild]
    exact changed

theorem Safe.step (safe : world.Safe) {event : Event} {next : World}
    (timely : world.Timely event) (stepped : world.step event = some next) :
    SafelyKeeps world next := by
  cases happens_of_step stepped with
  | create uuid parentUuid aabb =>
      exact ⟨safe.withObjectDb (ObjectDB.keeps_create _ _),
        fun _ kept => (Grows.create world _).kept kept⟩
  | enter id node found free => exact (safe.enter found free).keeps
  | exit id => exact timely.1.elim
  | reparent id => exact timely.1.elim
  | queueFree id =>
      refine SafelyGrows.keeps
        ⟨safe.withObjectDb (ObjectDB.keeps_modify fun _ _ _ => rfl), Grows.modify world ?_⟩
      exact fun _ _ child => ⟨child, rfl⟩
  | deleteQueued id => exact timely.1.elim
  | addObject id node found => exact (safe.addObject found).keeps
  | removeObject uuid => exact timely.1.elim
  | updateObject id parentUuid node found => exact (safe.updateObject found stepped).keeps
  | aabbChanged id aabb node found => exact (safe.aabbChanged found stepped).keeps
  | boxChanged id aabb node found => exact (safe.boxChanged found aabb).keeps
  | loadProbe | unloadProbe | asyncSave =>
      have identified := safe.identified.step stepped
      exact ⟨safe.of_sameQueues ⟨rfl, rfl, rfl, rfl⟩ identified safe.pending safe.nodeCache,
        fun _ kept => kept⟩
  | process loader => exact safe.process loader
  | workerStep worker running ran ranEq =>
      exact safe.runNext running ranEq (timely.1 worker running)
  | flushCallbacks => exact safe.flushCallbacks timely.2

theorem safe_make (db : StreamSqliteDB) (files : Table ScenePath PackedScene)
    (sceneCap nodeCap : ℕ) (uuidGenerator : ℕ → {uuid : Uuid // uuid ≠ Uuid.nil}) :
    (make db files sceneCap nodeCap uuidGenerator).Safe where
  identified := identified_make db files sceneCap nodeCap uuidGenerator
  listening := rfl
  noRemoval := Table.not_mem_empty
  noDelete := Table.not_mem_empty
  batches := by
    intro worker running batch listed
    rw [← Option.some.inj running] at listed
    simp at listed
  running := rfl
  pending := fun uuid pending => absurd pending (Table.not_mem_empty uuid)
  results := by
    intro worker running dbObjects completed
    rw [← Option.some.inj running] at completed
    simp at completed
  nodeCache := by
    intro uuid id held
    simp [make, StreamManager.make, ObjectSceneCache.make] at held

theorem Safe.hasNode_of_enter (safe : world.Safe) {id : ObjectID} {next : World}
    (stepped : world.step (.enter id) = some next) :
    ∃ node, next.objectDb.getInstance id = some node ∧ next.HasNode node.uuid := by
  cases happens_of_step stepped with
  | enter id node found =>
      have here : (world.setMount id .orphan).objectDb.getInstance id =
          some { node with mount := .orphan } := by
        simp [setMount, ObjectDB.getInstance_modify, found]
      have listening : (world.setMount id .orphan).listening = true := safe.listening
      have entered := entered_addChild listening here rfl
      have nodeAt := entered.nodes id
      rw [if_pos rfl] at nodeAt
      exact ⟨_, nodeAt, entered.hasNode⟩

variable {db : StreamSqliteDB} {files : Table ScenePath PackedScene} {sceneCap nodeCap : ℕ}
  {uuidGenerator : ℕ → {uuid : Uuid // uuid ≠ Uuid.nil}}

theorem safe_of_reaches
    (reached : Run.Reaches step Timely (make db files sceneCap nodeCap uuidGenerator) world) :
    world.Safe :=
  reached.invariant (safe_make db files sceneCap nodeCap uuidGenerator)
    fun _ _ _ safe timely stepped => (safe.step timely stepped).safe

/-- A node that enters is attached and registered, and from then on its object is attached and
registered, stored, or waits for its upsert. -/
theorem kept_of_timely {middle : World}
    (reached : Run.Reaches step Timely (make db files sceneCap nodeCap uuidGenerator) middle) :
    (∀ id next, middle.step (.enter id) = some next →
      ∃ node, next.objectDb.getInstance id = some node ∧ next.HasNode node.uuid) ∧
    ∀ uuid final, middle.HasNode uuid → Run.Reaches step Timely middle final →
      final.Kept uuid := by
  refine ⟨fun id next stepped => (safe_of_reaches reached).hasNode_of_enter stepped, ?_⟩
  intro uuid final has later
  have both : final.Safe ∧ final.Kept uuid := by
    apply later.invariant ⟨safe_of_reaches reached, Or.inl has⟩
    rintro state event next ⟨safe, kept⟩ timely stepped
    have stepKeeps := safe.step timely stepped
    exact ⟨stepKeeps.safe, stepKeeps.kept uuid kept⟩
  exact both.2

/-- A new object enters next to a probe. -/
def entering : List Event :=
  [.loadProbe 50 unitBox, .create Uuid.nil Uuid.nil unitBox, .enter 1]

/-- Four frames, the three tasks that they leave, and the delivery of the result. -/
def round : List Event :=
  List.replicate 4 (.process eagerLoader) ++ List.replicate 3 .workerStep ++ [.flushCallbacks]

theorem kept_after_round : Kept (Run.runAll step (entering ++ round) blank) 101 := by
  have first : Run.Reaches step Timely blank (Run.runAll step entering blank) :=
    Run.reaches_runAll (by decide +kernel) (by decide +kernel)
  have second : Run.Reaches step Timely (Run.runAll step entering blank)
      (Run.runAll step round (Run.runAll step entering blank)) :=
    Run.reaches_runAll (by decide +kernel) (by decide +kernel)
  have here : (Run.runAll step entering blank).objectDb.getInstance 1 =
      some { uuid := 101, parentUuid := Uuid.nil, aabb := unitBox, mount := .manager } := by
    decide +kernel
  have has : HasNode (Run.runAll step entering blank) 101 :=
    ⟨by decide +kernel, 1, _, here, rfl, rfl⟩
  exact (kept_of_timely first).2 101 _ has second

/-- The query is asked before the object enters and delivered before its upsert is flushed. -/
def lateResult : List Event :=
  [.loadProbe 50 unitBox] ++ List.replicate 4 (.process eagerLoader) ++
    [.workerStep, .workerStep, .create Uuid.nil Uuid.nil unitBox, .enter 1]

theorem lost_after_lateResult :
    ∃ middle final, Run.Reaches step Additive blank middle ∧ middle.HasNode 101 ∧
      Run.Reaches step Additive middle final ∧ ¬ final.Kept 101 := by
  have first : Run.Reaches step Additive blank (Run.runAll step lateResult blank) :=
    Run.reaches_runAll (by decide +kernel) (by decide +kernel)
  have second : Run.Reaches step Additive (Run.runAll step lateResult blank)
      (Run.runAll step [.flushCallbacks] (Run.runAll step lateResult blank)) :=
    Run.reaches_runAll (by decide +kernel) (by decide +kernel)
  have here : (Run.runAll step lateResult blank).objectDb.getInstance 1 =
      some { uuid := 101, parentUuid := Uuid.nil, aabb := unitBox, mount := .manager } := by
    decide +kernel
  have gone : 101 ∉ (Run.runAll step [.flushCallbacks]
        (Run.runAll step lateResult blank)).manager.registry ∧
      ¬ Stored (Run.runAll step [.flushCallbacks] (Run.runAll step lateResult blank)) 101 ∧
      101 ∉ (Run.runAll step [.flushCallbacks]
        (Run.runAll step lateResult blank)).manager.toUpsertUuids := by
    decide +kernel
  refine ⟨_, _, first, ⟨by decide +kernel, 1, _, here, rfl, rfl⟩, second, ?_⟩
  rintro (⟨registered, _⟩ | stored | pending)
  · exact gone.1 registered
  · exact gone.2.1 stored
  · exact gone.2.2 pending

end Runs

end World

end GodotStream
