import GodotStream.Handlers

/-!
# Identities of nodes

In every state of every run the entries of the registry and of the node cache name
nodes by ids that are in use or used up, and a live node under such an id carries
the uuid of the entry. The results that wait for delivery name no nodes.
-/

namespace GodotStream

open Storage

namespace ObjectDB

/-- The id has been issued, and a live node under it carries the uuid, which is not nil. -/
def Named (objectDb : ObjectDB) (uuid : Uuid) (id : ObjectID) : Prop :=
  id < objectDb.nextId ∧
    ∀ node, objectDb.getInstance id = some node → node.uuid = uuid ∧ uuid ≠ Uuid.nil

/-- Every id that names a uuid goes on naming it. -/
def Keeps (before after : ObjectDB) : Prop :=
  ∀ uuid id, before.Named uuid id → after.Named uuid id

theorem named_zero (objectDb : ObjectDB) (uuid : Uuid) : objectDb.Named uuid 0 := by
  refine ⟨objectDb.positive, ?_⟩
  intro node found
  exact absurd (issued_of_getInstance found).1 (Nat.lt_irrefl 0)

theorem named_of_getInstance {objectDb : ObjectDB} {id : ObjectID} {node : StreamObjectNode}
    (found : objectDb.getInstance id = some node) (nonNil : node.uuid ≠ Uuid.nil) :
    objectDb.Named node.uuid id := by
  refine ⟨(issued_of_getInstance found).2, ?_⟩
  intro other otherFound
  rw [found, Option.some.injEq] at otherFound
  exact otherFound ▸ ⟨rfl, nonNil⟩

theorem Keeps.refl (objectDb : ObjectDB) : Keeps objectDb objectDb :=
  fun _ _ named => named

theorem Keeps.trans {before middle after : ObjectDB} (first : Keeps before middle)
    (second : Keeps middle after) : Keeps before after :=
  fun uuid id named => second uuid id (first uuid id named)

theorem keeps_create (objectDb : ObjectDB) (node : StreamObjectNode) :
    Keeps objectDb (objectDb.create node) := by
  rintro uuid id ⟨issued, carries⟩
  refine ⟨issued.trans (Nat.lt_succ_self _), ?_⟩
  intro other found
  rw [getInstance_create, if_neg (Nat.ne_of_lt issued)] at found
  exact carries other found

@[simp]
theorem nextId_modify (objectDb : ObjectDB) (id : ObjectID)
    (change : StreamObjectNode → StreamObjectNode) :
    (objectDb.modify id change).nextId = objectDb.nextId := by
  simp only [modify]
  split <;> rfl

/-- A change keeps the identity of a node that has one. -/
theorem keeps_modify {objectDb : ObjectDB} {id : ObjectID}
    {change : StreamObjectNode → StreamObjectNode}
    (same : ∀ node, objectDb.getInstance id = some node → node.uuid ≠ Uuid.nil →
      (change node).uuid = node.uuid) :
    Keeps objectDb (objectDb.modify id change) := by
  rintro uuid other ⟨issued, carries⟩
  refine ⟨by simpa using issued, ?_⟩
  intro node found
  rw [getInstance_modify] at found
  split at found
  case isTrue sameId =>
    subst sameId
    rcases Option.map_eq_some_iff.mp found with ⟨old, oldFound, rfl⟩
    rcases carries old oldFound with ⟨uuidEq, nonNil⟩
    rw [same old oldFound (uuidEq ▸ nonNil)]
    exact ⟨uuidEq, nonNil⟩
  case isFalse => exact carries node found

theorem keeps_free (objectDb : ObjectDB) (id : ObjectID) : Keeps objectDb (objectDb.free id) := by
  rintro uuid other ⟨issued, carries⟩
  refine ⟨issued, ?_⟩
  intro node found
  rw [getInstance_free] at found
  split at found
  · simp at found
  · exact carries node found

theorem keeps_instantiate (objectDb : ObjectDB) (scene : PackedScene) :
    Keeps objectDb (scene.instantiate objectDb).2 := by
  simp only [PackedScene.instantiate]
  split
  · exact Keeps.refl _
  · exact keeps_create _ _

theorem keeps_acquire (cache : ObjectSceneCache) (objectDb : ObjectDB) (uuid : Uuid) :
    Keeps objectDb (cache.acquire objectDb uuid).2.2 := by
  by_cases usable : ∃ id, cache.HoldsUsable objectDb uuid id
  · rcases usable with ⟨id, usable⟩
    rw [(ObjectSceneCache.acquire_of_usable usable).2]
    exact Keeps.refl _
  · rcases ObjectSceneCache.acquire_of_not_usable (not_exists.mp usable) with
      ⟨_, _, same⟩ | ⟨scene, _, _, made⟩
    · rw [same]
      exact Keeps.refl _
    · rw [made]
      exact keeps_instantiate objectDb scene

end ObjectDB

namespace StreamManager

variable {manager : StreamManager} {objectDb : ObjectDB}

/-- Every entry of the registry names its own node. -/
def RegistryNamed (manager : StreamManager) (objectDb : ObjectDB) : Prop :=
  ∀ uuid data, manager.registry.get? uuid = some data → objectDb.Named uuid data.nodeRoot

/-- Every entry of the node cache names its own node. -/
def CacheNamed (manager : StreamManager) (objectDb : ObjectDB) : Prop :=
  ∀ uuid id, manager.cache.nodeCache.peek uuid = some id → objectDb.Named uuid id

theorem RegistryNamed.insert (named : manager.RegistryNamed objectDb) {uuid : Uuid}
    {data : ObjectData} (dataNamed : objectDb.Named uuid data.nodeRoot) {other : StreamManager}
    (registryEq : other.registry = manager.registry.insert uuid data) :
    other.RegistryNamed objectDb := by
  intro key found foundEq
  rw [registryEq, Table.get?_insert] at foundEq
  split at foundEq
  case isTrue same =>
    rw [← Option.some.inj foundEq, same]
    exact dataNamed
  case isFalse => exact named key found foundEq

theorem RegistryNamed.erase (named : manager.RegistryNamed objectDb) {uuid : Uuid}
    {other : StreamManager} (registryEq : other.registry = manager.registry.erase uuid) :
    other.RegistryNamed objectDb := by
  intro key found foundEq
  rw [registryEq, Table.get?_erase] at foundEq
  split at foundEq
  · simp at foundEq
  · exact named key found foundEq

theorem RegistryNamed.addObject (named : manager.RegistryNamed objectDb) {id : ObjectID}
    {node : StreamObjectNode} (nodeNamed : node.uuid ≠ Uuid.nil → objectDb.Named node.uuid id) :
    (manager.addObject id node).RegistryNamed objectDb := by
  simp only [StreamManager.addObject]
  split
  · exact named
  case isFalse nonNil =>
    have dataNamed : objectDb.Named node.uuid
        (ObjectData.mk node.parentUuid id).nodeRoot := nodeNamed nonNil
    exact named.insert dataNamed (by simp only [registry_insertChild])

theorem RegistryNamed.setNodeRoot (named : manager.RegistryNamed objectDb) {uuid : Uuid}
    {id : ObjectID} (idNamed : objectDb.Named uuid id) :
    (manager.setNodeRoot uuid id).RegistryNamed objectDb :=
  named.insert idNamed rfl

theorem RegistryNamed.updateObject (named : manager.RegistryNamed objectDb) {id : ObjectID}
    {node : StreamObjectNode} (nodeNamed : objectDb.Named node.uuid id) :
    (manager.updateObject id node).RegistryNamed objectDb := by
  simp only [StreamManager.updateObject]
  split
  · exact named
  case h_2 data found =>
    have first : RegistryNamed { manager with
        registry := manager.registry.insert node.uuid { data with nodeRoot := id } } objectDb :=
      named.insert nodeNamed rfl
    split
    · exact first
    · have dataNamed : objectDb.Named node.uuid
          (ObjectData.mk node.parentUuid id).nodeRoot := nodeNamed
      exact first.insert dataNamed (by simp only [registry_insertChild, registry_eraseChild])

theorem RegistryNamed.mergeObject (named : manager.RegistryNamed objectDb)
    {entry : Uuid × ObjectData} (rootless : entry.2.nodeRoot = 0) :
    (manager.mergeObject entry).RegistryNamed objectDb := by
  apply named.insert _ rfl
  split
  case h_1 here found => exact named entry.1 here found
  case h_2 =>
    rw [rootless]
    exact objectDb.named_zero entry.1

theorem RegistryNamed.applyObjects (named : manager.RegistryNamed objectDb)
    {dbObjects : Table Uuid ObjectData}
    (rootless : ∀ uuid data, dbObjects.get? uuid = some data → data.nodeRoot = 0) :
    (manager.applyObjects dbObjects).RegistryNamed objectDb := by
  have merged : (dbObjects.entries.foldl StreamManager.mergeObject manager).RegistryNamed
      objectDb := by
    apply List.foldlRecOn (motive := fun other => RegistryNamed other objectDb) _ _ named
    intro other otherNamed entry listed
    exact otherNamed.mergeObject (rootless entry.1 entry.2 (Table.get?_eq_some.mpr listed))
  intro uuid data found
  apply merged uuid data
  simpa only [registry_applyObjects] using found

end StreamManager

namespace World

/-- The registry, the node cache and the waiting results name nodes as they should. -/
structure Identified (world : World) : Prop where
  registry : world.manager.RegistryNamed world.objectDb
  nodeCache : world.manager.CacheNamed world.objectDb
  results : ∀ worker ∈ world.dbWorker, ∀ dbObjects,
    Callback.onQueryResult dbObjects ∈ worker.completedCallbacks →
      ∀ uuid data, dbObjects.get? uuid = some data → data.nodeRoot = 0

variable {world : World}

/-- A step of the engine that keeps identities. -/
theorem Identified.withObjectDb (identified : world.Identified) {objectDb : ObjectDB}
    (keeps : world.objectDb.Keeps objectDb) :
    Identified { world with objectDb } where
  registry := fun uuid data found => keeps _ _ (identified.registry uuid data found)
  nodeCache := fun uuid id held => keeps _ _ (identified.nodeCache uuid id held)
  results := identified.results

/-- A step of the manager. -/
theorem Identified.withManager (identified : world.Identified) {manager : StreamManager}
    (registry : manager.RegistryNamed world.objectDb)
    (nodeCache : manager.CacheNamed world.objectDb) : Identified { world with manager } where
  registry := registry
  nodeCache := nodeCache
  results := identified.results

section Signals

theorem Identified.setMount (identified : world.Identified) (id : ObjectID) (mount : Mount) :
    (world.setMount id mount).Identified :=
  identified.withObjectDb (ObjectDB.keeps_modify fun _ _ _ => rfl)

theorem Identified.onObjectEntered (identified : world.Identified) (id : ObjectID) :
    (world.onObjectEntered id).Identified := by
  simp only [World.onObjectEntered]
  split
  · exact identified
  case h_2 node found =>
    split
    case isTrue isNil =>
      have keeps : world.objectDb.Keeps (world.objectDb.modify id fun _ =>
          { node with uuid := (world.uuidGenerator world.generated).1 }) := by
        apply ObjectDB.keeps_modify
        intro other otherFound nonNil
        rw [found, Option.some.injEq] at otherFound
        exact absurd isNil (otherFound ▸ nonNil)
      have renamed := identified.withObjectDb keeps
      refine ⟨renamed.registry.addObject ?_, ?_, identified.results⟩
      · intro nonNil
        apply ObjectDB.named_of_getInstance _ nonNil
        simp [ObjectDB.getInstance_modify, found]
      · intro uuid cached held
        apply renamed.nodeCache uuid cached
        simpa only [StreamManager.cache_addObject] using held
    case isFalse nonNil =>
      exact identified.withManager
        (identified.registry.setNodeRoot (ObjectDB.named_of_getInstance found nonNil))
        identified.nodeCache

theorem Identified.onObjectExited (identified : world.Identified) (id : ObjectID) :
    (world.onObjectExited id).Identified := by
  simp only [World.onObjectExited]
  split
  · exact identified
  · split
    · exact ⟨identified.registry, identified.nodeCache, identified.results⟩
    · refine identified.withManager ?_ ?_
      · simpa only [StreamManager.RegistryNamed, StreamManager.registry_removeObject] using
          identified.registry
      · simpa only [StreamManager.CacheNamed, StreamManager.cache_removeObject] using
          identified.nodeCache

@[simp]
theorem objectDb_onObjectExited (world : World) (id : ObjectID) :
    (world.onObjectExited id).objectDb = world.objectDb := by
  simp only [World.onObjectExited]
  split
  · rfl
  · split <;> rfl

theorem keeps_removeChild (world : World) (id : ObjectID) :
    world.objectDb.Keeps (world.removeChild id).objectDb := by
  simp only [World.removeChild]
  split
  · exact ObjectDB.Keeps.refl _
  · split
    · split
      · simp only [World.setMount, objectDb_onObjectExited]
        exact ObjectDB.keeps_modify fun _ _ _ => rfl
      · exact ObjectDB.keeps_modify fun _ _ _ => rfl
    · exact ObjectDB.Keeps.refl _

theorem Identified.addChild (identified : world.Identified) (id : ObjectID) :
    (world.addChild id).Identified := by
  simp only [World.addChild]
  split
  · exact identified
  · split
    · split
      · exact (identified.setMount id .manager).onObjectEntered id
      · exact identified.setMount id .manager
    · exact identified

theorem Identified.removeChild (identified : world.Identified) (id : ObjectID) :
    (world.removeChild id).Identified := by
  simp only [World.removeChild]
  split
  · exact identified
  · split
    · split
      · exact (identified.onObjectExited id).setMount id .orphan
      · exact identified.setMount id .orphan
    · exact identified

end Signals

section Removal

theorem Identified.removeCollected (identified : world.Identified) (id : Uuid) :
    (world.removeCollected id).Identified := by
  refine ⟨?_, ?_, ?_⟩
  · intro uuid data found
    rw [get?_registry_removeCollected] at found
    split at found
    · simp at found
    · simpa using identified.registry uuid data found
  · simpa [StreamManager.CacheNamed] using identified.nodeCache
  · simpa using identified.results

theorem Identified.runRemovals (identified : world.Identified) :
    world.runRemovals.Identified := by
  apply runRemovals_rule identified
  · intro other uuid otherIdentified _
    apply _removeObject_rule otherIdentified
    · exact fun inner id innerIdentified _ => innerIdentified.removeCollected id
    · exact fun inner childrenMap innerIdentified =>
        ⟨innerIdentified.registry, innerIdentified.nodeCache, innerIdentified.results⟩
  · exact fun other otherIdentified =>
      ⟨otherIdentified.registry, otherIdentified.nodeCache, otherIdentified.results⟩

end Removal

section Unloading

theorem Identified.release (identified : world.Identified) {uuid : Uuid} {id : ObjectID}
    (named : world.objectDb.Named uuid id) : (world.release uuid id).Identified := by
  have keeps : world.objectDb.Keeps (world.release uuid id).objectDb := by
    rcases ObjectSceneCache.objectDb_release world.manager.cache world.objectDb uuid id with
      same | ⟨_, _, _, _, freed⟩
    · simp only [World.release, same]
      exact ObjectDB.Keeps.refl _
    · simp only [World.release, freed]
      exact ObjectDB.keeps_free _ _
  refine ⟨?_, ?_, identified.results⟩
  · exact fun other data found => keeps _ _ (identified.registry other data found)
  · intro other otherId held
    simp only [World.release, ObjectSceneCache.nodeCache_release] at held
    apply keeps
    by_cases same : other = uuid
    · subst same
      rw [FixedSizedCache.peek_put_self, Option.some.injEq] at held
      exact held ▸ named
    · exact identified.nodeCache other otherId (FixedSizedCache.peek_put_of_ne same held)

theorem Identified.touchEntry (identified : world.Identified) (uuid : Uuid) :
    (world.touchEntry uuid).Identified := by
  refine identified.withManager ?_ identified.nodeCache
  intro other data found
  simp only [Table.get?_touch] at found
  split at found
  case isTrue same =>
    subst same
    rw [← Option.some.inj found]
    cases stored : world.manager.registry.get? other with
    | none => exact world.objectDb.named_zero other
    | some old => exact identified.registry other old stored
  case isFalse => exact identified.registry other data found

theorem named_nodeRootOf (identified : world.Identified) (uuid : Uuid) :
    world.objectDb.Named uuid (world.manager.nodeRootOf uuid) := by
  simp only [StreamManager.nodeRootOf]
  cases stored : world.manager.registry.get? uuid with
  | none => exact ObjectDB.named_zero _ uuid
  | some data => exact identified.registry uuid data stored

theorem Identified.unloadCollected (identified : world.Identified) (objId : Uuid) :
    (world.unloadCollected objId).Identified := by
  have touched := identified.touchEntry objId
  simp only [World.unloadCollected]
  split
  · exact touched
  · have kept := keeps_removeChild (world.touchEntry objId)
      ((world.touchEntry objId).manager.nodeRootOf objId) _ _ (named_nodeRootOf touched objId)
    have released := (touched.removeChild _).release kept
    exact released.withManager
      (released.registry.setNodeRoot (ObjectDB.named_zero _ objId)) released.nodeCache

theorem Identified.onQueryResult (identified : world.Identified)
    {dbObjects : Table Uuid ObjectData}
    (rootless : ∀ uuid data, dbObjects.get? uuid = some data → data.nodeRoot = 0) :
    (world.onQueryResult dbObjects).Identified := by
  apply onQueryResult_rule identified
  · exact fun other pendingRemoval otherIdentified =>
      ⟨otherIdentified.registry, otherIdentified.nodeCache, otherIdentified.results⟩
  · exact fun other objId otherIdentified _ => otherIdentified.unloadCollected objId
  · exact fun other uuid otherIdentified _ =>
      otherIdentified.withManager (otherIdentified.registry.erase rfl) otherIdentified.nodeCache
  · exact fun other otherIdentified =>
      otherIdentified.withManager (otherIdentified.registry.applyObjects rootless)
        (by simpa [StreamManager.CacheNamed] using otherIdentified.nodeCache)

theorem Identified.flushCallbacks (identified : world.Identified) :
    world.flushCallbacks.Identified := by
  apply flushCallbacks_rule identified
  · intro worker running
    refine ⟨identified.registry, identified.nodeCache, ?_⟩
    intro other otherRunning dbObjects completed
    rw [Option.mem_def, Option.some.injEq] at otherRunning
    subst otherRunning
    simp at completed
  · intro other worker dbObjects otherIdentified running completed
    exact otherIdentified.onQueryResult (identified.results worker running dbObjects completed)

end Unloading

section Loading

theorem Identified.withCache (identified : world.Identified) {cache : ObjectSceneCache}
    (sub : ∀ uuid id, cache.nodeCache.peek uuid = some id →
      world.manager.cache.nodeCache.peek uuid = some id) :
    Identified { world with manager := { world.manager with cache } } :=
  identified.withManager identified.registry
    (fun uuid id held => identified.nodeCache uuid id (sub uuid id held))

theorem Identified.requestScene (identified : world.Identified) (loader : Loader) (uuid : Uuid) :
    (world.requestScene loader uuid).Identified := by
  have asked (accepts : Bool) : Identified { world with
      manager := { world.manager with
        cache := (world.manager.cache.requestScene uuid
          (world.manager.objectScenePath uuid) accepts).2 } } :=
    identified.withCache (by simp)
  simp only [World.requestScene]
  split
  · exact ⟨identified.registry, (asked _).nodeCache, identified.results⟩
  · exact asked _

theorem Identified.acquired (identified : world.Identified) (uuid : Uuid) :
    (world.acquired uuid).Identified := by
  have kept := identified.withObjectDb
    (ObjectDB.keeps_acquire world.manager.cache world.objectDb uuid)
  apply kept.withCache
  intro other id held
  rw [(ObjectSceneCache.acquire_caches _ _ _).1, FixedSizedCache.peek_pop] at held
  split at held
  · simp at held
  · exact held

theorem Identified.loadObjectScene (identified : world.Identified) (loader : Loader)
    (uuid : Uuid) : (world.loadObjectScene loader uuid).Identified := by
  have acquired := identified.acquired uuid
  apply loadObjectScene_rule identified acquired
  · exact acquired.requestScene loader uuid
  · exact fun id => acquired.addChild id

theorem Identified.streamScenes (identified : world.Identified) (loader : Loader) :
    (world.streamScenes loader).Identified := by
  apply streamScenes_rule identified
  · exact fun other otherIdentified => otherIdentified.withCache (by simp)
  · exact fun other loadQueue loadedQueue otherIdentified =>
      ⟨otherIdentified.registry, otherIdentified.nodeCache, otherIdentified.results⟩
  · exact fun other uuid otherIdentified => otherIdentified.loadObjectScene loader uuid

end Loading

section Database

theorem Identified.pushTask (identified : world.Identified) (task : Task) :
    (world.pushTask task).Identified := by
  refine ⟨identified.registry, identified.nodeCache, ?_⟩
  intro worker running dbObjects completed
  simp only [World.pushTask, Option.mem_def, Option.map_eq_some_iff] at running
  rcases running with ⟨old, oldRunning, rfl⟩
  exact identified.results old oldRunning dbObjects completed

theorem Identified.flushPendingDbOps (identified : world.Identified) :
    world.flushPendingDbOps.Identified := by
  have cleared : Identified { world with manager := world.manager.clearPending } :=
    ⟨identified.registry, identified.nodeCache, identified.results⟩
  simp only [World.flushPendingDbOps]
  split
  · exact identified
  · split
    · exact identified
    · split
      · exact cleared
      · exact cleared.pushTask _

theorem Identified.queryProbes (identified : world.Identified) :
    world.queryProbes.Identified := by
  have counted (manager : StreamManager) (registryEq : manager.registry = world.manager.registry)
      (cacheEq : manager.cache = world.manager.cache) : Identified { world with manager } :=
    identified.withManager
      (by simpa only [StreamManager.RegistryNamed, registryEq] using identified.registry)
      (by simpa only [StreamManager.CacheNamed, cacheEq] using identified.nodeCache)
  simp only [World.queryProbes]
  split
  · split
    · exact counted _ rfl rfl
    · apply Identified.pushTask
      exact counted _ rfl rfl
  · exact counted _ rfl rfl

theorem Identified.process (identified : world.Identified) (loader : Loader) :
    (world.process loader).Identified := by
  have removed := identified.runRemovals
  simp only [World.process]
  split
  · exact identified
  · apply Identified.streamScenes
    split
    · exact removed
    · exact removed.flushPendingDbOps.queryProbes

theorem Identified.runNext (identified : world.Identified) {worker next : AsyncDbWorker}
    (running : world.dbWorker = some worker) (ran : worker.runNext = some next) :
    Identified { world with dbWorker := some next } := by
  refine ⟨identified.registry, identified.nodeCache, ?_⟩
  intro other otherRunning dbObjects completed
  rw [Option.mem_def, Option.some.injEq] at otherRunning
  subst otherRunning
  rcases AsyncDbWorker.result_of_runNext ran completed with old | ⟨_, aabbs, rfl⟩
  · exact identified.results worker running dbObjects old
  · intro uuid data found
    exact StreamSqliteDB.nodeRoot_of_queryObjectsAny found

end Database

section Events

theorem Identified.exitChild (identified : world.Identified) {id : ObjectID} {mount : Mount}
    {next : World} (exited : world.exitChild id mount = some next) : next.Identified := by
  rcases exists_of_exitChild exited with ⟨_, _, _, rfl⟩
  exact (identified.removeChild id).setMount id mount

theorem Identified.withNode (identified : world.Identified) {id : ObjectID}
    {old node : StreamObjectNode} (found : world.objectDb.getInstance id = some old)
    (same : node.uuid = old.uuid) :
    Identified { world with objectDb := world.objectDb.modify id fun _ => node } := by
  apply identified.withObjectDb (ObjectDB.keeps_modify _)
  intro other otherFound _
  rw [found, Option.some.injEq] at otherFound
  exact otherFound ▸ same

theorem Identified.step (identified : world.Identified) {event : Event} {next : World}
    (stepped : world.step event = some next) : next.Identified := by
  cases happens_of_step stepped with
  | create uuid parentUuid aabb => exact identified.withObjectDb (ObjectDB.keeps_create _ _)
  | enter id => exact (identified.setMount id .orphan).addChild id
  | exit id => exact identified.exitChild stepped
  | reparent id => exact identified.exitChild stepped
  | queueFree id => exact identified.withObjectDb (ObjectDB.keeps_modify fun _ _ _ => rfl)
  | deleteQueued id => exact (identified.removeChild id).withObjectDb (ObjectDB.keeps_free _ _)
  | addObject id node found =>
      exact identified.withManager
        (identified.registry.addObject (ObjectDB.named_of_getInstance found))
        (by simpa [StreamManager.CacheNamed] using identified.nodeCache)
  | removeObject uuid =>
      exact identified.withManager
        (by simpa [StreamManager.RegistryNamed] using identified.registry)
        (by simpa [StreamManager.CacheNamed] using identified.nodeCache)
  | updateObject id parentUuid node found nonNil =>
      have sameUuid : ({ node with parentUuid } : StreamObjectNode).uuid = node.uuid := rfl
      have changed := identified.withNode found sameUuid
      refine changed.withManager (changed.registry.updateObject ?_) ?_
      · have here : (world.objectDb.modify id fun _ => { node with parentUuid }).getInstance id =
            some { node with parentUuid } := by
          simp [ObjectDB.getInstance_modify, found]
        exact ObjectDB.named_of_getInstance here nonNil
      · simpa [StreamManager.CacheNamed] using changed.nodeCache
  | aabbChanged id aabb node found =>
      have sameUuid : ({ node with aabb } : StreamObjectNode).uuid = node.uuid := rfl
      have changed := identified.withNode found sameUuid
      refine changed.withManager ?_ ?_
      · split
        · simpa [StreamManager.RegistryNamed] using changed.registry
        · exact changed.registry
      · split
        · simpa [StreamManager.CacheNamed] using changed.nodeCache
        · exact changed.nodeCache
  | boxChanged id aabb node found =>
      have sameUuid : ({ node with aabb } : StreamObjectNode).uuid = node.uuid := rfl
      exact identified.withNode found sameUuid
  | process loader => exact identified.process loader
  | workerStep worker running ran ranEq => exact identified.runNext running ranEq
  | flushCallbacks => exact identified.flushCallbacks
  | loadProbe | unloadProbe | asyncSave =>
      exact ⟨identified.registry, identified.nodeCache, identified.results⟩

end Events

theorem identified_make (db : StreamSqliteDB) (files : Table ScenePath PackedScene)
    (sceneCap nodeCap : ℕ) (uuidGenerator : ℕ → {uuid : Uuid // uuid ≠ Uuid.nil}) :
    (make db files sceneCap nodeCap uuidGenerator).Identified where
  registry := by
    intro uuid data found
    simp [make, StreamManager.make] at found
  nodeCache := by
    intro uuid id held
    simp [make, StreamManager.make, ObjectSceneCache.make] at held
  results := by
    intro worker running dbObjects completed
    simp only [make, Option.mem_def, Option.some.injEq] at running
    subst running
    simp at completed

/-- The identities hold in every state of every run. -/
theorem identified_of_reaches {db : StreamSqliteDB} {files : Table ScenePath PackedScene}
    {sceneCap nodeCap : ℕ} {uuidGenerator : ℕ → {uuid : Uuid // uuid ≠ Uuid.nil}}
    {guard : World → Event → Prop}
    (reached : Run.Reaches World.step guard (make db files sceneCap nodeCap uuidGenerator) world) :
    world.Identified :=
  reached.invariant (identified_make db files sceneCap nodeCap uuidGenerator)
    fun _ _ _ identified _ stepped => identified.step stepped

end World

end GodotStream
