import GodotStream.Events

/-!
# Rules for the handlers

One rule for each handler that runs a loop: what the bodies of its loops preserve, the
handler preserves. With them a case lemma for a load, a description of a detached
node, and the parts of the state that a removal or an unload leaves alone.
-/

namespace GodotStream

open Storage

namespace World

variable {holds : World → Prop} {world : World}

/-- The uuid under which a node enters: its own, or a new one in place of nil. -/
def entersAs (world : World) (node : StreamObjectNode) : Uuid :=
  if node.uuid = Uuid.nil then (world.uuidGenerator world.generated).1 else node.uuid

theorem entersAs_ne_nil (world : World) (node : StreamObjectNode) :
    world.entersAs node ≠ Uuid.nil := by
  simp only [entersAs]
  split
  case isTrue => exact (world.uuidGenerator world.generated).2
  case isFalse nonNil => exact nonNil

/-- An orphan becomes a child and is registered. -/
structure Entered (before after : World) (id : ObjectID) (node : StreamObjectNode) : Prop where
  frame : after = { before with
    objectDb := after.objectDb
    generated := after.generated
    manager := { before.manager with
      registry := after.manager.registry
      childrenMap := after.manager.childrenMap
      toUpsertUuids := after.manager.toUpsertUuids
      dirtyAabb := after.manager.dirtyAabb } }
  nodes : ∀ other, after.objectDb.getInstance other =
    if other = id then some { node with mount := .manager, uuid := before.entersAs node }
    else before.objectDb.getInstance other
  registry : ∃ parentUuid, ∀ other, after.manager.registry.get? other =
    if other = before.entersAs node then some { parentUuid, nodeRoot := id }
    else before.manager.registry.get? other
  upserts : ∀ uuid, uuid ∈ after.manager.toUpsertUuids ↔
    node.uuid = Uuid.nil ∧ uuid = before.entersAs node ∨ uuid ∈ before.manager.toUpsertUuids

theorem entered_addChild (listening : world.listening = true) {id : ObjectID}
    {node : StreamObjectNode} (found : world.objectDb.getInstance id = some node)
    (orphan : node.mount = .orphan) : Entered world (world.addChild id) id node := by
  have here : (world.setMount id .manager).objectDb.getInstance id =
      some { node with mount := .manager } := by
    simp [setMount, ObjectDB.getInstance_modify, found]
  have enters : world.addChild id = (world.setMount id .manager).onObjectEntered id := by
    simp only [addChild, found, orphan, if_true]
    exact if_pos listening
  rw [enters]
  by_cases isNil : node.uuid = Uuid.nil
  · have nonNil : (world.uuidGenerator world.generated).1 ≠ Uuid.nil :=
      (world.uuidGenerator world.generated).2
    have added : (world.setMount id .manager).onObjectEntered id = { world with
        generated := world.generated + 1
        objectDb := (world.setMount id .manager).objectDb.modify id fun _ =>
          { node with mount := .manager, uuid := world.entersAs node }
        manager := world.manager.addObject id
          { node with mount := .manager, uuid := world.entersAs node } } := by
      simp only [onObjectEntered, here, isNil, if_true, entersAs]
      rfl
    rw [added]
    rcases StreamManager.exists_addObject world.manager id
      { node with mount := .manager, uuid := world.entersAs node } (world.entersAs_ne_nil node) with
      ⟨childrenMap, registers⟩
    rw [registers]
    refine ⟨rfl, ?_, ⟨node.parentUuid, fun other => Table.get?_insert _ _ _ _⟩, ?_⟩
    · intro other
      simp only [setMount, ObjectDB.getInstance_modify, found]
      split <;> simp_all
    · intro uuid
      simp [isNil]
  · have enteredAs : world.entersAs node = node.uuid := if_neg isNil
    have added : (world.setMount id .manager).onObjectEntered id = { world with
        objectDb := (world.setMount id .manager).objectDb
        manager := world.manager.setNodeRoot node.uuid id } := by
      simp only [onObjectEntered, here, isNil, if_false]
      rfl
    rw [added]
    refine ⟨rfl, ?_, ⟨((world.manager.registry.get? node.uuid).getD default).parentUuid, ?_⟩, ?_⟩
    · intro other
      simp only [setMount, ObjectDB.getInstance_modify, found, enteredAs, Option.map_some]
    · intro other
      simp only [StreamManager.setNodeRoot, Table.get?_modify, enteredAs]
    · intro uuid
      simp [isNil, StreamManager.setNodeRoot]

theorem addChild_of_mounted {id : ObjectID}
    (mounted : ∀ node, world.objectDb.getInstance id = some node → node.mount ≠ .orphan) :
    world.addChild id = world := by
  simp only [addChild]
  split
  · rfl
  case h_2 node found => exact if_neg (mounted node found)

theorem _removeObject_rule {uuid : Uuid} (initially : holds world)
    (removed : ∀ other id, holds other → id ∈ world.manager.collectDescendants uuid →
      holds (other.removeCollected id))
    (forgotten : ∀ other childrenMap, holds other →
      holds { other with manager := { other.manager with childrenMap } }) :
    holds (world._removeObject uuid) := by
  apply forgotten
  apply List.foldlRecOn (motive := holds) _ _ initially
  intro other otherHolds id collected
  exact removed other id otherHolds collected

theorem runRemovals_rule (initially : holds world)
    (removed : ∀ other uuid, holds other → uuid ∈ world.manager.objectRemoval →
      holds (other._removeObject uuid))
    (cleared : ∀ other, holds other →
      holds { other with manager := { other.manager with objectRemoval := ∅ } }) :
    holds world.runRemovals := by
  apply cleared
  apply List.foldlRecOn (motive := holds) _ _ initially
  intro other otherHolds uuid waiting
  exact removed other uuid otherHolds waiting

theorem get?_registry_removeCollected (world : World) (id uuid : Uuid) :
    (world.removeCollected id).manager.registry.get? uuid =
      if uuid = id then none else world.manager.registry.get? uuid := by
  simp only [World.removeCollected]
  split
  case h_1 absent => by_cases same : uuid = id <;> simp [same, absent]
  case h_2 =>
    simp only [StreamManager.eraseRegistryEntry, StreamManager.registry_eraseChild,
      deleteObjectScene, Table.get?_erase]
    by_cases same : uuid = id <;> simp [same]

@[simp]
theorem nodeCache_removeCollected (world : World) (id : Uuid) :
    (world.removeCollected id).manager.cache.nodeCache = world.manager.cache.nodeCache := by
  simp only [World.removeCollected]
  split
  · rfl
  · simp [StreamManager.eraseRegistryEntry, deleteObjectScene]

@[simp]
theorem objectDb_removeCollected (world : World) (id : Uuid) :
    (world.removeCollected id).objectDb = world.objectDb := by
  simp only [World.removeCollected]
  split <;> rfl

@[simp]
theorem dbWorker_removeCollected (world : World) (id : Uuid) :
    (world.removeCollected id).dbWorker = world.dbWorker := by
  simp only [World.removeCollected]
  split <;> rfl

/-- A removal changes only these parts, and what it leaves of the object's entry is unchanged. -/
structure SparesEntry (uuid : Uuid) (before after : World) : Prop where
  frame : after = { before with
    files := after.files
    manager := { before.manager with
      cache := after.manager.cache
      registry := after.manager.registry
      childrenMap := after.manager.childrenMap
      objectRemoval := after.manager.objectRemoval
      toUpsertUuids := after.manager.toUpsertUuids
      toRemove := after.manager.toRemove
      dirtyAabb := after.manager.dirtyAabb } }
  registered : uuid ∈ after.manager.registry → uuid ∈ before.manager.registry
  upserts : uuid ∈ after.manager.toUpsertUuids → uuid ∈ before.manager.toUpsertUuids
  dirty : uuid ∈ after.manager.dirtyAabb → uuid ∈ before.manager.dirtyAabb
  entry : (uuid ∈ before.manager.registry → uuid ∈ after.manager.registry) →
    after.manager.registry.get? uuid = before.manager.registry.get? uuid ∧
    (uuid ∈ before.manager.toUpsertUuids → uuid ∈ after.manager.toUpsertUuids) ∧
    (uuid ∈ before.manager.dirtyAabb → uuid ∈ after.manager.dirtyAabb)

theorem SparesEntry.refl (uuid : Uuid) (world : World) : SparesEntry uuid world world :=
  ⟨rfl, id, id, id, fun _ => ⟨rfl, id, id⟩⟩

theorem SparesEntry.trans {uuid : Uuid} {before middle after : World}
    (first : SparesEntry uuid before middle) (second : SparesEntry uuid middle after) :
    SparesEntry uuid before after := by
  refine ⟨?_, fun present => first.registered (second.registered present),
    fun pending => first.upserts (second.upserts pending),
    fun mark => first.dirty (second.dirty mark), ?_⟩
  · rw [second.frame, first.frame]
  · intro stays
    have entered : uuid ∈ before.manager.registry → uuid ∈ middle.manager.registry :=
      fun present => second.registered (stays present)
    have kept : uuid ∈ middle.manager.registry → uuid ∈ after.manager.registry :=
      fun present => stays (first.registered present)
    rcases first.entry entered with ⟨sameFirst, upsertsFirst, dirtyFirst⟩
    rcases second.entry kept with ⟨sameSecond, upsertsSecond, dirtySecond⟩
    exact ⟨sameSecond.trans sameFirst, fun pending => upsertsSecond (upsertsFirst pending),
      fun mark => dirtySecond (dirtyFirst mark)⟩

theorem sparesEntry_removeCollected (uuid : Uuid) (world : World) (id : Uuid) :
    SparesEntry uuid world (world.removeCollected id) := by
  cases registered : world.manager.registry.get? id with
  | none =>
      simp only [removeCollected, registered]
      exact SparesEntry.refl uuid world
  | some data =>
      rcases StreamManager.exists_eraseChild
        { world.manager with cache := (world.manager.cache.removeScene id).removeScene id }
        data.parentUuid id with ⟨childrenMap, erased⟩
      simp only [removeCollected, registered, deleteObjectScene, erased,
        StreamManager.eraseRegistryEntry]
      refine ⟨rfl, ?_, fun pending => (Table.mem_erase.mp pending).2,
        fun mark => (Table.mem_erase.mp mark).2, ?_⟩
      · exact fun present => (Table.mem_erase.mp (Table.mem_erase.mp present).2).2
      · intro stays
        have distinct : uuid ≠ id := by
          rintro rfl
          exact (Table.mem_erase.mp (stays (Table.mem_of_get? registered))).1 rfl
        refine ⟨?_, fun pending => Table.mem_erase.mpr ⟨distinct, pending⟩,
          fun mark => Table.mem_erase.mpr ⟨distinct, mark⟩⟩
        rw [Table.get?_erase_of_ne distinct, Table.get?_erase_of_ne distinct]

theorem sparesEntry_runRemovals (uuid : Uuid) (world : World) :
    SparesEntry uuid world world.runRemovals := by
  apply runRemovals_rule (SparesEntry.refl uuid world)
  · intro other removed spares _
    apply _removeObject_rule spares
    · exact fun inner id innerSpares _ =>
        innerSpares.trans (sparesEntry_removeCollected uuid inner id)
    · intro inner childrenMap innerSpares
      refine innerSpares.trans ⟨rfl, id, id, id, fun _ => ⟨rfl, id, id⟩⟩
  · intro other spares
    refine spares.trans ⟨rfl, id, id, id, fun _ => ⟨rfl, id, id⟩⟩

/-- An exit is saved or marked for removal. -/
theorem exists_onObjectExited (world : World) (id : ObjectID) :
    ∃ saveTasks captures objectRemoval dirtyAabb, world.onObjectExited id =
      { world with
        saveTasks
        captures
        manager := { world.manager with objectRemoval, dirtyAabb } } := by
  simp only [onObjectExited]
  split
  · exact ⟨_, _, _, _, rfl⟩
  · split
    · exact ⟨_, _, _, _, rfl⟩
    · simp only [StreamManager.removeObject]
      split <;> exact ⟨_, _, _, _, rfl⟩

/-- A detached child is saved or marked for removal. -/
theorem exists_removeChild (world : World) (id : ObjectID) :
    ∃ objectDb saveTasks captures objectRemoval dirtyAabb, world.removeChild id =
      { world with
        objectDb
        saveTasks
        captures
        manager := { world.manager with objectRemoval, dirtyAabb } } := by
  simp only [removeChild]
  split
  · exact ⟨_, _, _, _, _, rfl⟩
  · split
    · split
      · rcases exists_onObjectExited world id with
          ⟨saveTasks, captures, objectRemoval, dirtyAabb, same⟩
        rw [same]
        exact ⟨_, _, _, _, _, rfl⟩
      · exact ⟨_, _, _, _, _, rfl⟩
    · exact ⟨_, _, _, _, _, rfl⟩

/-- Only the mark of the detached node can be dropped. -/
theorem dirtyAabb_removeChild {id : ObjectID} {node : StreamObjectNode}
    (found : world.objectDb.getInstance id = some node) :
    (world.removeChild id).manager.dirtyAabb = world.manager.dirtyAabb ∨
      (world.removeChild id).manager.dirtyAabb = world.manager.dirtyAabb.erase node.uuid := by
  simp only [removeChild, found]
  split
  · split
    · simp only [onObjectExited, found, setMount]
      split
      · exact Or.inr rfl
      · simp only [StreamManager.removeObject]
        split <;> exact Or.inl rfl
    · exact Or.inl rfl
  · exact Or.inl rfl

/-- An unload may create an entry, and takes the node from the entries that it changes. -/
theorem exists_unloadCollected (world : World) (objId : Uuid) :
    ∃ objectDb saveTasks captures registry cache objectRemoval dirtyAabb,
      world.unloadCollected objId = { world with
        objectDb
        saveTasks
        captures
        manager := { world.manager with registry, cache, objectRemoval, dirtyAabb } } ∧
      ∀ other, registry.get? other = world.manager.registry.get? other ∨
        registry.get? other =
          some { (world.manager.registry.get? other).getD default with nodeRoot := 0 } := by
  have touched (other : Uuid) :
      (world.manager.registry.touch objId).get? other = world.manager.registry.get? other ∨
        (world.manager.registry.touch objId).get? other =
          some { (world.manager.registry.get? other).getD default with nodeRoot := 0 } := by
    rw [Table.get?_touch]
    split
    case isTrue same =>
      subst same
      cases world.manager.registry.get? other with
      | none => exact Or.inr rfl
      | some data => exact Or.inl rfl
    case isFalse => exact Or.inl rfl
  simp only [unloadCollected]
  split
  · exact ⟨_, _, _, _, _, _, _, rfl, touched⟩
  · rcases exists_removeChild (world.touchEntry objId)
      ((world.touchEntry objId).manager.nodeRootOf objId) with
      ⟨objectDb, saveTasks, captures, objectRemoval, dirtyAabb, same⟩
    rw [same]
    refine ⟨_, _, _, _, _, _, _, rfl, ?_⟩
    intro other
    simp only [release, touchEntry, Table.get?_modify]
    split
    case isTrue own =>
      subst own
      right
      rw [Table.get?_touch, if_pos rfl, Option.getD_some]
    case isFalse => exact touched other

@[simp]
theorem pendingRemoval_unloadCollected (world : World) (objId : Uuid) :
    (world.unloadCollected objId).manager.pendingRemoval = world.manager.pendingRemoval := by
  rcases exists_unloadCollected world objId with ⟨_, _, _, _, _, _, _, same, _⟩
  rw [same]

theorem mem_foldl_insert {ids : List Uuid} {set : Table Uuid Unit} {uuid : Uuid} :
    uuid ∈ ids.foldl (fun set id => set.insert id ()) set ↔ uuid ∈ ids ∨ uuid ∈ set := by
  induction ids generalizing set with
  | nil => simp
  | cons id rest ih =>
      rw [List.foldl_cons, ih, Table.mem_insert, List.mem_cons]
      tauto

theorem unloadObject_rule {uuid : Uuid} (initially : holds world)
    (pending : ∀ other pendingRemoval, holds other →
      holds { other with manager := { other.manager with pendingRemoval } })
    (unloaded : ∀ other objId, holds other → objId ∈ other.manager.pendingRemoval →
      objId ∈ world.manager.collectDescendants uuid → holds (other.unloadCollected objId)) :
    holds (world.unloadObject uuid) := by
  simp only [unloadObject]
  split
  · exact initially
  · apply pending
    let allPending (other : World) : Prop :=
      ∀ id ∈ world.manager.collectDescendants uuid, id ∈ other.manager.pendingRemoval
    have both : ∀ start : World, (holds start ∧ allPending start) →
        ∀ ids : List Uuid, ids ⊆ world.manager.collectDescendants uuid →
          holds (ids.foldl unloadCollected start) ∧
            allPending (ids.foldl unloadCollected start) := by
      intro start startHolds ids listed
      apply List.foldlRecOn (motive := fun other => holds other ∧ allPending other) _ _ startHolds
      intro other otherHolds id idListed
      have collected := listed idListed
      refine ⟨unloaded other id otherHolds.1 (otherHolds.2 id collected) collected, ?_⟩
      intro other' listed'
      rw [pendingRemoval_unloadCollected]
      exact otherHolds.2 other' listed'
    refine (both _ ⟨pending _ _ initially, ?_⟩ _ (List.Subset.refl _)).1
    intro id collected
    exact mem_foldl_insert.mpr (Or.inl collected)

/-- The unloads of a delivery visit what is collected below the stale objects. -/
theorem foldl_unloadStale_rule {staleObjects : List Uuid} (initially : holds world)
    (pending : ∀ other pendingRemoval, holds other →
      holds { other with manager := { other.manager with pendingRemoval } })
    (unloaded : ∀ start stale other objId, holds start → stale ∈ staleObjects →
      objId ∈ start.manager.collectDescendants stale → holds other →
      objId ∈ other.manager.pendingRemoval → holds (other.unloadCollected objId))
    (erased : ∀ other uuid, holds other → uuid ∈ staleObjects →
      holds { other with manager := other.manager.eraseRegistryEntry uuid }) :
    holds (staleObjects.foldl unloadStale world) := by
  apply List.foldlRecOn (motive := holds) _ _ initially
  intro start startHolds stale listed
  apply erased _ _ _ listed
  apply unloadObject_rule startHolds pending
  intro other objId otherHolds isPending collected
  exact unloaded start stale other objId startHolds listed collected otherHolds isPending

theorem onQueryResult_rule {dbObjects : Table Uuid ObjectData} (initially : holds world)
    (pending : ∀ other pendingRemoval, holds other →
      holds { other with manager := { other.manager with pendingRemoval } })
    (unloaded : ∀ other objId, holds other → objId ∈ other.manager.pendingRemoval →
      holds (other.unloadCollected objId))
    (erased : ∀ other uuid, holds other → uuid ∈ world.manager.toUnload dbObjects →
      holds { other with manager := other.manager.eraseRegistryEntry uuid })
    (applied : ∀ other, holds other →
      holds { other with manager := other.manager.applyObjects dbObjects }) :
    holds (world.onQueryResult dbObjects) := by
  apply applied
  apply foldl_unloadStale_rule initially pending _ erased
  exact fun _ _ other objId _ _ _ otherHolds isPending => unloaded other objId otherHolds isPending

theorem flushCallbacks_rule (initially : holds world)
    (taken : ∀ worker, world.dbWorker = some worker →
      holds { world with dbWorker := some { worker with completedCallbacks := [] } })
    (delivered : ∀ other worker dbObjects, holds other → world.dbWorker = some worker →
      Callback.onQueryResult dbObjects ∈ worker.completedCallbacks →
        holds (other.onQueryResult dbObjects)) :
    holds world.flushCallbacks := by
  simp only [flushCallbacks]
  split
  · exact initially
  case h_2 worker running =>
    apply List.foldlRecOn (motive := holds) _ _ (taken worker running)
    intro other otherHolds callback completed
    cases callback with
    | nothing => exact otherHolds
    | onQueryResult dbObjects => exact delivered other worker dbObjects otherHolds running completed

/-- The load of an object without a node asks for the scene, mounts the kept node, or mounts a new
instance. -/
theorem loadObjectScene_of_rootless {loader : Loader} {uuid : Uuid}
    (active : world.manager.insideTree = true ∧ world.manager.queuedForDeletion = false)
    (nonNil : uuid ≠ Uuid.nil) {data : ObjectData}
    (registered : world.manager.registry.get? uuid = some data) (rootless : data.nodeRoot = 0) :
    ((∀ id, ¬ world.manager.cache.HoldsUsable world.objectDb uuid id) ∧
        world.manager.cache.sceneCache.peek uuid = none ∧
        world.loadObjectScene loader uuid = (world.acquired uuid).requestScene loader uuid) ∨
      (∃ id, world.manager.cache.HoldsUsable world.objectDb uuid id ∧
        world.loadObjectScene loader uuid = (world.acquired uuid).addChild id) ∨
      ∃ scene, (∀ id, ¬ world.manager.cache.HoldsUsable world.objectDb uuid id) ∧
        world.manager.cache.sceneCache.peek uuid = some scene ∧
        world.loadObjectScene loader uuid =
          (world.acquired uuid).mountInstance (scene.instantiate world.objectDb).1 := by
  have loads : world.loadObjectScene loader uuid =
      (world.manager.cache.acquire world.objectDb uuid).1.elim
        ((world.acquired uuid).requestScene loader uuid)
        ((world.acquired uuid).mountAcquired loader uuid) := by
    rw [loadObjectScene, if_neg (by simp [active]), if_neg nonNil, registered]
    refine (if_neg (not_not.mpr rootless)).trans ?_
    cases (world.manager.cache.acquire world.objectDb uuid).1 <;> rfl
  by_cases usable : ∃ id, world.manager.cache.HoldsUsable world.objectDb uuid id
  · rcases usable with ⟨id, usable⟩
    rcases ObjectSceneCache.acquire_of_usable usable with ⟨made, same⟩
    rcases id_usable : usable with ⟨_, node, found, notQueued⟩
    refine Or.inr (Or.inl ⟨id, usable, ?_⟩)
    rw [loads, made, Option.elim_some]
    simp only [mountAcquired, acquired, same, found, notQueued, mountInstance]
    rfl
  · rcases ObjectSceneCache.acquire_of_not_usable (not_exists.mp usable) with
      ⟨absent, made, _⟩ | ⟨scene, cached, made, objectDbEq⟩
    · refine Or.inl ⟨not_exists.mp usable, absent, ?_⟩
      rw [loads, made, Option.elim_none]
    · refine Or.inr (Or.inr ⟨scene, not_exists.mp usable, cached, ?_⟩)
      rw [loads, made, Option.elim_some]
      -- a new instance is live and not queued for deletion
      cases root : scene.root with
      | none => simp [PackedScene.instantiate, root, mountAcquired, mountInstance]
      | some sceneRoot =>
          simp only [PackedScene.instantiate, root] at objectDbEq ⊢
          simp [mountAcquired, acquired, objectDbEq, ObjectDB.instantiate,
            ObjectDB.getInstance_create, mountInstance]

/-- A load does nothing, asks for the scene, mounts the kept node, or mounts a new instance. -/
theorem loadObjectScene_cases (world : World) (loader : Loader) (uuid : Uuid) :
    world.loadObjectScene loader uuid = world ∨
    ((∃ data, world.manager.registry.get? uuid = some data ∧ data.nodeRoot = 0) ∧
      uuid ≠ Uuid.nil ∧
      (((∀ id, ¬ world.manager.cache.HoldsUsable world.objectDb uuid id) ∧
          world.manager.cache.sceneCache.peek uuid = none ∧
          world.loadObjectScene loader uuid = (world.acquired uuid).requestScene loader uuid) ∨
        (∃ id, world.manager.cache.HoldsUsable world.objectDb uuid id ∧
          world.loadObjectScene loader uuid = (world.acquired uuid).addChild id) ∨
        ∃ scene, (∀ id, ¬ world.manager.cache.HoldsUsable world.objectDb uuid id) ∧
          world.manager.cache.sceneCache.peek uuid = some scene ∧
          world.loadObjectScene loader uuid =
            (world.acquired uuid).mountInstance (scene.instantiate world.objectDb).1)) := by
  by_cases idle : (!world.manager.insideTree || world.manager.queuedForDeletion) = true
  · exact Or.inl (by simp only [loadObjectScene, idle, if_true])
  by_cases isNil : uuid = Uuid.nil
  · exact Or.inl (by simp [loadObjectScene, isNil])
  cases registered : world.manager.registry.get? uuid with
  | none => exact Or.inl (by simp [loadObjectScene, registered])
  | some data =>
      by_cases rootless : data.nodeRoot = 0
      case neg => exact Or.inl (by simp [loadObjectScene, registered, rootless])
      have active : world.manager.insideTree = true ∧ world.manager.queuedForDeletion = false := by
        simpa using idle
      exact Or.inr ⟨⟨data, rfl, rootless⟩, isNil,
        loadObjectScene_of_rootless active isNil registered rootless⟩

/-- What a taken node, a request and a mounted node preserve holds after a load. -/
theorem loadObjectScene_rule {loader : Loader} {uuid : Uuid} (initially : holds world)
    (acquired : holds (world.acquired uuid))
    (asked : holds ((world.acquired uuid).requestScene loader uuid))
    (mounted : ∀ id, holds ((world.acquired uuid).addChild id)) :
    holds (world.loadObjectScene loader uuid) := by
  rcases loadObjectScene_cases world loader uuid with
    same | ⟨_, _, ⟨_, _, same⟩ | ⟨id, _, same⟩ | ⟨scene, _, _, same⟩⟩
  · rw [same]
    exact initially
  · rw [same]
    exact asked
  · rw [same]
    exact mounted id
  · rw [same]
    cases (scene.instantiate world.objectDb).1 with
    | other => exact acquired
    | object id => exact mounted id

theorem runLoads_rule {loader : Loader} (loads : ℕ) (initially : holds world)
    (popped : ∀ other loadQueue, holds other →
      holds { other with manager := { other.manager with loadQueue } })
    (loaded : ∀ other uuid, holds other → holds (other.loadObjectScene loader uuid)) :
    holds (runLoads loader loads world) := by
  induction loads generalizing world with
  | zero => exact initially
  | succ loads ih =>
      simp only [runLoads]
      split
      · exact initially
      · exact ih (loaded _ _ (popped _ _ initially))

theorem streamScenes_rule {loader : Loader} (initially : holds world)
    (updated : ∀ other, holds other → holds { other with
      manager := { other.manager with
        cache := other.manager.cache.update (other.loadStatus loader) } })
    (queued : ∀ other loadQueue loadedQueue, holds other →
      holds { other with manager := { other.manager with loadQueue, loadedQueue } })
    (loaded : ∀ other uuid, holds other → holds (other.loadObjectScene loader uuid)) :
    holds (world.streamScenes loader) :=
  queued _ _ _ (runLoads_rule 4 (updated _ initially)
    (fun other loadQueue otherHolds => queued other loadQueue _ otherHolds) loaded)

/-- A node that enters takes no node from an entry. -/
theorem rooted_addChild (world : World) (id : ObjectID) {uuid : Uuid}
    (listening : world.listening = true) (rooted : world.manager.nodeRootOf uuid ≠ 0) :
    (world.addChild id).manager.nodeRootOf uuid ≠ 0 := by
  by_cases enters : ∃ node, world.objectDb.getInstance id = some node ∧ node.mount = .orphan
  · rcases enters with ⟨node, found, orphan⟩
    rcases (entered_addChild listening found orphan).registry with ⟨parentUuid, registry⟩
    rw [StreamManager.nodeRootOf, registry]
    split
    · exact Nat.pos_iff_ne_zero.mp (ObjectDB.issued_of_getInstance found).1
    · exact rooted
  · rw [addChild_of_mounted fun node found orphan => enters ⟨node, found, orphan⟩]
    exact rooted

theorem rooted_loadObjectScene (world : World) (loader : Loader) (loaded : Uuid) {uuid : Uuid}
    (listening : world.listening = true) (rooted : world.manager.nodeRootOf uuid ≠ 0) :
    (world.loadObjectScene loader loaded).manager.nodeRootOf uuid ≠ 0 := by
  let rootedIn (other : World) : Prop := other.manager.nodeRootOf uuid ≠ 0
  have acquired : rootedIn (world.acquired loaded) := rooted
  have loads : rootedIn (world.loadObjectScene loader loaded) := by
    apply loadObjectScene_rule rooted acquired
    · simp only [World.requestScene]
      split
      · exact rooted
      · exact rooted
    · exact fun id => rooted_addChild (world.acquired loaded) id listening rooted
  exact loads

/-- Entering and loading change only these parts. -/
structure Loads (before after : World) : Prop where
  frame : after = { before with
    objectDb := after.objectDb
    generated := after.generated
    manager := { before.manager with
      cache := after.manager.cache
      loadQueue := after.manager.loadQueue
      loadedQueue := after.manager.loadedQueue
      registry := after.manager.registry
      childrenMap := after.manager.childrenMap
      toUpsertUuids := after.manager.toUpsertUuids
      dirtyAabb := after.manager.dirtyAabb } }

theorem Loads.refl (world : World) : Loads world world :=
  ⟨rfl⟩

theorem Loads.trans {before middle after : World} (first : Loads before middle)
    (second : Loads middle after) : Loads before after := by
  constructor
  rw [second.frame, first.frame]

theorem loads_addObject (world : World) (objectDb : ObjectDB) (generated : ℕ) (id : ObjectID)
    (node : StreamObjectNode) :
    Loads world { world with
      objectDb, generated, manager := world.manager.addObject id node } := by
  by_cases isNil : node.uuid = Uuid.nil
  · simp only [StreamManager.addObject, isNil, if_true]
    exact ⟨rfl⟩
  · rcases StreamManager.exists_addObject world.manager id node isNil with
      ⟨childrenMap, registers⟩
    rw [registers]
    exact ⟨rfl⟩

theorem loads_onObjectEntered (world : World) (id : ObjectID) :
    Loads world (world.onObjectEntered id) := by
  simp only [onObjectEntered]
  split
  · exact Loads.refl world
  · split
    · exact loads_addObject _ _ _ _ _
    · exact ⟨rfl⟩

theorem loads_addChild (world : World) (id : ObjectID) : Loads world (world.addChild id) := by
  have mounted : Loads world (world.setMount id .manager) := ⟨rfl⟩
  simp only [addChild]
  split
  · exact Loads.refl world
  · split
    · split
      · exact mounted.trans (loads_onObjectEntered _ id)
      · exact mounted
    · exact Loads.refl world

/-- A node that enters is queued nowhere. -/
theorem queues_addChild (world : World) (id : ObjectID) :
    (world.addChild id).manager.loadQueue = world.manager.loadQueue ∧
      (world.addChild id).manager.loadedQueue = world.manager.loadedQueue := by
  simp only [addChild]
  split
  · exact ⟨rfl, rfl⟩
  · split
    · split
      · simp only [onObjectEntered]
        split
        · exact ⟨rfl, rfl⟩
        case h_2 node found =>
          split
          · rcases StreamManager.exists_addObject world.manager id
              { node with uuid := (world.uuidGenerator world.generated).1 }
              (world.uuidGenerator world.generated).2 with ⟨childrenMap, registers⟩
            simp only [setMount, registers, and_self]
          · exact ⟨rfl, rfl⟩
      · exact ⟨rfl, rfl⟩
    · exact ⟨rfl, rfl⟩

theorem loads_requestScene (world : World) (loader : Loader) (uuid : Uuid) :
    Loads world (world.requestScene loader uuid) := by
  simp only [requestScene]
  split <;> exact ⟨rfl⟩

theorem loads_loadObjectScene (world : World) (loader : Loader) (uuid : Uuid) :
    Loads world (world.loadObjectScene loader uuid) := by
  have acquired : Loads world (world.acquired uuid) := ⟨rfl⟩
  apply loadObjectScene_rule (Loads.refl world) acquired
  · exact acquired.trans (loads_requestScene _ loader uuid)
  · exact fun id => acquired.trans (loads_addChild _ id)

/-- A load leaves the queue, and what it does not finish waits for the next frame. -/
theorem queues_loadObjectScene (world : World) (loader : Loader) (uuid : Uuid) :
    (world.loadObjectScene loader uuid).manager.loadQueue = world.manager.loadQueue ∧
      ((world.loadObjectScene loader uuid).manager.loadedQueue = world.manager.loadedQueue ∨
        (world.loadObjectScene loader uuid).manager.loadedQueue =
          world.manager.loadedQueue ++ [uuid]) := by
  let queues (after : World) : Prop :=
    after.manager.loadQueue = world.manager.loadQueue ∧
      (after.manager.loadedQueue = world.manager.loadedQueue ∨
        after.manager.loadedQueue = world.manager.loadedQueue ++ [uuid])
  have loaded : queues (world.loadObjectScene loader uuid) := by
    apply loadObjectScene_rule (show queues world from ⟨rfl, Or.inl rfl⟩)
    · exact ⟨rfl, Or.inl rfl⟩
    · simp only [requestScene]
      split
      · exact ⟨rfl, Or.inr rfl⟩
      · exact ⟨rfl, Or.inl rfl⟩
    · intro id
      rcases queues_addChild (world.acquired uuid) id with ⟨loadQueue, loadedQueue⟩
      exact ⟨loadQueue, Or.inl loadedQueue⟩
  exact loaded

theorem loads_streamScenes (world : World) (loader : Loader) :
    Loads world (world.streamScenes loader) := by
  apply streamScenes_rule (Loads.refl world)
  · exact fun other loads => loads.trans ⟨rfl⟩
  · exact fun other loadQueue loadedQueue loads => loads.trans ⟨rfl⟩
  · exact fun other uuid loads => loads.trans (loads_loadObjectScene other loader uuid)

theorem flushPendingDbOps_frame (world : World) :
    world.flushPendingDbOps = { world with
      dbWorker := world.flushPendingDbOps.dbWorker
      manager := { world.manager with
        toUpsertUuids := world.flushPendingDbOps.manager.toUpsertUuids
        toRemove := world.flushPendingDbOps.manager.toRemove
        dirtyAabb := world.flushPendingDbOps.manager.dirtyAabb } } := by
  simp only [flushPendingDbOps]
  split
  · rfl
  · split
    · rfl
    · split <;> rfl

theorem queryProbes_frame (world : World) :
    world.queryProbes = { world with
      dbWorker := world.queryProbes.dbWorker
      manager := { world.manager with
        registeredProbes := world.queryProbes.manager.registeredProbes
        queryProcess := world.queryProbes.manager.queryProcess } } := by
  simp only [queryProbes]
  split
  · split <;> rfl
  · rfl

end World

end GodotStream
