import GodotStream.Lib.Worklist
import GodotStream.ObjectSceneCache

/-!
# The stream manager's own state

The fields of `StreamManager` and those of its functions that change nothing else:
registration, updates, the children index, and the merge of a query result. A hash
set is a `Table` of units, so an iteration follows the storage order.
-/

namespace GodotStream

open Storage

structure StreamManager where
  objectSceneDir : String
  queryProcess : ℕ
  cache : ObjectSceneCache
  loadQueue : List Uuid
  loadedQueue : List Uuid
  registry : Table Uuid ObjectData
  childrenMap : Table Uuid (Table Uuid Unit)
  objectRemoval : Table Uuid Unit
  pendingRemoval : Table Uuid Unit
  toUpsertUuids : Table Uuid Unit
  toRemove : Table Uuid Unit
  dirtyAabb : Table Uuid Unit
  registeredProbes : Table ObjectID Unit
  insideTree : Bool
  connected : Bool
  queuedForDeletion : Bool

namespace StreamManager

/-- A manager that has just entered the tree. -/
def make (objectSceneDir : String) (sceneCap nodeCap : ℕ) : StreamManager :=
  { objectSceneDir
    queryProcess := 0
    cache := .make sceneCap nodeCap
    loadQueue := []
    loadedQueue := []
    registry := ∅
    childrenMap := ∅
    objectRemoval := ∅
    pendingRemoval := ∅
    toUpsertUuids := ∅
    toRemove := ∅
    dirtyAabb := ∅
    registeredProbes := ∅
    insideTree := true
    connected := true
    queuedForDeletion := false }

def objectScenePath (manager : StreamManager) (uuid : Uuid) : ScenePath :=
  { dir := manager.objectSceneDir, uuid }

/-- `children_map_[parent].insert(uuid)`, skipped for a nil parent. -/
def insertChild (manager : StreamManager) (parent uuid : Uuid) : StreamManager :=
  if parent = Uuid.nil then manager
  else
    { manager with
      childrenMap := manager.childrenMap.modify parent fun children => children.insert uuid () }

/-- `children_map_[parent].erase(uuid)`, skipped for a nil parent. -/
def eraseChild (manager : StreamManager) (parent uuid : Uuid) : StreamManager :=
  if parent = Uuid.nil then manager
  else
    { manager with
      childrenMap := manager.childrenMap.modify parent fun children => children.erase uuid }

/-- The children that the index lists for a parent. -/
def childrenOf (manager : StreamManager) (parent : Uuid) : List Uuid :=
  match manager.childrenMap.get? parent with
  | none => []
  | some children => children.keys

/-- The root and everything below it in the index. -/
def collectDescendants (manager : StreamManager) (root : Uuid) : List Uuid :=
  Worklist.closure manager.childrenOf
    (Worklist.bound manager.childrenOf manager.childrenMap.keys) [root] []

def addObject (manager : StreamManager) (id : ObjectID) (node : StreamObjectNode) :
    StreamManager :=
  if node.uuid = Uuid.nil then manager
  else
    let data : ObjectData := { parentUuid := node.parentUuid, nodeRoot := id }
    let manager := { manager with registry := manager.registry.insert node.uuid data }
    let manager := manager.insertChild data.parentUuid node.uuid
    { manager with
      toUpsertUuids := manager.toUpsertUuids.insert node.uuid ()
      dirtyAabb := manager.dirtyAabb.insert node.uuid () }

def removeObject (manager : StreamManager) (uuid : Uuid) : StreamManager :=
  if uuid = Uuid.nil then manager
  else { manager with objectRemoval := manager.objectRemoval.insert uuid () }

def updateObject (manager : StreamManager) (id : ObjectID) (node : StreamObjectNode) :
    StreamManager :=
  match manager.registry.get? node.uuid with
  | none => manager
  | some data =>
      let manager := { manager with
        registry := manager.registry.insert node.uuid { data with nodeRoot := id } }
      let newParent := node.parentUuid
      let manager :=
        if newParent = data.parentUuid then manager
        else
          let manager := manager.eraseChild data.parentUuid node.uuid
          let manager := manager.insertChild newParent node.uuid
          { manager with
            registry := manager.registry.insert node.uuid
              { parentUuid := newParent, nodeRoot := id } }
      { manager with toUpsertUuids := manager.toUpsertUuids.insert node.uuid () }

def onObjectAabbChanged (manager : StreamManager) (node : StreamObjectNode) : StreamManager :=
  if node.uuid ∈ manager.registry then
    { manager with dirtyAabb := manager.dirtyAabb.insert node.uuid () }
  else manager

def eraseRegistryEntry (manager : StreamManager) (id : Uuid) : StreamManager :=
  { manager with
    registry := manager.registry.erase id
    dirtyAabb := manager.dirtyAabb.erase id
    toUpsertUuids := manager.toUpsertUuids.erase id }

/-- `registry_[uuid].node_root` -/
def nodeRootOf (manager : StreamManager) (uuid : Uuid) : ObjectID :=
  ((manager.registry.get? uuid).getD default).nodeRoot

/-- `registry_[uuid].node_root = id`; an absent entry is created. -/
def setNodeRoot (manager : StreamManager) (uuid : Uuid) (id : ObjectID) : StreamManager :=
  { manager with
    registry := manager.registry.modify uuid fun data => { data with nodeRoot := id } }

/-- The registered objects with a node that are not in the new set. -/
def toUnload (manager : StreamManager) (dbObjects : Table Uuid ObjectData) : List Uuid :=
  (manager.registry.entries.filter
    fun entry => entry.1 ∉ dbObjects ∧ entry.2.nodeRoot ≠ 0).map Prod.fst

/-- Take the parent of one row over into the registry, keeping the node of a present entry. -/
def mergeObject (manager : StreamManager) (entry : Uuid × ObjectData) : StreamManager :=
  let merged :=
    match manager.registry.get? entry.1 with
    | some here => { here with parentUuid := entry.2.parentUuid }
    | none => entry.2
  { manager with registry := manager.registry.insert entry.1 merged }

/-- `children_map_` is cleared and filled from the registry. -/
def rebuildChildrenMap (manager : StreamManager) : StreamManager :=
  manager.registry.entries.foldl
    (fun manager entry => manager.insertChild entry.2.parentUuid entry.1)
    { manager with childrenMap := ∅ }

/-- Queue the roots that have no node. -/
def queueRoots (manager : StreamManager) : StreamManager :=
  { manager with
    loadQueue := manager.loadQueue ++ (manager.registry.entries.filter
      fun entry => entry.2.parentUuid = Uuid.nil ∧ entry.2.nodeRoot = 0).map Prod.fst }

/-- The part of `_on_query_result` after the unloads. -/
def applyObjects (manager : StreamManager) (dbObjects : Table Uuid ObjectData) : StreamManager :=
  ((dbObjects.entries.foldl mergeObject manager).rebuildChildrenMap).queueRoots

/-- The upserts that the main thread captures: the pending uuids that are registered. -/
def upsertData (manager : StreamManager) : List (Uuid × ObjectData) :=
  manager.toUpsertUuids.keys.filterMap
    fun uuid => (manager.registry.get? uuid).map fun data => (uuid, data)

/-- Clear the sets that a flush has captured. -/
def clearPending (manager : StreamManager) : StreamManager :=
  { manager with toUpsertUuids := ∅, toRemove := ∅, dirtyAabb := ∅ }

theorem mem_toUnload {manager : StreamManager} {dbObjects : Table Uuid ObjectData} {uuid : Uuid} :
    uuid ∈ manager.toUnload dbObjects ↔
      ∃ data, manager.registry.get? uuid = some data ∧ uuid ∉ dbObjects ∧ data.nodeRoot ≠ 0 := by
  simp only [toUnload, List.mem_map, List.mem_filter, decide_eq_true_eq, Table.get?_eq_some]
  constructor
  · rintro ⟨⟨_, data⟩, ⟨listed, stale⟩, rfl⟩
    exact ⟨data, listed, stale⟩
  · rintro ⟨data, listed, stale⟩
    exact ⟨(uuid, data), ⟨listed, stale⟩, rfl⟩

theorem mem_upsertData {manager : StreamManager} {uuid : Uuid} :
    uuid ∈ manager.upsertData.map Prod.fst ↔
      uuid ∈ manager.toUpsertUuids ∧ uuid ∈ manager.registry := by
  simp only [upsertData, List.mem_map, List.mem_filterMap, Option.map_eq_some_iff,
    Table.mem_iff_get?]
  constructor
  · rintro ⟨_, ⟨listed, pending, data, found, rfl⟩, rfl⟩
    exact ⟨Table.mem_iff_get?.mp pending, data, found⟩
  · rintro ⟨pending, data, found⟩
    exact ⟨(uuid, data), ⟨uuid, Table.mem_iff_get?.mpr pending, data, found, rfl⟩, rfl⟩

theorem get?_of_mem_upsertData {manager : StreamManager} {entry : Uuid × ObjectData}
    (listed : entry ∈ manager.upsertData) :
    entry.1 ∈ manager.toUpsertUuids ∧ manager.registry.get? entry.1 = some entry.2 := by
  simp only [upsertData, List.mem_filterMap, Option.map_eq_some_iff] at listed
  rcases listed with ⟨other, pending, data, found, rfl⟩
  exact ⟨pending, found⟩

theorem nodup_upsertData (manager : StreamManager) :
    (manager.upsertData.map Prod.fst).Nodup := by
  have listed (keys : List Uuid) : (keys.filterMap fun uuid =>
      (manager.registry.get? uuid).map fun data => (uuid, data)).map Prod.fst =
        keys.filter (· ∈ manager.registry) := by
    induction keys with
    | nil => rfl
    | cons uuid rest ih =>
        cases found : manager.registry.get? uuid with
        | none =>
            have absent := Table.get?_eq_none.mp found
            simp [found, absent, ih]
        | some data =>
            have present := Table.mem_of_get? found
            simp [found, present, ih]
  rw [upsertData, listed]
  exact manager.toUpsertUuids.distinct.filter _

theorem mem_collectDescendants {manager : StreamManager} {root uuid : Uuid} :
    uuid ∈ manager.collectDescendants root ↔ Worklist.Reaches manager.childrenOf root uuid := by
  apply Worklist.mem_closure_iff
  intro parent unlisted
  simp only [childrenOf, Table.get?_eq_none.mpr unlisted]

theorem collectDescendants_nodup (manager : StreamManager) (root : Uuid) :
    (manager.collectDescendants root).Nodup :=
  Worklist.closure_nodup _ _ _ List.nodup_nil

theorem collectDescendants_congr {manager other : StreamManager}
    (same : other.childrenMap = manager.childrenMap) (root : Uuid) :
    other.collectDescendants root = manager.collectDescendants root := by
  have children : other.childrenOf = manager.childrenOf := by
    funext parent
    simp only [childrenOf, same]
  simp only [collectDescendants, children, same]

theorem mem_childrenOf {manager : StreamManager} {parent child : Uuid} :
    child ∈ manager.childrenOf parent ↔
      ∃ children, manager.childrenMap.get? parent = some children ∧ child ∈ children := by
  simp only [childrenOf]
  split
  case h_1 absent => simp [absent]
  case h_2 children found => simp [found, Table.mem_def]

/-- Creating the set of a parent on the way does not add children. -/
theorem mem_childrenOf_modify {manager : StreamManager} {parent other child : Uuid}
    {change : Table Uuid Unit → Table Uuid Unit} :
    child ∈ StreamManager.childrenOf
        { manager with childrenMap := manager.childrenMap.modify parent change } other ↔
      if other = parent then child ∈ change ((manager.childrenMap.get? parent).getD ∅)
      else child ∈ manager.childrenOf other := by
  simp only [mem_childrenOf, Table.get?_modify]
  split
  · simp only [Option.some.injEq, exists_eq_left']
    rfl
  · rfl

theorem mem_getD_childrenMap {manager : StreamManager} {parent child : Uuid} :
    child ∈ (manager.childrenMap.get? parent).getD ∅ ↔ child ∈ manager.childrenOf parent := by
  rw [mem_childrenOf]
  cases manager.childrenMap.get? parent <;> simp

theorem mem_childrenOf_insertChild {manager : StreamManager} {parent uuid other child : Uuid} :
    child ∈ (manager.insertChild parent uuid).childrenOf other ↔
      parent ≠ Uuid.nil ∧ other = parent ∧ child = uuid ∨ child ∈ manager.childrenOf other := by
  simp only [insertChild]
  split
  case isTrue isNil => simp [isNil]
  case isFalse nonNil =>
    rw [mem_childrenOf_modify]
    split
    case isTrue same =>
      rw [Table.mem_insert, mem_getD_childrenMap, same]
      simp [nonNil]
    case isFalse distinct => simp [distinct]

theorem mem_childrenOf_eraseChild {manager : StreamManager} {parent uuid other child : Uuid} :
    child ∈ (manager.eraseChild parent uuid).childrenOf other ↔
      ¬ (parent ≠ Uuid.nil ∧ other = parent ∧ child = uuid) ∧
        child ∈ manager.childrenOf other := by
  simp only [eraseChild]
  split
  case isTrue isNil => simp [isNil]
  case isFalse nonNil =>
    rw [mem_childrenOf_modify]
    split
    case isTrue same =>
      rw [Table.mem_erase, mem_getD_childrenMap, same]
      simp [nonNil]
    case isFalse distinct => simp [distinct]

theorem exists_insertChild (manager : StreamManager) (parent uuid : Uuid) :
    ∃ childrenMap, manager.insertChild parent uuid = { manager with childrenMap } := by
  simp only [insertChild]
  split
  · exact ⟨manager.childrenMap, rfl⟩
  · exact ⟨_, rfl⟩

theorem exists_eraseChild (manager : StreamManager) (parent uuid : Uuid) :
    ∃ childrenMap, manager.eraseChild parent uuid = { manager with childrenMap } := by
  simp only [eraseChild]
  split
  · exact ⟨manager.childrenMap, rfl⟩
  · exact ⟨_, rfl⟩

/-- A named node registers with its parent, and both of its pending marks are set. -/
theorem exists_addObject (manager : StreamManager) (id : ObjectID) (node : StreamObjectNode)
    (named : node.uuid ≠ Uuid.nil) :
    ∃ childrenMap, manager.addObject id node = { manager with
      registry := manager.registry.insert node.uuid
        { parentUuid := node.parentUuid, nodeRoot := id }
      childrenMap
      toUpsertUuids := manager.toUpsertUuids.insert node.uuid ()
      dirtyAabb := manager.dirtyAabb.insert node.uuid () } := by
  rcases exists_insertChild
    { manager with
      registry := manager.registry.insert node.uuid
        { parentUuid := node.parentUuid, nodeRoot := id } }
    node.parentUuid node.uuid with ⟨childrenMap, inserted⟩
  refine ⟨childrenMap, ?_⟩
  simp only [addObject, named, if_false, inserted]

/-- An update of a registered object takes over its parent and its node. -/
theorem updateObject_cases (manager : StreamManager) (id : ObjectID) (node : StreamObjectNode) :
    node.uuid ∉ manager.registry ∧ manager.updateObject id node = manager ∨
      node.uuid ∈ manager.registry ∧ ∃ registry childrenMap,
        manager.updateObject id node = { manager with
          registry
          childrenMap
          toUpsertUuids := manager.toUpsertUuids.insert node.uuid () } ∧
        ∀ other, registry.get? other =
          if other = node.uuid then some { parentUuid := node.parentUuid, nodeRoot := id }
          else manager.registry.get? other := by
  cases registered : manager.registry.get? node.uuid with
  | none =>
      refine Or.inl ⟨Table.get?_eq_none.mp registered, ?_⟩
      simp only [updateObject, registered]
  | some data =>
      refine Or.inr ⟨Table.mem_of_get? registered, ?_⟩
      by_cases same : node.parentUuid = data.parentUuid
      · refine ⟨manager.registry.insert node.uuid { data with nodeRoot := id },
          manager.childrenMap, by simp only [updateObject, registered, same, if_true], ?_⟩
        intro other
        simp only [Table.get?_insert, same]
      · rcases exists_eraseChild
          { manager with
            registry := manager.registry.insert node.uuid { data with nodeRoot := id } }
          data.parentUuid node.uuid with ⟨erased, erasedEq⟩
        rcases exists_insertChild
          { manager with
            registry := manager.registry.insert node.uuid { data with nodeRoot := id }
            childrenMap := erased }
          node.parentUuid node.uuid with ⟨inserted, insertedEq⟩
        refine ⟨(manager.registry.insert node.uuid { data with nodeRoot := id }).insert node.uuid
          { parentUuid := node.parentUuid, nodeRoot := id }, inserted, ?_, ?_⟩
        · simp only [updateObject, registered, same, if_false, erasedEq, insertedEq]
        · intro other
          simp only [Table.get?_insert]
          split <;> rfl

theorem exists_rebuildChildrenMap (manager : StreamManager) :
    ∃ childrenMap, manager.rebuildChildrenMap = { manager with childrenMap } := by
  simp only [rebuildChildrenMap]
  apply List.foldlRecOn (motive := fun other : StreamManager =>
    ∃ childrenMap, other = { manager with childrenMap }) _ _ ⟨∅, rfl⟩
  rintro other ⟨_, rfl⟩ entry _
  rcases exists_insertChild _ entry.2.parentUuid entry.1 with ⟨childrenMap, same⟩
  exact ⟨childrenMap, same⟩

theorem exists_mergeObjects (manager : StreamManager) (dbObjects : Table Uuid ObjectData) :
    ∃ registry, dbObjects.entries.foldl mergeObject manager = { manager with registry } := by
  apply List.foldlRecOn (motive := fun other : StreamManager =>
    ∃ registry, other = { manager with registry }) _ _ ⟨manager.registry, rfl⟩
  rintro other ⟨_, rfl⟩ entry _
  exact ⟨_, rfl⟩

theorem exists_applyObjects (manager : StreamManager) (dbObjects : Table Uuid ObjectData) :
    ∃ childrenMap loadQueue, manager.applyObjects dbObjects =
      { manager with
        registry := (dbObjects.entries.foldl mergeObject manager).registry
        childrenMap
        loadQueue } := by
  rcases exists_mergeObjects manager dbObjects with ⟨registry, merged⟩
  rcases exists_rebuildChildrenMap (dbObjects.entries.foldl mergeObject manager) with
    ⟨childrenMap, rebuilt⟩
  refine ⟨childrenMap, (manager.applyObjects dbObjects).loadQueue, ?_⟩
  simp only [applyObjects, rebuilt, queueRoots]
  rw [merged]

theorem registry_applyObjects (manager : StreamManager) (dbObjects : Table Uuid ObjectData) :
    (manager.applyObjects dbObjects).registry =
      (dbObjects.entries.foldl mergeObject manager).registry := by
  rcases exists_applyObjects manager dbObjects with ⟨_, _, same⟩
  rw [same]

/-- A result overrides the parents of the objects in it and keeps their nodes. -/
theorem get?_applyObjects (manager : StreamManager) (dbObjects : Table Uuid ObjectData)
    (uuid : Uuid) :
    (manager.applyObjects dbObjects).registry.get? uuid =
      match dbObjects.get? uuid with
      | none => manager.registry.get? uuid
      | some row =>
          match manager.registry.get? uuid with
          | none => some row
          | some here => some { here with parentUuid := row.parentUuid } := by
  have folded (entries : List (Uuid × ObjectData)) (distinct : (entries.map Prod.fst).Nodup)
      (start : StreamManager) :
      (entries.foldl mergeObject start).registry.get? uuid =
        match entries.lookup uuid with
        | none => start.registry.get? uuid
        | some row =>
            match start.registry.get? uuid with
            | none => some row
            | some here => some { here with parentUuid := row.parentUuid } := by
    induction entries generalizing start with
    | nil => rfl
    | cons entry rest ih =>
        simp only [List.map_cons, List.nodup_cons] at distinct
        rw [List.foldl_cons, ih distinct.2, List.lookup_cons]
        simp only [mergeObject, Table.get?_insert]
        by_cases same : uuid = entry.1
        · subst same
          have absent : rest.lookup entry.1 = none := by
            rw [Option.eq_none_iff_forall_ne_some]
            intro row found
            exact distinct.1 (List.mem_map.mpr ⟨_, Table.mem_of_lookup_eq_some found, rfl⟩)
          simp only [absent, if_true, beq_self_eq_true]
          cases start.registry.get? entry.1 <;> rfl
        · simp only [same, if_false, beq_eq_false_iff_ne.mpr same]
  rw [registry_applyObjects]
  exact folded dbObjects.entries dbObjects.distinct manager

/-- Rows that name no nodes leave the node of every object. -/
theorem nodeRootOf_applyObjects (manager : StreamManager) {dbObjects : Table Uuid ObjectData}
    (rootless : ∀ uuid data, dbObjects.get? uuid = some data → data.nodeRoot = 0) (uuid : Uuid) :
    (manager.applyObjects dbObjects).nodeRootOf uuid = manager.nodeRootOf uuid := by
  simp only [nodeRootOf, get?_applyObjects]
  cases listed : dbObjects.get? uuid with
  | none => rfl
  | some row =>
      cases manager.registry.get? uuid with
      | none => exact rootless uuid row listed
      | some stored => rfl

/-- A delivery queues the roots without a node, each one once. -/
theorem exists_loadQueue_applyObjects (manager : StreamManager)
    (dbObjects : Table Uuid ObjectData) :
    ∃ roots, (manager.applyObjects dbObjects).loadQueue = manager.loadQueue ++ roots ∧
      roots.Nodup ∧ ∀ uuid, uuid ∈ roots ↔
        ∃ data, (manager.applyObjects dbObjects).registry.get? uuid = some data ∧
          data.parentUuid = Uuid.nil ∧ data.nodeRoot = 0 := by
  rcases exists_mergeObjects manager dbObjects with ⟨registry, merged⟩
  rcases exists_rebuildChildrenMap { manager with registry } with ⟨childrenMap, rebuilt⟩
  refine ⟨(registry.entries.filter
    fun entry => entry.2.parentUuid = Uuid.nil ∧ entry.2.nodeRoot = 0).map Prod.fst, ?_, ?_, ?_⟩
  · simp only [applyObjects, merged, rebuilt, queueRoots]
  · exact registry.distinct.sublist (List.filter_sublist.map Prod.fst)
  · intro uuid
    simp only [applyObjects, merged, rebuilt, queueRoots, List.mem_map, List.mem_filter,
      decide_eq_true_eq, Prod.exists, exists_and_right, exists_eq_right, Table.get?_eq_some]

theorem mem_loadQueue_applyObjects {manager : StreamManager} {dbObjects : Table Uuid ObjectData}
    {uuid : Uuid} : uuid ∈ (manager.applyObjects dbObjects).loadQueue ↔
      uuid ∈ manager.loadQueue ∨
        ∃ data, (manager.applyObjects dbObjects).registry.get? uuid = some data ∧
          data.parentUuid = Uuid.nil ∧ data.nodeRoot = 0 := by
  rcases exists_loadQueue_applyObjects manager dbObjects with ⟨roots, queued, _, isRoot⟩
  rw [queued, List.mem_append, isRoot]

@[simp]
theorem cache_applyObjects (manager : StreamManager) (dbObjects : Table Uuid ObjectData) :
    (manager.applyObjects dbObjects).cache = manager.cache := by
  rcases exists_applyObjects manager dbObjects with ⟨_, _, same⟩
  rw [same]

@[simp]
theorem registry_insertChild (manager : StreamManager) (parent uuid : Uuid) :
    (manager.insertChild parent uuid).registry = manager.registry := by
  simp only [insertChild]
  split <;> rfl

@[simp]
theorem registry_eraseChild (manager : StreamManager) (parent uuid : Uuid) :
    (manager.eraseChild parent uuid).registry = manager.registry := by
  simp only [eraseChild]
  split <;> rfl

@[simp]
theorem cache_insertChild (manager : StreamManager) (parent uuid : Uuid) :
    (manager.insertChild parent uuid).cache = manager.cache := by
  simp only [insertChild]
  split <;> rfl

@[simp]
theorem cache_eraseChild (manager : StreamManager) (parent uuid : Uuid) :
    (manager.eraseChild parent uuid).cache = manager.cache := by
  simp only [eraseChild]
  split <;> rfl

@[simp]
theorem cache_addObject (manager : StreamManager) (id : ObjectID) (node : StreamObjectNode) :
    (manager.addObject id node).cache = manager.cache := by
  simp only [addObject]
  split
  · rfl
  · exact cache_insertChild _ _ _

@[simp]
theorem registry_removeObject (manager : StreamManager) (uuid : Uuid) :
    (manager.removeObject uuid).registry = manager.registry := by
  simp only [removeObject]
  split <;> rfl

theorem exists_onObjectAabbChanged (manager : StreamManager) (node : StreamObjectNode) :
    ∃ dirtyAabb, manager.onObjectAabbChanged node = { manager with dirtyAabb } := by
  simp only [onObjectAabbChanged]
  split
  · exact ⟨_, rfl⟩
  · exact ⟨manager.dirtyAabb, rfl⟩

@[simp]
theorem registry_onObjectAabbChanged (manager : StreamManager) (node : StreamObjectNode) :
    (manager.onObjectAabbChanged node).registry = manager.registry := by
  simp only [onObjectAabbChanged]
  split <;> rfl

@[simp]
theorem cache_onObjectAabbChanged (manager : StreamManager) (node : StreamObjectNode) :
    (manager.onObjectAabbChanged node).cache = manager.cache := by
  simp only [onObjectAabbChanged]
  split <;> rfl

@[simp]
theorem cache_updateObject (manager : StreamManager) (id : ObjectID) (node : StreamObjectNode) :
    (manager.updateObject id node).cache = manager.cache := by
  simp only [updateObject]
  split
  · rfl
  · split
    · rfl
    · simp only [cache_insertChild, cache_eraseChild]

@[simp]
theorem cache_removeObject (manager : StreamManager) (uuid : Uuid) :
    (manager.removeObject uuid).cache = manager.cache := by
  simp only [removeObject]
  split <;> rfl

end StreamManager

end GodotStream
