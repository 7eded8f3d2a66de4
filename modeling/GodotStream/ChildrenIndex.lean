import GodotStream.Identity

/-!
# The children index

`children_map_` repeats the parents of the registry. It is kept by hand in the
registration functions and in the removal, goes stale inside `_on_query_result`, and is
rebuilt at its end. Between events it lists, for each parent, the registered children.
-/

namespace GodotStream

open Storage

namespace StreamManager

/-- The index lists exactly the registered objects under their non-nil parents. -/
def Mirrors (manager : StreamManager) : Prop :=
  ∀ parent child, child ∈ manager.childrenOf parent ↔
    parent ≠ Uuid.nil ∧ ∃ data, manager.registry.get? child = some data ∧ data.parentUuid = parent

variable {manager other : StreamManager}

/-- The index and the parents in the registry decide. -/
theorem Mirrors.congr (mirrors : manager.Mirrors)
    (children : ∀ parent child, child ∈ other.childrenOf parent ↔ child ∈ manager.childrenOf parent)
    (parents : ∀ child parent, parent ≠ Uuid.nil →
      ((∃ data, other.registry.get? child = some data ∧ data.parentUuid = parent) ↔
        ∃ data, manager.registry.get? child = some data ∧ data.parentUuid = parent)) :
    other.Mirrors := by
  intro parent child
  rw [children, mirrors parent child]
  exact and_congr_right fun nonNil => (parents child parent nonNil).symm

/-- Fields that the index does not depend on. -/
theorem Mirrors.of_eq (mirrors : manager.Mirrors)
    (childrenMap : other.childrenMap = manager.childrenMap)
    (registry : other.registry = manager.registry) : other.Mirrors := by
  apply mirrors.congr
  · intro parent child
    rw [mem_childrenOf, mem_childrenOf, childrenMap]
  · intro child parent _
    rw [registry]

theorem Mirrors.setNodeRoot (mirrors : manager.Mirrors) (uuid : Uuid) (id : ObjectID) :
    (manager.setNodeRoot uuid id).Mirrors := by
  apply mirrors.congr
  · exact fun parent child => Iff.rfl
  · intro child parent nonNil
    simp only [StreamManager.setNodeRoot, Table.get?_modify]
    split
    case isTrue same =>
      subst same
      cases manager.registry.get? child with
      | none =>
          simpa using fun isNil : (default : ObjectData).parentUuid = parent => nonNil isNil.symm
      | some data => simp
    case isFalse => rfl

theorem Mirrors.touch (mirrors : manager.Mirrors) (uuid : Uuid) :
    Mirrors { manager with registry := manager.registry.touch uuid } := by
  apply mirrors.congr
  · exact fun parent child => Iff.rfl
  · intro child parent nonNil
    simp only [Table.get?_touch]
    split
    case isTrue same =>
      subst same
      cases manager.registry.get? child with
      | none =>
          simpa using fun isNil : (default : ObjectData).parentUuid = parent => nonNil isNil.symm
      | some data => simp
    case isFalse => rfl

/-- A new object is listed under its parent. -/
theorem Mirrors.addObject (mirrors : manager.Mirrors) {id : ObjectID} {node : StreamObjectNode}
    (new : node.uuid ∉ manager.registry) : (manager.addObject id node).Mirrors := by
  simp only [StreamManager.addObject]
  split
  · exact mirrors
  · have unlisted (parent : Uuid) : node.uuid ∉ manager.childrenOf parent := by
      intro listed
      rcases (mirrors parent node.uuid).mp listed with ⟨_, data, found, _⟩
      exact new (Table.mem_of_get? found)
    intro parent child
    change child ∈ (StreamManager.insertChild _ _ _).childrenOf parent ↔
      _ ∧ ∃ data, (StreamManager.insertChild _ _ _).registry.get? child = some data ∧ _
    rw [mem_childrenOf_insertChild, registry_insertChild]
    simp only [Table.get?_insert]
    change _ ∨ child ∈ manager.childrenOf parent ↔ _
    rw [mirrors parent child]
    by_cases same : child = node.uuid
    · subst same
      simp only [and_true, if_true, Option.some.injEq, exists_eq_left',
        Table.get?_eq_none.mpr new, reduceCtorEq, false_and, exists_false, and_false, or_false]
      constructor
      · rintro ⟨nonNil, rfl⟩
        exact ⟨nonNil, rfl⟩
      · rintro ⟨nonNil, rfl⟩
        exact ⟨nonNil, rfl⟩
    · simp only [same, and_false, false_or, if_false]

/-- A registered object moves to its new parent. -/
theorem Mirrors.updateObject (mirrors : manager.Mirrors) (id : ObjectID)
    (node : StreamObjectNode) : (manager.updateObject id node).Mirrors := by
  cases registered : manager.registry.get? node.uuid with
  | none =>
      simp only [StreamManager.updateObject, registered]
      exact mirrors
  | some data =>
      have rooted : Mirrors { manager with
          registry := manager.registry.insert node.uuid { data with nodeRoot := id } } := by
        apply mirrors.congr
        · exact fun parent child => Iff.rfl
        · intro child parent _
          simp only [Table.get?_insert]
          split
          case isTrue same => simp [same, registered]
          case isFalse => rfl
      by_cases kept : node.parentUuid = data.parentUuid
      · simp only [StreamManager.updateObject, registered, kept, if_true]
        exact rooted.of_eq rfl rfl
      · simp only [StreamManager.updateObject, registered, kept, if_false]
        intro parent child
        change child ∈ (StreamManager.insertChild _ _ _).childrenOf parent ↔ _
        rw [mem_childrenOf_insertChild, mem_childrenOf_eraseChild, rooted parent child]
        simp only [Table.get?_insert, registry_insertChild, registry_eraseChild]
        by_cases same : child = node.uuid
        · subst same
          simp only [and_true, if_true, Option.some.injEq, exists_eq_left']
          constructor
          · rintro (⟨nonNil, rfl⟩ | ⟨notOld, nonNil, rfl⟩)
            · exact ⟨nonNil, rfl⟩
            · exact absurd ⟨nonNil, rfl⟩ notOld
          · rintro ⟨nonNil, rfl⟩
            exact Or.inl ⟨nonNil, rfl⟩
        · simp only [same, and_false, false_or, not_false_eq_true, true_and, if_false]

theorem Mirrors.eraseChild_erase (mirrors : manager.Mirrors) {uuid : Uuid} {data : ObjectData}
    (registered : manager.registry.get? uuid = some data)
    (childrenMap : ∀ parent child, child ∈ other.childrenOf parent ↔
      child ∈ (manager.eraseChild data.parentUuid uuid).childrenOf parent)
    (registry : ∀ child, other.registry.get? child =
      if child = uuid then none else manager.registry.get? child) : other.Mirrors := by
  intro parent child
  rw [childrenMap, mem_childrenOf_eraseChild, mirrors parent child, registry]
  by_cases same : child = uuid
  · subst same
    simp only [and_true, if_true, registered, Option.some.injEq, exists_eq_left', reduceCtorEq,
      false_and, exists_false, and_false, iff_false, not_and]
    rintro notOld nonNil rfl
    exact notOld nonNil rfl
  · simp only [same, and_false, not_false_eq_true, true_and, if_false]

/-- The rebuilt index follows the registry, whatever it was before. -/
theorem mirrors_rebuildChildrenMap (manager : StreamManager) :
    manager.rebuildChildrenMap.Mirrors := by
  have folded : ∀ (entries : List (Uuid × ObjectData)) (start : StreamManager)
      (parent child : Uuid),
      child ∈ (entries.foldl (fun manager entry => manager.insertChild entry.2.parentUuid entry.1)
        start).childrenOf parent ↔
      (parent ≠ Uuid.nil ∧ ∃ data, (child, data) ∈ entries ∧ data.parentUuid = parent) ∨
        child ∈ start.childrenOf parent := by
    intro entries
    induction entries with
    | nil => simp
    | cons entry rest ih =>
        intro start parent child
        rw [List.foldl_cons, ih, mem_childrenOf_insertChild]
        constructor
        · rintro (⟨nonNil, data, listed, rfl⟩ | ⟨nonNil, rfl, rfl⟩ | old)
          · exact Or.inl ⟨nonNil, data, List.mem_cons_of_mem _ listed, rfl⟩
          · exact Or.inl ⟨nonNil, entry.2, List.mem_cons_self, rfl⟩
          · exact Or.inr old
        · rintro (⟨nonNil, data, listed, rfl⟩ | old)
          · rcases List.mem_cons.mp listed with rfl | later
            · exact Or.inr (Or.inl ⟨nonNil, rfl, rfl⟩)
            · exact Or.inl ⟨nonNil, data, later, rfl⟩
          · exact Or.inr (Or.inr old)
  intro parent child
  have registry : manager.rebuildChildrenMap.registry = manager.registry := by
    rcases exists_rebuildChildrenMap manager with ⟨_, same⟩
    rw [same]
  rw [registry, rebuildChildrenMap, folded]
  have nothing : child ∉ StreamManager.childrenOf { manager with childrenMap := ∅ } parent := by
    simp [mem_childrenOf]
  simp only [nothing, or_false, Table.get?_eq_some]

theorem mirrors_applyObjects (manager : StreamManager) (dbObjects : Table Uuid ObjectData) :
    (manager.applyObjects dbObjects).Mirrors :=
  (mirrors_rebuildChildrenMap _).of_eq rfl rfl

end StreamManager

namespace World

variable {world : World}

def Indexed (world : World) : Prop :=
  world.manager.Mirrors

section Removal

theorem Indexed.removeCollected (indexed : world.Indexed) (id : Uuid) :
    (world.removeCollected id).Indexed := by
  cases registered : world.manager.registry.get? id with
  | none =>
      simp only [World.removeCollected, registered]
      exact indexed
  | some data =>
      apply StreamManager.Mirrors.eraseChild_erase indexed registered
      · intro parent child
        simp only [World.removeCollected, registered]
        rw [StreamManager.mem_childrenOf_eraseChild]
        exact StreamManager.mem_childrenOf_eraseChild
      · exact get?_registry_removeCollected world id

/-- After the loop of a removal the collected objects are unregistered and the index agrees. -/
theorem indexed_foldl_removeCollected (ids : List Uuid) (indexed : world.Indexed) :
    (ids.foldl World.removeCollected world).Indexed ∧
      ∀ uuid, (ids.foldl World.removeCollected world).manager.registry.get? uuid =
        if uuid ∈ ids then none else world.manager.registry.get? uuid := by
  induction ids generalizing world with
  | nil => exact ⟨indexed, by simp⟩
  | cons id rest ih =>
      rcases ih (indexed.removeCollected id) with ⟨restIndexed, registry⟩
      refine ⟨restIndexed, ?_⟩
      intro uuid
      rw [List.foldl_cons, registry, get?_registry_removeCollected]
      by_cases same : uuid = id <;> simp [same]

theorem childrenOf_foldl_erase (manager : StreamManager) (ids : List Uuid) (parent : Uuid) :
    StreamManager.childrenOf
        { manager with childrenMap := ids.foldl Table.erase manager.childrenMap } parent =
      if parent ∈ ids then [] else manager.childrenOf parent := by
  simp only [StreamManager.childrenOf, Table.get?_foldl_erase]
  split
  case h_1 absent => split <;> simp_all
  case h_2 found => split <;> simp_all

/-- The children of removed objects are removed with them, so dropping their sets is safe. -/
theorem Indexed._removeObject (indexed : world.Indexed) (uuid : Uuid) :
    (world._removeObject uuid).Indexed := by
  rcases indexed_foldl_removeCollected (world.manager.collectDescendants uuid) indexed with
    ⟨removed, registry⟩
  intro parent child
  rw [show (world._removeObject uuid).manager.childrenOf parent = _ from
    childrenOf_foldl_erase _ _ parent]
  split
  case isFalse => exact removed parent child
  case isTrue collected =>
    simp only [List.not_mem_nil, false_iff, not_and]
    rintro nonNil ⟨data, found, rfl⟩
    rw [show (world._removeObject uuid).manager.registry.get? child = _ from registry child]
      at found
    split at found
    · simp at found
    case isFalse spared =>
      apply spared
      rw [StreamManager.mem_collectDescendants] at collected ⊢
      exact collected.tail ((indexed _ child).mpr ⟨nonNil, data, found, rfl⟩)

theorem Indexed.runRemovals (indexed : world.Indexed) : world.runRemovals.Indexed := by
  apply runRemovals_rule indexed
  · exact fun other uuid otherIndexed _ => otherIndexed._removeObject uuid
  · exact fun other otherIndexed => StreamManager.Mirrors.of_eq otherIndexed rfl rfl

end Removal

section Signals

/-- A node without a uuid gets one that is not registered. -/
def AddsNew (world : World) (id : ObjectID) : Prop :=
  ∀ node ∈ world.objectDb.getInstance id, node.uuid = Uuid.nil →
    (world.uuidGenerator world.generated).1 ∉ world.manager.registry

instance (world : World) (id : ObjectID) : Decidable (world.AddsNew id) := by
  unfold AddsNew
  infer_instance

theorem Indexed.onObjectEntered (indexed : world.Indexed) {id : ObjectID}
    (new : world.AddsNew id) : (world.onObjectEntered id).Indexed := by
  simp only [World.onObjectEntered]
  split
  · exact indexed
  case h_2 node found =>
    split
    case isTrue isNil =>
      have unregistered : ({ node with
          uuid := (world.uuidGenerator world.generated).1 } : StreamObjectNode).uuid ∉
            world.manager.registry :=
        new node found isNil
      exact StreamManager.Mirrors.addObject indexed unregistered
    case isFalse => exact StreamManager.Mirrors.setNodeRoot indexed node.uuid id

theorem Indexed.addChild (indexed : world.Indexed) {id : ObjectID}
    (new : world.AddsNew id) : (world.addChild id).Indexed := by
  simp only [World.addChild]
  split
  · exact indexed
  case h_2 node found =>
    split
    · split
      · have mounted : (world.setMount id .manager).Indexed := indexed
        apply mounted.onObjectEntered
        intro other otherFound
        simp only [setMount, ObjectDB.getInstance_modify, if_true, found, Option.map_some,
          Option.mem_def, Option.some.injEq] at otherFound
        subst otherFound
        exact new node found
      · exact indexed
    · exact indexed

theorem Indexed.removeChild (indexed : world.Indexed) (id : ObjectID) :
    (world.removeChild id).Indexed := by
  simp only [World.removeChild]
  split
  · exact indexed
  · split
    · split
      · simp only [setMount, World.onObjectExited]
        split
        · exact indexed
        · split
          · exact StreamManager.Mirrors.of_eq indexed rfl rfl
          · simp only [StreamManager.removeObject]
            split
            · exact indexed
            · exact StreamManager.Mirrors.of_eq indexed rfl rfl
      · exact indexed
    · exact indexed

end Signals

section Unloading

theorem Indexed.unloadCollected (indexed : world.Indexed) (objId : Uuid) :
    (world.unloadCollected objId).Indexed := by
  have touched : (world.touchEntry objId).Indexed := StreamManager.Mirrors.touch indexed objId
  simp only [World.unloadCollected]
  split
  · exact touched
  · apply StreamManager.Mirrors.setNodeRoot
    have detached := touched.removeChild ((world.touchEntry objId).manager.nodeRootOf objId)
    exact StreamManager.Mirrors.of_eq detached rfl rfl

theorem Indexed.unloadObject (indexed : world.Indexed) (uuid : Uuid) :
    (world.unloadObject uuid).Indexed := by
  apply unloadObject_rule indexed
  · exact fun other pendingRemoval otherIndexed =>
      StreamManager.Mirrors.of_eq otherIndexed rfl rfl
  · exact fun other objId otherIndexed _ _ => otherIndexed.unloadCollected objId

theorem indexed_onQueryResult (world : World) (dbObjects : Table Uuid ObjectData) :
    (world.onQueryResult dbObjects).Indexed :=
  StreamManager.mirrors_applyObjects _ _

theorem Indexed.flushCallbacks (indexed : world.Indexed) : world.flushCallbacks.Indexed := by
  apply flushCallbacks_rule indexed
  · exact fun worker _ => indexed
  · exact fun other worker dbObjects _ _ _ => indexed_onQueryResult other dbObjects

end Unloading

section Frames

theorem Indexed.requestScene (indexed : world.Indexed) (loader : Loader) (uuid : Uuid) :
    (world.requestScene loader uuid).Indexed := by
  simp only [World.requestScene]
  split
  · exact StreamManager.Mirrors.of_eq indexed rfl rfl
  · exact StreamManager.Mirrors.of_eq indexed rfl rfl

/-- A load that makes an instance without a uuid gives it one that is not registered. -/
def LoadAddsNew (world : World) (uuid : Uuid) : Prop :=
  ∀ made ∈ (world.manager.cache.acquire world.objectDb uuid).1,
    match made with
    | .other => True
    | .object id => (world.acquired uuid).AddsNew id

instance (world : World) (uuid : Uuid) : Decidable (world.LoadAddsNew uuid) := by
  unfold LoadAddsNew
  have (made : Instance) : Decidable (match made with
      | .other => True
      | .object id => (world.acquired uuid).AddsNew id) := by
    cases made <;> infer_instance
  infer_instance

theorem Indexed.loadObjectScene (indexed : world.Indexed) {loader : Loader} {uuid : Uuid}
    (new : world.LoadAddsNew uuid) : (world.loadObjectScene loader uuid).Indexed := by
  have acquired : (world.acquired uuid).Indexed := StreamManager.Mirrors.of_eq indexed rfl rfl
  rcases loadObjectScene_cases world loader uuid with
    same | ⟨_, _, ⟨_, _, asked⟩ | ⟨id, usable, mounted⟩ | ⟨scene, unusable, cached, mounted⟩⟩
  · rw [same]
    exact indexed
  · rw [asked]
    exact acquired.requestScene loader uuid
  · rw [mounted]
    exact acquired.addChild (new (.object id) (ObjectSceneCache.acquire_of_usable usable).1)
  · rcases ObjectSceneCache.acquire_of_not_usable unusable with
      ⟨absent, _⟩ | ⟨other, otherCached, made, _⟩
    · rw [cached] at absent
      simp at absent
    · rw [cached, Option.some.injEq] at otherCached
      subst otherCached
      rw [mounted]
      cases instanceEq : (scene.instantiate world.objectDb).1 with
      | other => exact acquired
      | object id =>
          rw [instanceEq] at made
          exact acquired.addChild (new (.object id) made)

/-- The same for the loads of one frame, each in the state that it starts from. -/
def LoadsAddNew (loader : Loader) : ℕ → World → Prop
  | 0, _ => True
  | loads + 1, world =>
      match world.manager.loadQueue with
      | [] => True
      | uuid :: rest =>
          let world := { world with manager := { world.manager with loadQueue := rest } }
          world.LoadAddsNew uuid ∧ LoadsAddNew loader loads (world.loadObjectScene loader uuid)

instance decidableLoadsAddNew (loader : Loader) :
    ∀ loads world, Decidable (LoadsAddNew loader loads world)
  | 0, _ => isTrue trivial
  | loads + 1, world => by
      simp only [LoadsAddNew]
      have next (other : World) := decidableLoadsAddNew loader loads other
      split <;> infer_instance

theorem Indexed.runLoads {loader : Loader} {loads : ℕ} (indexed : world.Indexed)
    (new : LoadsAddNew loader loads world) : (runLoads loader loads world).Indexed := by
  induction loads generalizing world with
  | zero => exact indexed
  | succ loads ih =>
      simp only [World.runLoads]
      simp only [LoadsAddNew] at new
      split
      · exact indexed
      case h_2 uuid rest queued =>
        simp only [queued] at new
        have popped : Indexed { world with
            manager := { world.manager with loadQueue := rest } } :=
          StreamManager.Mirrors.of_eq indexed rfl rfl
        exact ih (popped.loadObjectScene new.1) new.2

theorem Indexed.pushTask (indexed : world.Indexed) (task : Task) :
    (world.pushTask task).Indexed :=
  indexed

theorem Indexed.flushPendingDbOps (indexed : world.Indexed) :
    world.flushPendingDbOps.Indexed := by
  have cleared : Indexed { world with manager := world.manager.clearPending } :=
    StreamManager.Mirrors.of_eq indexed rfl rfl
  simp only [World.flushPendingDbOps]
  split
  · exact indexed
  · split
    · exact indexed
    · split
      · exact cleared
      · exact cleared.pushTask _

theorem Indexed.queryProbes (indexed : world.Indexed) : world.queryProbes.Indexed := by
  simp only [World.queryProbes]
  split
  · split
    · exact StreamManager.Mirrors.of_eq indexed rfl rfl
    · apply Indexed.pushTask
      exact StreamManager.Mirrors.of_eq indexed rfl rfl
  · exact StreamManager.Mirrors.of_eq indexed rfl rfl

/-- A frame up to its loads. -/
def beforeLoads (world : World) (loader : Loader) : World :=
  let world := world.runRemovals
  let world :=
    match world.dbWorker with
    | none => world
    | some _ => world.flushPendingDbOps.queryProbes
  world.updateCache loader

theorem process_eq (world : World) (loader : Loader) :
    world.process loader =
      if !world.manager.insideTree then world
      else (World.runLoads loader 4 (world.beforeLoads loader)).requeueLoaded :=
  rfl

theorem Indexed.beforeLoads (indexed : world.Indexed) (loader : Loader) :
    (world.beforeLoads loader).Indexed := by
  have removed := indexed.runRemovals
  simp only [World.beforeLoads]
  split
  · exact StreamManager.Mirrors.of_eq removed rfl rfl
  · exact StreamManager.Mirrors.of_eq removed.flushPendingDbOps.queryProbes rfl rfl

end Frames

section Runs

/-- `add_object` is only called for a uuid that is not registered yet. -/
def AddsOnlyNew (world : World) : Action → Prop
  | .event (.enter id) => world.AddsNew id
  | .event (.addObject id) => ∀ node ∈ world.objectDb.getInstance id,
      node.uuid ∉ world.manager.registry
  | .event (.process loader) => LoadsAddNew loader 4 (world.beforeLoads loader)
  | .load _ uuid => world.LoadAddsNew uuid
  | _ => True

instance (world : World) : ∀ action, Decidable (world.AddsOnlyNew action)
  | .event (.enter id) => inferInstanceAs (Decidable (world.AddsNew id))
  | .event (.addObject id) => inferInstanceAs (Decidable (
      ∀ node ∈ world.objectDb.getInstance id, node.uuid ∉ world.manager.registry))
  | .event (.process loader) =>
      inferInstanceAs (Decidable (LoadsAddNew loader 4 (world.beforeLoads loader)))
  | .load _ uuid => inferInstanceAs (Decidable (world.LoadAddsNew uuid))
  | .event (.create ..) | .event (.exit _) | .event (.reparent _) | .event (.queueFree _)
  | .event (.deleteQueued _) | .event (.removeObject _) | .event (.updateObject ..)
  | .event (.aabbChanged ..) | .event (.boxChanged ..) | .event (.loadProbe ..)
  | .event (.unloadProbe _) | .event .workerStep | .event .flushCallbacks | .event (.asyncSave _)
  | .result _ | .update _ | .unload _ => isTrue trivial

theorem Indexed.exitChild (indexed : world.Indexed) {id : ObjectID} {mount : Mount}
    {next : World} (exited : world.exitChild id mount = some next) : next.Indexed := by
  rcases exists_of_exitChild exited with ⟨_, _, _, rfl⟩
  exact indexed.removeChild id

theorem Indexed.step (indexed : world.Indexed) {event : Event} {next : World}
    (new : world.AddsOnlyNew (.event event)) (stepped : world.step event = some next) :
    next.Indexed := by
  cases happens_of_step stepped with
  | enter id node found =>
      have moved : (world.setMount id .orphan).Indexed := indexed
      apply moved.addChild
      intro other otherFound
      simp only [setMount, ObjectDB.getInstance_modify, if_true, found, Option.map_some,
        Option.mem_def, Option.some.injEq] at otherFound
      subst otherFound
      exact new node found
  | exit id => exact indexed.exitChild stepped
  | reparent id => exact indexed.exitChild stepped
  | deleteQueued id => exact indexed.removeChild id
  | addObject id node found => exact StreamManager.Mirrors.addObject indexed (new node found)
  | removeObject uuid =>
      simp only [Indexed, StreamManager.removeObject]
      split
      · exact indexed
      · exact StreamManager.Mirrors.of_eq indexed rfl rfl
  | updateObject id parentUuid => exact StreamManager.Mirrors.updateObject indexed id _
  | aabbChanged id aabb node found =>
      rcases StreamManager.exists_onObjectAabbChanged world.manager { node with aabb } with
        ⟨dirtyAabb, same⟩
      simp only [Indexed, same]
      split
      · exact StreamManager.Mirrors.of_eq indexed rfl rfl
      · exact indexed
  | loadProbe | unloadProbe => exact StreamManager.Mirrors.of_eq indexed rfl rfl
  | process loader =>
      rw [process_eq]
      split
      · exact indexed
      · exact StreamManager.Mirrors.of_eq ((indexed.beforeLoads loader).runLoads new) rfl rfl
  | flushCallbacks => exact indexed.flushCallbacks
  | create | queueFree | boxChanged | workerStep | asyncSave => exact indexed

theorem Indexed.act (indexed : world.Indexed) {action : Action} {next : World}
    (new : world.AddsOnlyNew action) (acted : world.act action = some next) : next.Indexed := by
  cases action with
  | event event => exact indexed.step new acted
  | result dbObjects =>
      rw [← Option.some.inj acted]
      exact indexed_onQueryResult world dbObjects
  | load loader uuid =>
      rw [← Option.some.inj acted]
      exact indexed.loadObjectScene new
  | update loader =>
      rw [← Option.some.inj acted]
      exact StreamManager.Mirrors.of_eq indexed rfl rfl
  | unload uuid =>
      rw [← Option.some.inj acted]
      exact indexed.unloadObject uuid

/-- In every state that events and handler calls reach, `c` is in `children_map_[p]` exactly when
`p` is not nil and `c` is registered with parent `p`. -/
theorem mirrors_of_reaches {db : StreamSqliteDB} {files : Table ScenePath PackedScene}
    {sceneCap nodeCap : ℕ} {uuidGenerator : ℕ → {uuid : Uuid // uuid ≠ Uuid.nil}}
    (reached : Run.Reaches act AddsOnlyNew (make db files sceneCap nodeCap uuidGenerator) world)
    (parent child : Uuid) :
    child ∈ world.manager.childrenOf parent ↔
      parent ≠ Uuid.nil ∧
        ∃ data, world.manager.registry.get? child = some data ∧ data.parentUuid = parent := by
  have start : (make db files sceneCap nodeCap uuidGenerator).Indexed := by
    intro parent child
    simp [make, StreamManager.make, StreamManager.mem_childrenOf]
  exact reached.invariant start (fun _ _ _ indexed new acted => indexed.act new acted) parent child

/-- An object enters, and another one is added below it. -/
def parentAndChild : List Action :=
  [.event (.create Uuid.nil Uuid.nil unitBox), .event (.enter 1),
    .event (.create 7 101 unitBox), .event (.addObject 2)]

theorem mirrors_parentAndChild :
    7 ∈ (Run.runAll act parentAndChild blank).manager.childrenOf 101 := by
  have reached : Run.Reaches act AddsOnlyNew blank (Run.runAll act parentAndChild blank) :=
    Run.reaches_runAll (by decide +kernel) (by decide +kernel)
  have registered : (Run.runAll act parentAndChild blank).manager.registry.get? 7 =
      some { parentUuid := 101, nodeRoot := 2 } := by
    decide +kernel
  exact (mirrors_of_reaches reached 101 7).mpr ⟨by decide, _, registered, rfl⟩

end Runs

end World

end GodotStream
