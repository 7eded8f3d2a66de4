import GodotStream.Identity

/-!
# What an unload does

The loop of `_unload_object` visits each collected uuid once. Either the registry names
no live node under it, and at most an empty entry is created, or the node is detached,
saved if it was a child of the manager, and kept in the node cache.
-/

namespace GodotStream

open Storage

/-- Where a node is after `remove_child` of the manager. -/
def Mount.detached : Mount → Mount
  | .manager => .orphan
  | mount => mount

theorem Mount.detached_ne_manager (mount : Mount) : mount.detached ≠ .manager := by
  cases mount <;> simp [Mount.detached]

namespace World

variable {world : World}

/-- The scene that is packed for a node. -/
def packed (world : World) (node : StreamObjectNode) : PackedScene :=
  { root := some { uuid := node.uuid, parentUuid := node.parentUuid, aabb := node.aabb }
    capture := world.captures }

/-- The unload of an object with a live node. -/
structure Unloaded (before after : World) (uuid : Uuid) (id : ObjectID)
    (node : StreamObjectNode) : Prop where
  frame : after = { before with
    objectDb := after.objectDb
    saveTasks := after.saveTasks
    captures := after.captures
    manager := { before.manager with
      registry := after.manager.registry
      cache := { before.manager.cache with nodeCache := after.manager.cache.nodeCache }
      dirtyAabb := after.manager.dirtyAabb } }
  registry : ∀ other, after.manager.registry.get? other =
    if other = uuid then
      (before.manager.registry.get? uuid).map fun data => { data with nodeRoot := 0 }
    else before.manager.registry.get? other
  nodeCache : after.manager.cache.nodeCache = (before.manager.cache.nodeCache.put uuid id).1
  detached : after.objectDb.getInstance id = some { node with mount := node.mount.detached }
  nodes : ∀ other found, other ≠ id → after.objectDb.getInstance other = some found →
    before.objectDb.getInstance other = some found
  kept : ∀ other found, other ≠ id → before.objectDb.getInstance other = some found →
    after.objectDb.getInstance other = some found ∨
      ∃ key, key ≠ uuid ∧ before.manager.cache.nodeCache.peek key = some other
  saved : node.mount = .manager →
    after.saveTasks = before.saveTasks ++
        [(before.manager.objectScenePath uuid, before.packed node)] ∧
      after.captures = before.captures + 1
  unsaved : node.mount ≠ .manager →
    after.saveTasks = before.saveTasks ∧ after.captures = before.captures

/-- During an unload `remove_child` takes the saving path, or refuses a node that is not a
child. -/
theorem removeChild_of_pending (listening : world.listening = true) {id : ObjectID}
    {node : StreamObjectNode} (found : world.objectDb.getInstance id = some node)
    (pending : node.uuid ∈ world.manager.pendingRemoval) :
    ∃ objectDb saveTasks captures dirtyAabb,
      world.removeChild id = { world with
        objectDb
        saveTasks
        captures
        manager := { world.manager with dirtyAabb } } ∧
      (∀ other, objectDb.getInstance other =
        if other = id then some { node with mount := node.mount.detached }
        else world.objectDb.getInstance other) ∧
      (node.mount = .manager →
        saveTasks = world.saveTasks ++
          [(world.manager.objectScenePath node.uuid, world.packed node)] ∧
        captures = world.captures + 1) ∧
      (node.mount ≠ .manager → saveTasks = world.saveTasks ∧ captures = world.captures) := by
  by_cases child : node.mount = .manager
  · refine ⟨world.objectDb.modify id fun node => { node with mount := .orphan }, _, _,
      world.manager.dirtyAabb.erase node.uuid, ?_, ?_, fun _ => ⟨rfl, rfl⟩,
      fun notChild => absurd child notChild⟩
    · simp only [removeChild, found, child, listening, onObjectExited, pending, true_or, if_true,
        saveObjectToFile, setMount]
      rfl
    · intro other
      simp only [ObjectDB.getInstance_modify, found, Option.map_some, child, Mount.detached]
  · refine ⟨world.objectDb, world.saveTasks, world.captures, world.manager.dirtyAabb, ?_, ?_,
      fun isChild => absurd isChild child, fun _ => ⟨rfl, rfl⟩⟩
    · simp only [removeChild, found, child, if_false]
    · intro other
      have same : node.mount.detached = node.mount := by
        cases mount : node.mount with
        | manager => exact absurd mount child
        | orphan => rfl
        | elsewhere => rfl
      split
      case isTrue sameId => rw [sameId, found, same]
      case isFalse => rfl

theorem touchEntry_of_mem {uuid : Uuid} (registered : uuid ∈ world.manager.registry) :
    world.touchEntry uuid = world := by
  simp only [touchEntry, Table.touch, registered, if_true]

@[simp]
theorem nodeRootOf_touchEntry (world : World) (uuid : Uuid) :
    (world.touchEntry uuid).manager.nodeRootOf uuid = world.manager.nodeRootOf uuid := by
  change (((world.manager.registry.touch uuid).get? uuid).getD default).nodeRoot = _
  simp [Table.get?_touch, StreamManager.nodeRootOf]

theorem Identified.unloaded (identified : world.Identified)
    (listening : world.listening = true) {objId : Uuid} {data : ObjectData}
    {node : StreamObjectNode} (registered : world.manager.registry.get? objId = some data)
    (found : world.objectDb.getInstance data.nodeRoot = some node)
    (pending : objId ∈ world.manager.pendingRemoval) :
    Unloaded world (world.unloadCollected objId) objId data.nodeRoot node := by
  have carries := ((identified.registry objId data registered).2 node found).1
  rcases removeChild_of_pending listening found (by rwa [carries]) with
    ⟨objectDb, saveTasks, captures, dirtyAabb, detaches, nodes, saved, unsaved⟩
  have root : world.manager.nodeRootOf objId = data.nodeRoot := by
    simp only [StreamManager.nodeRootOf, registered, Option.getD_some]
  have unloads : world.unloadCollected objId =
      let kept := world.manager.cache.release objectDb objId data.nodeRoot
      { world with
        objectDb := kept.2
        saveTasks
        captures
        manager := { world.manager with
          registry := world.manager.registry.modify objId fun data => { data with nodeRoot := 0 }
          cache := kept.1
          dirtyAabb } } := by
    simp only [World.unloadCollected, touchEntry_of_mem (Table.mem_of_get? registered), root, found,
      detaches]
    rfl
  have freed := ObjectSceneCache.objectDb_release world.manager.cache objectDb objId data.nodeRoot
  have identity (key : Uuid) (held : world.manager.cache.nodeCache.peek key = some data.nodeRoot) :
      key = objId :=
    ((identified.nodeCache key _ held).2 node found).1.symm.trans carries
  rw [unloads]
  refine ⟨?_, ?_, ?_, ?_, ?_, ?_, ?_, ?_⟩
  · simp only [ObjectSceneCache.release_fst]
  · intro other
    simp only [Table.get?_modify, registered, Option.getD_some, Option.map_some]
  · simp only [ObjectSceneCache.nodeCache_release]
  · rcases freed with same | ⟨key, evicted, distinct, held, same⟩
    · simp only [same, nodes, if_true]
    · have other : data.nodeRoot ≠ evicted := by
        rintro rfl
        exact distinct (identity key held)
      simp only [same, ObjectDB.getInstance_free, other, nodes, if_true, if_false]
  · intro other live distinct here
    rcases freed with same | ⟨key, evicted, _, held, same⟩
    · simpa only [same, nodes, distinct, if_false] using here
    · simp only [same, ObjectDB.getInstance_free, nodes, distinct, if_false] at here
      split at here
      · simp at here
      · exact here
  · intro other live distinct here
    rcases freed with same | ⟨key, evicted, keyDistinct, held, same⟩
    · simpa only [same, nodes, distinct, if_false, here] using Or.inl trivial
    · by_cases gone : other = evicted
      · exact Or.inr ⟨key, keyDistinct, gone ▸ held⟩
      · simpa only [same, ObjectDB.getInstance_free, nodes, distinct, gone, if_false, here] using
          Or.inl trivial
  · intro child
    simpa only [carries] using saved child
  · exact unsaved

theorem Identified.unloadCollected_cases (identified : world.Identified)
    (listening : world.listening = true) {objId : Uuid}
    (pending : objId ∈ world.manager.pendingRemoval) :
    world.unloadCollected objId = world.touchEntry objId ∨
      ∃ data node, world.manager.registry.get? objId = some data ∧
        world.objectDb.getInstance data.nodeRoot = some node ∧ node.uuid = objId ∧
        objId ≠ Uuid.nil ∧ data.nodeRoot ≠ 0 ∧
        Unloaded world (world.unloadCollected objId) objId data.nodeRoot node := by
  cases registered : world.manager.registry.get? objId with
  | none =>
      refine Or.inl ?_
      have root : world.manager.nodeRootOf objId = 0 := by
        simp only [StreamManager.nodeRootOf, registered, Option.getD_none]
        rfl
      have dead : (world.touchEntry objId).objectDb.getInstance 0 = none := by
        rw [Option.eq_none_iff_forall_ne_some]
        intro node found
        exact absurd (ObjectDB.issued_of_getInstance found).1 (Nat.lt_irrefl 0)
      simp only [World.unloadCollected, nodeRootOf_touchEntry, root, dead]
  | some data =>
      have same := touchEntry_of_mem (Table.mem_of_get? registered)
      have root : world.manager.nodeRootOf objId = data.nodeRoot := by
        simp only [StreamManager.nodeRootOf, registered, Option.getD_some]
      cases found : world.objectDb.getInstance data.nodeRoot with
      | none =>
          refine Or.inl ?_
          simp only [World.unloadCollected, same, root, found]
      | some node =>
          rcases (identified.registry objId data registered).2 node found with ⟨carries, nonNil⟩
          have nonZero : data.nodeRoot ≠ 0 :=
            Nat.pos_iff_ne_zero.mp (ObjectDB.issued_of_getInstance found).1
          refine Or.inr ⟨data, node, rfl, found, carries, nonNil, nonZero, ?_⟩
          exact identified.unloaded listening registered found pending

end World

end GodotStream
