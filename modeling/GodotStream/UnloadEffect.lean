import GodotStream.ChildrenIndex
import GodotStream.Unloading

/-!
# The effect of an unload

`_unload_object` on a registry whose entries name their own attached nodes. The pending
set turns every exit signal of the loop into a save, so nothing is marked for removal,
and each node that leaves the tree is saved once and kept once under its own uuid.
-/

namespace GodotStream

open Storage

namespace World

variable {world before after : World}

/-- Every valid node root names an attached node with the uuid of its entry, or no object. -/
def RootsSound (world : World) : Prop :=
  ∀ uuid data node, world.manager.registry.get? uuid = some data →
    world.objectDb.getInstance data.nodeRoot = some node →
      node.mount = .manager ∧ node.uuid = uuid

/-- The nodes that leave the tree, in the order in which they are visited. -/
structure UnloadedAll (before after : World) (ids : List Uuid)
    (detached : List (ObjectID × StreamObjectNode)) : Prop where
  frame : after = { before with
    objectDb := after.objectDb
    saveTasks := after.saveTasks
    captures := after.captures
    manager := { before.manager with
      registry := after.manager.registry
      cache := { before.manager.cache with nodeCache := after.manager.cache.nodeCache }
      dirtyAabb := after.manager.dirtyAabb } }
  visited : (detached.map fun entry => entry.2.uuid).Sublist ids
  roots : ∀ entry ∈ detached, entry.2.mount = .manager ∧
    before.objectDb.getInstance entry.1 = some entry.2 ∧
    ∃ data, before.manager.registry.get? entry.2.uuid = some data ∧ data.nodeRoot = entry.1
  saved : ∃ saves, after.saveTasks = before.saveTasks ++ saves ∧
    saves.map (fun save => (save.1, save.2.root)) = detached.map fun entry =>
      (before.manager.objectScenePath entry.2.uuid, (before.packed entry.2).root)
  released : after.manager.cache.nodeCache = detached.foldl
    (fun nodeCache entry => (nodeCache.put entry.2.uuid entry.1).1) before.manager.cache.nodeCache
  nodes : ∀ id found, after.objectDb.getInstance id = some found →
    ∃ node, before.objectDb.getInstance id = some node ∧
      found = if id ∈ detached.map Prod.fst then { node with mount := .orphan } else node
  gone : ∀ id node, before.objectDb.getInstance id = some node →
    after.objectDb.getInstance id = none →
      id ∈ detached.map Prod.fst ∨ ∃ kept, before.manager.cache.nodeCache.peek kept = some id
  registry : ∀ uuid data, after.manager.registry.get? uuid = some data → data.nodeRoot ≠ 0 →
    before.manager.registry.get? uuid = some data
  cleared : ∀ uuid ∈ ids, ∀ data, after.manager.registry.get? uuid = some data →
    after.objectDb.getInstance data.nodeRoot = none

theorem getInstance_zero (objectDb : ObjectDB) : objectDb.getInstance 0 = none := by
  rw [Option.eq_none_iff_forall_ne_some]
  intro node found
  exact absurd (ObjectDB.issued_of_getInstance found).1 (Nat.lt_irrefl 0)

theorem unloadCollected_of_dead {objId : Uuid}
    (dead : world.objectDb.getInstance (world.manager.nodeRootOf objId) = none) :
    world.unloadCollected objId = world.touchEntry objId := by
  have same : (world.touchEntry objId).objectDb.getInstance (world.manager.nodeRootOf objId) =
      none := dead
  simp only [World.unloadCollected, nodeRootOf_touchEntry, same]

theorem unloadCollected_of_child (listening : world.listening = true) {data : ObjectData}
    {node : StreamObjectNode}
    (registered : world.manager.registry.get? node.uuid = some data)
    (found : world.objectDb.getInstance data.nodeRoot = some node)
    (child : node.mount = .manager) (pending : node.uuid ∈ world.manager.pendingRemoval) :
    ∃ objectDb saveTasks captures dirtyAabb,
      (∀ other, objectDb.getInstance other =
        if other = data.nodeRoot then some { node with mount := .orphan }
        else world.objectDb.getInstance other) ∧
      saveTasks = world.saveTasks ++
        [(world.manager.objectScenePath node.uuid, world.packed node)] ∧
      captures = world.captures + 1 ∧
      world.unloadCollected node.uuid =
        let kept := world.manager.cache.release objectDb node.uuid data.nodeRoot
        { world with
          objectDb := kept.2
          saveTasks
          captures
          manager := { world.manager with
            registry := world.manager.registry.modify node.uuid fun data =>
              { data with nodeRoot := 0 }
            cache := kept.1
            dirtyAabb } } := by
  rcases removeChild_of_pending listening found pending with
    ⟨objectDb, saveTasks, captures, dirtyAabb, detaches, nodes, saved, _⟩
  have root : world.manager.nodeRootOf node.uuid = data.nodeRoot := by
    simp only [StreamManager.nodeRootOf, registered, Option.getD_some]
  refine ⟨objectDb, saveTasks, captures, dirtyAabb, ?_, (saved child).1, (saved child).2, ?_⟩
  · simpa only [child, Mount.detached] using nodes
  · simp only [World.unloadCollected, touchEntry_of_mem (Table.mem_of_get? registered), root, found,
      detaches]
    rfl

theorem unloadedAll_touchEntry {objId : Uuid}
    (dead : world.objectDb.getInstance (world.manager.nodeRootOf objId) = none) :
    UnloadedAll world (world.touchEntry objId) [objId] [] where
  frame := rfl
  visited := List.nil_sublist _
  roots := by simp
  saved := ⟨[], by simp [touchEntry]⟩
  released := rfl
  nodes := fun id found foundEq => ⟨found, foundEq, by simp⟩
  gone := by
    intro id node found left
    rw [show (world.touchEntry objId).objectDb.getInstance id = _ from found] at left
    simp at left
  registry := by
    intro uuid data foundEq live
    simp only [touchEntry, Table.get?_touch] at foundEq
    split at foundEq
    case isTrue same =>
      subst same
      cases registered : world.manager.registry.get? uuid with
      | none =>
          rw [registered, Option.getD_none, Option.some.injEq] at foundEq
          exact absurd (congrArg ObjectData.nodeRoot foundEq.symm) live
      | some old => simpa [registered] using foundEq
    case isFalse => exact foundEq
  cleared := by
    intro uuid listed data foundEq
    rw [List.mem_singleton] at listed
    subst listed
    have root : (world.touchEntry uuid).manager.nodeRootOf uuid = data.nodeRoot := by
      simp only [StreamManager.nodeRootOf, foundEq, Option.getD_some]
    rw [nodeRootOf_touchEntry] at root
    exact root ▸ dead

theorem unloadedAll_of_child (listening : world.listening = true) {data : ObjectData}
    {node : StreamObjectNode} (registered : world.manager.registry.get? node.uuid = some data)
    (found : world.objectDb.getInstance data.nodeRoot = some node)
    (child : node.mount = .manager) (pending : node.uuid ∈ world.manager.pendingRemoval) :
    UnloadedAll world (world.unloadCollected node.uuid) [node.uuid] [(data.nodeRoot, node)] := by
  rcases unloadCollected_of_child listening registered found child pending with
    ⟨objectDb, saveTasks, captures, dirtyAabb, nodes, saves, _, unloads⟩
  have kept := ObjectSceneCache.objectDb_release world.manager.cache objectDb node.uuid
    data.nodeRoot
  rw [unloads]
  refine ⟨?_, List.Sublist.refl _, ?_, ⟨_, saves, rfl⟩, ?_, ?_, ?_, ?_, ?_⟩
  · simp only [ObjectSceneCache.release_fst]
  · intro entry listed
    rw [List.mem_singleton] at listed
    subst listed
    exact ⟨child, found, data, registered, rfl⟩
  · simp only [ObjectSceneCache.nodeCache_release, List.foldl_cons, List.foldl_nil]
  · intro id other otherFound
    have here : objectDb.getInstance id = some other := by
      rcases kept with same | ⟨_, evicted, _, _, same⟩
      · simpa only [same] using otherFound
      · simp only [same, ObjectDB.getInstance_free] at otherFound
        split at otherFound
        · simp at otherFound
        · exact otherFound
    rw [nodes] at here
    split at here
    case isTrue sameId =>
      rw [Option.some.injEq] at here
      exact ⟨node, sameId ▸ found, by simp [sameId, ← here]⟩
    case isFalse distinct => exact ⟨other, here, by simp [distinct]⟩
  · intro id other otherFound left
    have here : ∃ still, objectDb.getInstance id = some still := by
      rw [nodes]
      split
      · exact ⟨_, rfl⟩
      · exact ⟨other, otherFound⟩
    rcases here with ⟨still, stillFound⟩
    rcases kept with same | ⟨key, evicted, _, held, same⟩
    · simp [same, stillFound] at left
    · simp only [same, ObjectDB.getInstance_free] at left
      split at left
      case isTrue sameId => exact Or.inr ⟨key, sameId ▸ held⟩
      case isFalse => simp [stillFound] at left
  · intro uuid other otherFound live
    simp only [Table.get?_modify] at otherFound
    split at otherFound
    · rw [Option.some.injEq] at otherFound
      exact absurd (congrArg ObjectData.nodeRoot otherFound.symm) live
    · exact otherFound
  · intro uuid listed other otherFound
    rw [List.mem_singleton] at listed
    simp only [Table.get?_modify, listed, if_true, Option.some.injEq] at otherFound
    rw [← otherFound]
    exact getInstance_zero _

/-- One round of the loop. -/
theorem exists_unloadedAll_unloadCollected (sound : world.RootsSound)
    (listening : world.listening = true) {objId : Uuid}
    (pending : objId ∈ world.manager.pendingRemoval) :
    ∃ detached, UnloadedAll world (world.unloadCollected objId) [objId] detached := by
  cases live : world.objectDb.getInstance (world.manager.nodeRootOf objId) with
  | none =>
      rw [unloadCollected_of_dead live]
      exact ⟨[], unloadedAll_touchEntry live⟩
  | some node =>
      cases registered : world.manager.registry.get? objId with
      | none =>
          simp only [StreamManager.nodeRootOf, registered, Option.getD_none] at live
          rw [show (default : ObjectData).nodeRoot = 0 from rfl, getInstance_zero] at live
          simp at live
      | some data =>
          simp only [StreamManager.nodeRootOf, registered, Option.getD_some] at live
          rcases sound objId data node registered live with ⟨child, rfl⟩
          exact ⟨_, unloadedAll_of_child listening registered live child pending⟩

theorem UnloadedAll.mem_detached {ids : List Uuid}
    {detached : List (ObjectID × StreamObjectNode)} {id : ObjectID} {node : StreamObjectNode}
    (unloaded : UnloadedAll before after ids detached)
    (found : before.objectDb.getInstance id = some node) (listed : id ∈ detached.map Prod.fst) :
    (id, node) ∈ detached := by
  rcases List.mem_map.mp listed with ⟨entry, entryListed, rfl⟩
  have entryFound := (unloaded.roots entry entryListed).2.1
  rw [found, Option.some.injEq] at entryFound
  exact entryFound ▸ entryListed

theorem UnloadedAll.sound {ids : List Uuid} {detached : List (ObjectID × StreamObjectNode)}
    (unloaded : UnloadedAll before after ids detached) (sound : before.RootsSound) :
    after.RootsSound := by
  intro uuid data found registered live
  have nonZero : data.nodeRoot ≠ 0 := by
    intro isZero
    rw [isZero, getInstance_zero] at live
    simp at live
  have registeredBefore := unloaded.registry uuid data registered nonZero
  rcases unloaded.nodes _ _ live with ⟨node, nodeFound, same⟩
  rcases sound uuid data node registeredBefore nodeFound with ⟨child, carries⟩
  split at same
  case isTrue listed =>
    have entryListed := unloaded.mem_detached nodeFound listed
    have visited : uuid ∈ ids := by
      rw [← carries]
      exact unloaded.visited.subset (List.mem_map_of_mem entryListed)
    rw [unloaded.cleared uuid visited data registered] at live
    simp at live
  case isFalse => exact same ▸ ⟨child, carries⟩

/-- The node cache holds what it held and what was put into it. -/
theorem peek_foldl_put {detached : List (ObjectID × StreamObjectNode)}
    {nodeCache : FixedSizedCache Uuid ObjectID} {kept : Uuid} {id : ObjectID}
    (found : (detached.foldl (fun nodeCache entry => (nodeCache.put entry.2.uuid entry.1).1)
      nodeCache).peek kept = some id) :
    nodeCache.peek kept = some id ∨ id ∈ detached.map Prod.fst := by
  induction detached generalizing nodeCache with
  | nil => exact Or.inl found
  | cons entry rest ih =>
      rcases ih found with held | later
      · by_cases own : kept = entry.2.uuid
        · rw [own, FixedSizedCache.peek_put_self, Option.some.injEq] at held
          exact Or.inr (List.mem_map.mpr ⟨entry, List.mem_cons_self, held⟩)
        · exact Or.inl (FixedSizedCache.peek_put_of_ne own held)
      · exact Or.inr (List.mem_cons_of_mem _ later)

theorem UnloadedAll.trans {middle : World} {first second : List Uuid}
    {firstDetached secondDetached : List (ObjectID × StreamObjectNode)}
    (start : UnloadedAll before middle first firstDetached)
    (rest : UnloadedAll middle after second secondDetached) :
    UnloadedAll before after (first ++ second) (firstDetached ++ secondDetached) where
  frame := by
    rw [rest.frame, start.frame]
  visited := by
    rw [List.map_append]
    exact start.visited.append rest.visited
  roots := by
    intro entry listed
    rcases List.mem_append.mp listed with early | late
    · exact start.roots entry early
    · rcases rest.roots entry late with ⟨child, found, data, registered, root⟩
      rcases start.nodes _ _ found with ⟨node, nodeFound, same⟩
      have attached : entry.2 = node := by
        split at same
        · rw [same] at child
          simp at child
        · exact same
      have nonZero : data.nodeRoot ≠ 0 := by
        intro isZero
        rw [← root, isZero, getInstance_zero] at found
        simp at found
      exact ⟨child, attached ▸ nodeFound, data, start.registry _ _ registered nonZero, root⟩
  saved := by
    rcases start.saved with ⟨firstSaves, firstEq, firstScenes⟩
    rcases rest.saved with ⟨secondSaves, secondEq, secondScenes⟩
    refine ⟨firstSaves ++ secondSaves, by rw [secondEq, firstEq, List.append_assoc], ?_⟩
    rw [List.map_append, List.map_append, firstScenes, secondScenes]
    rw [start.frame]
    rfl
  released := by
    rw [List.foldl_append, ← start.released, rest.released]
  nodes := by
    intro id found foundEq
    rcases rest.nodes id found foundEq with ⟨middleNode, middleFound, same⟩
    rcases start.nodes id middleNode middleFound with ⟨node, nodeFound, middleSame⟩
    refine ⟨node, nodeFound, ?_⟩
    rw [List.map_append, same, middleSame]
    by_cases early : id ∈ firstDetached.map Prod.fst <;>
      by_cases late : id ∈ secondDetached.map Prod.fst <;> simp [early, late]
  gone := by
    intro id node found left
    rw [List.map_append]
    cases middleFound : middle.objectDb.getInstance id with
    | none =>
        rcases start.gone id node found middleFound with listed | held
        · exact Or.inl (List.mem_append_left _ listed)
        · exact Or.inr held
    | some middleNode =>
        rcases rest.gone id middleNode middleFound left with listed | ⟨kept, held⟩
        · exact Or.inl (List.mem_append_right _ listed)
        · rw [start.released] at held
          rcases peek_foldl_put held with before | listed
          · exact Or.inr ⟨kept, before⟩
          · exact Or.inl (List.mem_append_left _ listed)
  registry := fun uuid data registered live =>
    start.registry uuid data (rest.registry uuid data registered live) live
  cleared := by
    intro uuid listed data registered
    rcases List.mem_append.mp listed with early | late
    · by_cases isZero : data.nodeRoot = 0
      · rw [isZero]
        exact getInstance_zero _
      · have gone := start.cleared uuid early data (rest.registry uuid data registered isZero)
        rw [Option.eq_none_iff_forall_ne_some]
        intro node found
        rcases rest.nodes _ _ found with ⟨middleNode, middleFound, _⟩
        rw [gone] at middleFound
        simp at middleFound
    · exact rest.cleared uuid late data registered

/-- The whole loop, by induction on the collected uuids. -/
theorem exists_unloadedAll_foldl (ids : List Uuid) (sound : world.RootsSound)
    (listening : world.listening = true)
    (pending : ∀ id ∈ ids, id ∈ world.manager.pendingRemoval) :
    ∃ detached, UnloadedAll world (ids.foldl World.unloadCollected world) ids detached := by
  induction ids generalizing world with
  | nil =>
      refine ⟨[], rfl, List.Sublist.refl _, by simp, ⟨[], by simp⟩, rfl, ?_, ?_, ?_, by simp⟩
      · exact fun id found foundEq => ⟨found, foundEq, by simp⟩
      · intro id node found left
        rw [List.foldl_nil, found] at left
        simp at left
      · exact fun uuid data registered _ => registered
  | cons id rest ih =>
      rcases exists_unloadedAll_unloadCollected sound listening (pending id List.mem_cons_self) with
        ⟨firstDetached, first⟩
      have listeningNext : (world.unloadCollected id).listening = true := by
        rw [first.frame]
        exact listening
      have pendingNext : ∀ other ∈ rest,
          other ∈ (world.unloadCollected id).manager.pendingRemoval := by
        intro other listed
        rw [pendingRemoval_unloadCollected]
        exact pending other (List.mem_cons_of_mem _ listed)
      rcases ih (first.sound sound) listeningNext pendingNext with ⟨restDetached, later⟩
      exact ⟨_, first.trans later⟩

/-- Every valid node root names a child of the manager that carries the uuid of its entry. -/
def RootsAttached (world : World) : Prop :=
  ∀ uuid data, world.manager.registry.get? uuid = some data → data.nodeRoot ≠ 0 →
    ∃ node, world.objectDb.getInstance data.nodeRoot = some node ∧ node.mount = .manager ∧
      node.uuid = uuid

instance (world : World) : Decidable world.RootsAttached :=
  decidable_of_iff (∀ entry ∈ world.manager.registry.entries, entry.2.nodeRoot ≠ 0 →
    ∃ node ∈ world.objectDb.getInstance entry.2.nodeRoot,
      node.mount = .manager ∧ node.uuid = entry.1) (by
    constructor
    · intro entries uuid data registered live
      exact entries (uuid, data) (Table.get?_eq_some.mp registered) live
    · intro attached entry listed live
      exact attached entry.1 entry.2 (Table.get?_eq_some.mpr listed) live)

theorem RootsAttached.sound (attached : world.RootsAttached) : world.RootsSound := by
  intro uuid data node registered found
  have nonZero : data.nodeRoot ≠ 0 := by
    intro isZero
    rw [isZero, getInstance_zero] at found
    simp at found
  rcases attached uuid data registered nonZero with ⟨other, otherFound, child, carries⟩
  rw [found, Option.some.injEq] at otherFound
  exact otherFound ▸ ⟨child, carries⟩

/-- Unloading a registered object marks nothing for removal, forgets no pending upsert, leaves no
descendant with a live node, and saves and keeps each detached node once. A child that is destroyed
is detached before, unless the node cache held it already. -/
theorem unloadObject_deletesNothing (attached : world.RootsAttached)
    (nonePending : ∀ uuid, uuid ∉ world.manager.pendingRemoval)
    (listening : world.listening = true) {uuid : Uuid} (nonNil : uuid ≠ Uuid.nil)
    (registered : uuid ∈ world.manager.registry) :
    (world.unloadObject uuid).manager.objectRemoval = world.manager.objectRemoval ∧
    (world.unloadObject uuid).manager.toRemove = world.manager.toRemove ∧
    (world.unloadObject uuid).manager.toUpsertUuids = world.manager.toUpsertUuids ∧
    (∀ other, other ∉ (world.unloadObject uuid).manager.pendingRemoval) ∧
    (∀ other ∈ world.manager.collectDescendants uuid, ∀ data,
      (world.unloadObject uuid).manager.registry.get? other = some data →
        (world.unloadObject uuid).objectDb.getInstance data.nodeRoot = none) ∧
    ∃ detached : List (ObjectID × StreamObjectNode),
      (detached.map fun entry => entry.2.uuid).Nodup ∧
      (∀ entry ∈ detached, entry.2.uuid ∈ world.manager.collectDescendants uuid ∧
        entry.2.mount = .manager ∧ world.objectDb.getInstance entry.1 = some entry.2) ∧
      (∀ id node found, world.objectDb.getInstance id = some node → node.mount = .manager →
        (world.unloadObject uuid).objectDb.getInstance id = some found →
          (found.mount ≠ .manager ↔ (id, node) ∈ detached)) ∧
      (∀ id node, world.objectDb.getInstance id = some node →
        (world.unloadObject uuid).objectDb.getInstance id = none →
          (id, node) ∈ detached ∨ ∃ kept, world.manager.cache.nodeCache.peek kept = some id) ∧
      (world.unloadObject uuid).manager.cache.nodeCache = detached.foldl
        (fun nodeCache entry => (nodeCache.put entry.2.uuid entry.1).1)
        world.manager.cache.nodeCache ∧
      ∃ saves, (world.unloadObject uuid).saveTasks = world.saveTasks ++ saves ∧
        saves.map (fun save => (save.1, save.2.root)) = detached.map fun entry =>
          (world.manager.objectScenePath entry.2.uuid, (world.packed entry.2).root) := by
  let ids := world.manager.collectDescendants uuid
  let start : World := { world with
    manager := { world.manager with
      pendingRemoval := ids.foldl (fun set id => set.insert id ()) world.manager.pendingRemoval } }
  have unloads : world.unloadObject uuid =
      { ids.foldl World.unloadCollected start with
        manager := { (ids.foldl World.unloadCollected start).manager with
          pendingRemoval := ids.foldl Table.erase
            (ids.foldl World.unloadCollected start).manager.pendingRemoval } } := by
    simp only [World.unloadObject, nonNil, registered, not_true_eq_false, or_self, if_false]
    rfl
  have sound : start.RootsSound := attached.sound
  have pending : ∀ id ∈ ids, id ∈ start.manager.pendingRemoval :=
    fun id listed => mem_foldl_insert.mpr (Or.inl listed)
  rcases exists_unloadedAll_foldl ids sound listening pending with ⟨detached, unloaded⟩
  rw [unloads]
  have frame := unloaded.frame
  refine ⟨?_, ?_, ?_, ?_, unloaded.cleared, detached, ?_, ?_, ?_, ?_, ?_, ?_⟩
  · rw [frame]
  · rw [frame]
  · rw [frame]
  · intro other
    rw [Table.mem_iff_get?]
    simp only [Table.get?_foldl_erase]
    rintro ⟨_, found⟩
    split at found
    · simp at found
    case isFalse unlisted =>
      rw [frame] at found
      rcases mem_foldl_insert.mp (Table.mem_of_get? found) with listed | old
      · exact unlisted listed
      · exact nonePending other old
  · exact unloaded.visited.nodup (world.manager.collectDescendants_nodup uuid)
  · intro entry listed
    have roots := unloaded.roots entry listed
    exact ⟨unloaded.visited.subset (List.mem_map_of_mem listed), roots.1, roots.2.1⟩
  · intro id node found nodeFound child foundEq
    rcases unloaded.nodes id found foundEq with ⟨other, otherFound, same⟩
    rw [show start.objectDb.getInstance id = _ from nodeFound, Option.some.injEq] at otherFound
    subst otherFound
    rw [same]
    constructor
    · intro left
      split at left
      case isTrue listed => exact unloaded.mem_detached nodeFound listed
      case isFalse => exact absurd child left
    · intro listed
      rw [if_pos (List.mem_map_of_mem listed)]
      simp
  · intro id node nodeFound left
    rcases unloaded.gone id node nodeFound left with listed | held
    · exact Or.inl (unloaded.mem_detached nodeFound listed)
    · exact Or.inr held
  · exact unloaded.released
  · exact unloaded.saved

/-- An object enters, and a child enters below it. -/
def family : World :=
  Run.runAll act [.event (.create Uuid.nil Uuid.nil unitBox), .event (.enter 1),
    .event (.create Uuid.nil 101 unitBox), .event (.enter 2)] blank

theorem unload_family :
    (family.unloadObject 101).manager.objectRemoval = family.manager.objectRemoval ∧
    (family.unloadObject 101).manager.toRemove = family.manager.toRemove ∧
    (family.unloadObject 101).manager.toUpsertUuids = family.manager.toUpsertUuids ∧
    (∀ other, other ∉ (family.unloadObject 101).manager.pendingRemoval) ∧
    (∀ other ∈ family.manager.collectDescendants 101, ∀ data,
      (family.unloadObject 101).manager.registry.get? other = some data →
        (family.unloadObject 101).objectDb.getInstance data.nodeRoot = none) ∧
    ∃ detached : List (ObjectID × StreamObjectNode),
      (detached.map fun entry => entry.2.uuid).Nodup ∧
      (∀ entry ∈ detached, entry.2.uuid ∈ family.manager.collectDescendants 101 ∧
        entry.2.mount = .manager ∧ family.objectDb.getInstance entry.1 = some entry.2) ∧
      (∀ id node found, family.objectDb.getInstance id = some node → node.mount = .manager →
        (family.unloadObject 101).objectDb.getInstance id = some found →
          (found.mount ≠ .manager ↔ (id, node) ∈ detached)) ∧
      (∀ id node, family.objectDb.getInstance id = some node →
        (family.unloadObject 101).objectDb.getInstance id = none →
          (id, node) ∈ detached ∨ ∃ kept, family.manager.cache.nodeCache.peek kept = some id) ∧
      (family.unloadObject 101).manager.cache.nodeCache = detached.foldl
        (fun nodeCache entry => (nodeCache.put entry.2.uuid entry.1).1)
        family.manager.cache.nodeCache ∧
      ∃ saves, (family.unloadObject 101).saveTasks = family.saveTasks ++ saves ∧
        saves.map (fun save => (save.1, save.2.root)) = detached.map fun entry =>
          (family.manager.objectScenePath entry.2.uuid, (family.packed entry.2).root) := by
  have noneKept : family.manager.pendingRemoval.keys = [] := by decide +kernel
  have nonePending : ∀ uuid, uuid ∉ family.manager.pendingRemoval := by
    intro uuid
    rw [Table.mem_def, noneKept]
    exact List.not_mem_nil
  exact unloadObject_deletesNothing (by decide +kernel) nonePending (by decide +kernel)
    (show (101 : Uuid) ≠ Uuid.nil by decide) (by decide +kernel)

/-- A child enters whose parent is not registered. -/
def strayChild : List Action :=
  [.event (.create 2 Uuid.nil unitBox), .event (.enter 1), .event (.updateObject 1 1)]

/-- The handler refuses an unregistered parent and leaves its child attached. -/
theorem unload_strayChild :
    ∃ world : World, world.RootsAttached ∧ (∀ uuid, uuid ∉ world.manager.pendingRemoval) ∧
      world.listening = true ∧ 2 ∈ world.manager.collectDescendants 1 ∧
      ∃ data, (world.unloadObject 1).manager.registry.get? 2 = some data ∧
        (world.unloadObject 1).objectDb.getInstance data.nodeRoot ≠ none := by
  have none : (Run.runAll act strayChild blank).manager.pendingRemoval.keys = [] := by
    decide +kernel
  have left : ((Run.runAll act strayChild blank).unloadObject 1).manager.registry.get? 2 =
      some { parentUuid := 1, nodeRoot := 1 } := by
    decide +kernel
  refine ⟨Run.runAll act strayChild blank, by decide +kernel, ?_, by decide +kernel,
    by decide +kernel, _, left, by decide +kernel⟩
  intro uuid
  rw [Table.mem_def, none]
  exact List.not_mem_nil

end World

end GodotStream
