import GodotStream.Deletion
import GodotStream.Presence
import GodotStream.QueryFailure
import GodotStream.StoredScenes

/-!
# Live nodes and registry entries

Between events every child of the manager is the node of the entry under its uuid, and
every entry with a node names a child with its uuid, apart from the uuids that wait for
removal. Two children with one uuid, a child or kept node that is destroyed, and a removal
of what is attached break this, and the runs here leave them out.
-/

namespace GodotStream

open Storage Run

namespace World

variable {world : World}

/-- Children and entries with a node correspond, apart from the recorded uuids. -/
structure Bijective (world : World) : Prop where
  children : ∀ id node, world.objectDb.getInstance id = some node → node.mount = .manager →
    node.uuid ∉ world.manager.objectRemoval →
      node.uuid ≠ Uuid.nil ∧
      ∃ data, world.manager.registry.get? node.uuid = some data ∧ data.nodeRoot = id
  roots : ∀ uuid data, world.manager.registry.get? uuid = some data →
    uuid ∉ world.manager.objectRemoval → data.nodeRoot ≠ 0 →
      ∃ node, world.objectDb.getInstance data.nodeRoot = some node ∧ node.mount = .manager ∧
        node.uuid = uuid

/-- No kept node is a child. -/
def KeptDetached (world : World) : Prop :=
  ∀ uuid id node, world.manager.cache.nodeCache.peek uuid = some id →
    world.objectDb.getInstance id = some node → node.mount ≠ .manager

/-- The invariant, which the handlers preserve too. -/
structure Linked (world : World) : Prop where
  bijective : world.Bijective
  kept : world.KeptDetached
  identified : world.Identified
  listening : world.listening = true

/-- Steps that leave the entries, the recorded uuids and the children. -/
theorem Linked.of_same {after : World} (linked : world.Linked) (identified : after.Identified)
    (listening : after.listening = true)
    (registry : after.manager.registry = world.manager.registry)
    (recorded : after.manager.objectRemoval = world.manager.objectRemoval)
    (nodeCache : ∀ uuid id, after.manager.cache.nodeCache.peek uuid = some id →
      world.manager.cache.nodeCache.peek uuid = some id)
    (children : world.objectDb.SameChildren after.objectDb) : after.Linked := by
  refine ⟨⟨?_, ?_⟩, ?_, identified, listening⟩
  · intro id node found child unrecorded
    rcases children.1 id node found child with ⟨old, oldFound, oldChild, same⟩
    rw [registry, ← same]
    rw [recorded, ← same] at unrecorded
    exact linked.bijective.children id old oldFound oldChild unrecorded
  · intro uuid data entry unrecorded live
    rw [registry] at entry
    rw [recorded] at unrecorded
    rcases linked.bijective.roots uuid data entry unrecorded live with ⟨node, found, child, carries⟩
    rcases children.2 data.nodeRoot node found child with ⟨now, nowFound, nowChild, same⟩
    exact ⟨now, nowFound, nowChild, same.trans carries⟩
  · intro uuid id node held found child
    rcases children.1 id node found child with ⟨old, oldFound, oldChild, _⟩
    exact linked.kept uuid id old (nodeCache uuid id held) oldFound oldChild

section Entering

/-- An orphan enters under a uuid that no child has. -/
theorem Linked.entered {after : World} {id : ObjectID} {node : StreamObjectNode}
    (linked : world.Linked) (entered : Entered world after id node)
    (found : world.objectDb.getInstance id = some node) (orphan : node.mount = .orphan)
    (notKept : ∀ uuid, world.manager.cache.nodeCache.peek uuid ≠ some id)
    (free : world.entersAs node ∈ world.manager.objectRemoval ∨
      world.Unattached (world.entersAs node))
    (identified : after.Identified) : after.Linked := by
  rcases entered.registry with ⟨parentUuid, registry⟩
  have recorded : after.manager.objectRemoval = world.manager.objectRemoval := by
    rw [entered.frame]
  refine ⟨⟨?_, ?_⟩, ?_, identified, ?_⟩
  · intro other live here child unrecorded
    rw [recorded] at unrecorded
    rw [entered.nodes] at here
    split at here
    case isTrue own =>
      rw [← Option.some.inj here]
      refine ⟨world.entersAs_ne_nil node, { parentUuid, nodeRoot := id }, ?_, own.symm⟩
      exact (registry _).trans (if_pos rfl)
    case isFalse =>
      have distinct : live.uuid ≠ world.entersAs node := by
        intro same
        rcases free with waits | unattached
        · exact unrecorded (same ▸ waits)
        · exact unattached other live here child same
      rw [registry, if_neg distinct]
      exact linked.bijective.children other live here child unrecorded
  · intro uuid data entry unrecorded nonZero
    rw [recorded] at unrecorded
    rw [registry] at entry
    split at entry
    case isTrue own =>
      rw [← Option.some.inj entry]
      exact ⟨_, (entered.nodes id).trans (if_pos rfl), rfl, own.symm⟩
    case isFalse =>
      rcases linked.bijective.roots uuid data entry unrecorded nonZero with
        ⟨live, here, child, carries⟩
      have distinct : data.nodeRoot ≠ id := by
        intro same
        rw [same, found, Option.some.injEq] at here
        rw [← here, orphan] at child
        simp at child
      exact ⟨live, (entered.nodes _).trans ((if_neg distinct).trans here), child, carries⟩
  · intro uuid other live held here
    have sameCache : after.manager.cache = world.manager.cache := by
      rw [entered.frame]
    rw [sameCache] at held
    rw [entered.nodes] at here
    split at here
    case isTrue own =>
      subst own
      exact absurd held (notKept uuid)
    case isFalse => exact linked.kept uuid other live held here
  · rw [entered.frame]
    exact linked.listening

/-- `add_child` of a free node, or of one that is mounted elsewhere. -/
theorem Linked.addChild (linked : world.Linked) {id : ObjectID} {node : StreamObjectNode}
    (found : world.objectDb.getInstance id = some node)
    (notKept : ∀ uuid, world.manager.cache.nodeCache.peek uuid ≠ some id)
    (free : world.entersAs node ∈ world.manager.objectRemoval ∨
      world.Unattached (world.entersAs node)) : (world.addChild id).Linked := by
  by_cases orphan : node.mount = .orphan
  · exact linked.entered (entered_addChild linked.listening found orphan) found orphan notKept free
      (linked.identified.addChild id)
  · have refused : world.addChild id = world := by
      apply addChild_of_mounted
      intro other otherFound
      rw [found, Option.some.injEq] at otherFound
      exact otherFound ▸ orphan
    rw [refused]
    exact linked

end Entering

section Loading

/-- The scene makes a node with the uuid, if it makes one of ours. -/
def MakesOwn (uuid : Uuid) (scene : PackedScene) : Prop :=
  ∀ root ∈ scene.root, root.uuid = uuid

theorem makesOwn_packed (world : World) (node : StreamObjectNode) :
    MakesOwn node.uuid (world.packed node) := by
  intro root isRoot
  rw [← Option.some.inj isRoot]

/-- The scene makes one node of ours, with the uuid. -/
def Carries (uuid : Uuid) (scene : PackedScene) : Prop :=
  scene.root.map SceneRoot.uuid = some uuid

theorem Carries.makesOwn {uuid : Uuid} {scene : PackedScene} (carries : Carries uuid scene) :
    MakesOwn uuid scene := by
  intro root isRoot
  rw [Carries, isRoot, Option.map_some, Option.some.injEq] at carries
  exact carries

theorem carries_packed (world : World) (node : StreamObjectNode) :
    Carries node.uuid (world.packed node) :=
  rfl

theorem Linked.acquired (linked : world.Linked) (uuid : Uuid) : (world.acquired uuid).Linked := by
  apply linked.of_same (linked.identified.acquired uuid) linked.listening rfl rfl
  · intro other id held
    simp only [World.acquired] at held
    rw [(ObjectSceneCache.acquire_caches _ _ _).1, FixedSizedCache.peek_pop] at held
    split at held
    · simp at held
    · exact held
  · exact ObjectDB.sameChildren_acquire _ _ _

theorem Linked.requestScene (linked : world.Linked) (loader : Loader) (uuid : Uuid) :
    (world.requestScene loader uuid).Linked := by
  have identified := linked.identified.requestScene loader uuid
  simp only [World.requestScene] at identified ⊢
  split at identified
  case isTrue asked =>
    rw [if_pos asked]
    exact linked.of_same identified linked.listening rfl rfl
      (by simp) (ObjectDB.SameChildren.refl _)
  case isFalse refused =>
    rw [if_neg refused]
    exact linked.of_same identified linked.listening rfl rfl
      (by simp) (ObjectDB.SameChildren.refl _)

/-- A registered object without a node is not attached, unless it waits for removal. -/
theorem Linked.unattached (linked : world.Linked) {uuid : Uuid} {data : ObjectData}
    (registered : world.manager.registry.get? uuid = some data) (rootless : data.nodeRoot = 0) :
    uuid ∈ world.manager.objectRemoval ∨ world.Unattached uuid := by
  by_cases recorded : uuid ∈ world.manager.objectRemoval
  · exact Or.inl recorded
  · refine Or.inr ?_
    rintro id node found child rfl
    rcases linked.bijective.children id node found child recorded with ⟨_, other, otherFound, same⟩
    rw [registered, Option.some.injEq] at otherFound
    rw [← otherFound, rootless] at same
    exact absurd same.symm (Nat.pos_iff_ne_zero.mp (ObjectDB.issued_of_getInstance found).1)

/-- With scenes that make nodes with their own uuids, a load asks for the scene or adds a node that
enters under the uuid and is kept no longer, if it does anything. -/
theorem Identified.load_cases (identified : world.Identified)
    (scenes : world.StoresScenes MakesOwn) (loader : Loader) (uuid : Uuid) :
    world.loadObjectScene loader uuid = world ∨
    (∃ data, world.manager.registry.get? uuid = some data ∧ data.nodeRoot = 0) ∧
      (world.loadObjectScene loader uuid = world.acquired uuid ∨
        world.loadObjectScene loader uuid = (world.acquired uuid).requestScene loader uuid ∨
        ∃ id node, (world.acquired uuid).objectDb.getInstance id = some node ∧
          (world.acquired uuid).entersAs node = uuid ∧
          (∀ other, (world.acquired uuid).manager.cache.nodeCache.peek other ≠ some id) ∧
          world.loadObjectScene loader uuid = (world.acquired uuid).addChild id) := by
  have held (other : Uuid) (id : ObjectID)
      (stillHeld : (world.acquired uuid).manager.cache.nodeCache.peek other = some id) :
      other ≠ uuid ∧ world.manager.cache.nodeCache.peek other = some id := by
    simp only [World.acquired] at stillHeld
    rw [(ObjectSceneCache.acquire_caches _ _ _).1, FixedSizedCache.peek_pop] at stillHeld
    split at stillHeld
    · simp at stillHeld
    case isFalse distinct => exact ⟨distinct, stillHeld⟩
  rcases loadObjectScene_cases world loader uuid with
    same | ⟨registered, nonNil,
      ⟨_, _, asked⟩ | ⟨id, usable, mounted⟩ | ⟨scene, unusable, cached, mounted⟩⟩
  · exact Or.inl same
  · exact Or.inr ⟨registered, Or.inr (Or.inl asked)⟩
  · refine Or.inr ⟨registered, Or.inr (Or.inr ?_)⟩
    have sameDb := (ObjectSceneCache.acquire_of_usable usable).2
    rcases usable with ⟨kept, node, found, _⟩
    have carries := ((identified.nodeCache uuid id kept).2 node found).1
    have here : (world.acquired uuid).objectDb.getInstance id = some node := by
      rw [show (world.acquired uuid).objectDb = world.objectDb from sameDb]
      exact found
    refine ⟨id, node, here, ?_, ?_, mounted⟩
    · rw [entersAs, if_neg (carries ▸ nonNil), carries]
    · intro other stillHeld
      rcases held other id stillHeld with ⟨distinct, before⟩
      exact distinct (((identified.nodeCache other id before).2 node found).1.symm.trans carries)
  · refine Or.inr ⟨registered, ?_⟩
    have made : (world.acquired uuid).objectDb = (scene.instantiate world.objectDb).2 := by
      rcases ObjectSceneCache.acquire_of_not_usable unusable with
        ⟨absent, _⟩ | ⟨other, stored, _, same⟩
      · rw [cached] at absent
        simp at absent
      · rw [cached, Option.some.injEq] at stored
        exact stored ▸ same
    cases root : scene.root with
    | none =>
        left
        rw [mounted, PackedScene.instantiate, root]
        rfl
    | some sceneRoot =>
        right
        right
        have carries : sceneRoot.uuid = uuid := scenes.cache.cached uuid scene cached sceneRoot root
        simp only [PackedScene.instantiate, root, ObjectDB.instantiate, mountInstance]
          at made mounted
        have here : (world.acquired uuid).objectDb.getInstance world.objectDb.nextId = some
            { uuid := sceneRoot.uuid, parentUuid := sceneRoot.parentUuid, aabb := sceneRoot.aabb
              capture := some scene.capture } := by
          rw [made, ObjectDB.getInstance_create, if_pos rfl]
        refine ⟨world.objectDb.nextId, _, here, ?_, ?_, mounted⟩
        · rw [entersAs, if_neg (carries ▸ nonNil)]
          exact carries
        · intro other stillHeld
          have issued := (identified.nodeCache other _ (held other _ stillHeld).2).1
          exact Nat.lt_irrefl _ issued

theorem Linked.loadObjectScene (linked : world.Linked) (scenes : world.StoresScenes MakesOwn)
    (loader : Loader) (uuid : Uuid) : (world.loadObjectScene loader uuid).Linked := by
  have acquired := linked.acquired uuid
  rcases linked.identified.load_cases scenes loader uuid with
    same | ⟨⟨data, registered, rootless⟩, left | asked | ⟨id, node, found, enters, taken, mounted⟩⟩
  · rw [same]
    exact linked
  · rw [left]
    exact acquired
  · rw [asked]
    exact acquired.requestScene loader uuid
  · rw [mounted]
    apply acquired.addChild found taken
    rw [enters]
    exact acquired.unattached registered rootless

theorem Linked.streamScenes (linked : world.Linked) (scenes : world.StoresScenes MakesOwn)
    (loader : Loader) : (world.streamScenes loader).Linked := by
  let both (other : World) : Prop := other.Linked ∧ other.StoresScenes MakesOwn
  have start : both world := ⟨linked, scenes⟩
  have streamed : both (world.streamScenes loader) := by
    apply streamScenes_rule start
    · rintro other ⟨otherLinked, otherScenes⟩
      refine ⟨?_, otherScenes.updateCache loader⟩
      exact otherLinked.of_same (otherLinked.identified.withCache (by simp)) otherLinked.listening
        rfl rfl (by simp) (ObjectDB.SameChildren.refl _)
    · rintro other loadQueue loadedQueue ⟨otherLinked, otherScenes⟩
      refine ⟨?_, otherScenes.withManager otherScenes.cache⟩
      exact otherLinked.of_same ⟨otherLinked.identified.registry, otherLinked.identified.nodeCache,
        otherLinked.identified.results⟩ otherLinked.listening rfl rfl (fun _ _ held => held)
        (ObjectDB.SameChildren.refl _)
    · rintro other uuid ⟨otherLinked, otherScenes⟩
      exact ⟨otherLinked.loadObjectScene otherScenes loader uuid,
        otherScenes.loadObjectScene loader uuid⟩
  exact streamed.1

end Loading

section Exits

/-- A child that is not queued for deletion is recorded when it is removed. -/
theorem manager_removeChild {id : ObjectID} {node : StreamObjectNode}
    {uuidGenerator : ℕ → {uuid : Uuid // uuid ≠ Uuid.nil}} (steady : world.Steady uuidGenerator)
    (found : world.objectDb.getInstance id = some node) (child : node.mount = .manager)
    (unqueued : node.queuedForDeletion = false) :
    (world.removeChild id).manager = world.manager.removeObject node.uuid := by
  have removing : ¬ (node.uuid ∈ world.manager.pendingRemoval ∨ node.queuedForDeletion = true ∨
      world.manager.queuedForDeletion = true) := by
    simp [steady.pendingRemoval, unqueued, steady.queuedForDeletion]
  simp only [removeChild, found, child, steady.listening, onObjectExited, removing, if_true,
    if_false, setMount]

theorem Linked.exitChild (linked : world.Linked)
    {uuidGenerator : ℕ → {uuid : Uuid // uuid ≠ Uuid.nil}} (steady : world.Steady uuidGenerator)
    {id : ObjectID} {mount : Mount} {next : World} (moved : mount ≠ .manager)
    (unqueued : ∀ node ∈ world.objectDb.getInstance id, node.queuedForDeletion = false)
    (exited : world.exitChild id mount = some next) : next.Linked := by
  rcases exists_of_exitChild exited with ⟨node, found, child, rfl⟩
  have sameManager := manager_removeChild steady found child (unqueued node found)
  have recorded (uuid : Uuid) (unrecorded :
      uuid ∉ ((world.removeChild id).setMount id mount).manager.objectRemoval) :
      uuid ∉ world.manager.objectRemoval ∧ (node.uuid = uuid → uuid = Uuid.nil) := by
    simp only [setMount, sameManager, StreamManager.removeObject] at unrecorded
    split at unrecorded
    case isTrue isNil => exact ⟨unrecorded, fun same => same ▸ isNil⟩
    case isFalse =>
      rw [Table.mem_insert, not_or] at unrecorded
      exact ⟨unrecorded.2, fun same => absurd same.symm unrecorded.1⟩
  have staying (other : ObjectID) (live : StreamObjectNode)
      (here : ((world.removeChild id).setMount id mount).objectDb.getInstance other = some live)
      (isChild : live.mount = .manager) :
      other ≠ id ∧ world.objectDb.getInstance other = some live := by
    simp only [setMount, ObjectDB.getInstance_modify, getInstance_removeChild found] at here
    split at here
    case isTrue =>
      rw [if_pos trivial, Option.map_some, Option.some.injEq] at here
      rw [← here] at isChild
      exact absurd isChild moved
    case isFalse distinct => exact ⟨distinct, here⟩
  have registry : ((world.removeChild id).setMount id mount).manager.registry =
      world.manager.registry := by
    simp only [setMount, sameManager, StreamManager.registry_removeObject]
  have cache : ((world.removeChild id).setMount id mount).manager.cache =
      world.manager.cache := by
    simp only [setMount, sameManager, StreamManager.cache_removeObject]
  refine ⟨⟨?_, ?_⟩, ?_, (linked.identified.removeChild id).setMount id mount, ?_⟩
  · intro other live here isChild unrecorded
    rw [registry]
    exact linked.bijective.children other live (staying other live here isChild).2 isChild
      (recorded live.uuid unrecorded).1
  · intro uuid data entry unrecorded nonZero
    rw [registry] at entry
    rcases recorded uuid unrecorded with ⟨before, own⟩
    rcases linked.bijective.roots uuid data entry before nonZero with
      ⟨live, here, isChild, carries⟩
    have distinct : data.nodeRoot ≠ id := by
      intro same
      rw [same, found, Option.some.injEq] at here
      subst here
      have nonNil := (linked.bijective.children id node found child (carries ▸ before)).1
      exact nonNil (carries.trans (own carries))
    refine ⟨live, ?_, isChild, carries⟩
    simp only [setMount, ObjectDB.getInstance_modify, getInstance_removeChild found, distinct,
      if_false]
    exact here
  · intro uuid other live held here isChild
    rw [cache] at held
    exact linked.kept uuid other live held (staying other live here isChild).2 isChild
  · simp only [setMount, sameManager, StreamManager.removeObject]
    split <;> exact linked.listening

/-- A node that is no child is destroyed. -/
theorem Linked.deleteQueued (linked : world.Linked) {id : ObjectID} {node : StreamObjectNode}
    (found : world.objectDb.getInstance id = some node) (detached : node.mount ≠ .manager) :
    Linked { world.removeChild id with objectDb := (world.removeChild id).objectDb.free id } := by
  have refused : world.removeChild id = world := by
    simp only [removeChild, found, detached, if_false]
  rw [refused]
  refine linked.of_same (linked.identified.withObjectDb (ObjectDB.keeps_free _ _)) linked.listening
    rfl rfl (fun _ _ held => held) ⟨ObjectDB.shrinks_free _ _, ?_⟩
  intro other live here child
  have distinct : other ≠ id := by
    rintro rfl
    rw [found, Option.some.injEq] at here
    exact detached (here ▸ child)
  exact ⟨live, (ObjectDB.getInstance_free _ _ _).trans ((if_neg distinct).trans here), child, rfl⟩

end Exits

section Updates

/-- The entry of a child is written with its own id. -/
theorem Linked.rewritten (linked : world.Linked) {objectDb : ObjectDB} {manager : StreamManager}
    {id : ObjectID} {node : StreamObjectNode}
    (found : world.objectDb.getInstance id = some node) (child : node.mount = .manager)
    (identified : Identified { world with objectDb, manager })
    (insideTree : manager.insideTree = world.manager.insideTree)
    (connected : manager.connected = world.manager.connected)
    (recorded : manager.objectRemoval = world.manager.objectRemoval)
    (cache : manager.cache = world.manager.cache)
    (registry : ∃ parentUuid, ∀ uuid, manager.registry.get? uuid =
      if uuid = node.uuid then some { parentUuid, nodeRoot := id }
      else world.manager.registry.get? uuid)
    (children : world.objectDb.SameChildren objectDb) :
    Linked { world with objectDb, manager } := by
  rcases registry with ⟨parentUuid, registry⟩
  refine ⟨⟨?_, ?_⟩, ?_, identified, ?_⟩
  · intro other live here isChild unrecorded
    rw [show ({ world with objectDb, manager } : World).manager.objectRemoval = _ from recorded]
      at unrecorded
    rcases children.1 other live here isChild with ⟨old, oldFound, oldChild, same⟩
    rw [← same] at unrecorded ⊢
    rcases linked.bijective.children other old oldFound oldChild unrecorded with
      ⟨nonNil, data, entry, root⟩
    refine ⟨nonNil, ?_⟩
    rw [show ({ world with objectDb, manager } : World).manager.registry.get? old.uuid = _ from
      registry old.uuid]
    split
    case isFalse => exact ⟨data, entry, root⟩
    case isTrue own =>
      -- both are children with this uuid, so they are the node of its entry
      rw [own] at unrecorded entry
      rcases linked.bijective.children id node found child unrecorded with
        ⟨_, other, otherEntry, otherRoot⟩
      rw [entry, Option.some.injEq] at otherEntry
      subst otherEntry
      exact ⟨_, rfl, otherRoot.symm.trans root⟩
  · intro uuid data entry unrecorded nonZero
    rw [show ({ world with objectDb, manager } : World).manager.objectRemoval = _ from recorded]
      at unrecorded
    rw [show ({ world with objectDb, manager } : World).manager.registry.get? uuid = _ from
      registry uuid] at entry
    split at entry
    case isTrue own =>
      rw [← Option.some.inj entry]
      rcases children.2 id node found child with ⟨now, nowFound, nowChild, same⟩
      exact ⟨now, nowFound, nowChild, same.trans own.symm⟩
    case isFalse =>
      rcases linked.bijective.roots uuid data entry unrecorded nonZero with
        ⟨live, here, isChild, carries⟩
      rcases children.2 data.nodeRoot live here isChild with ⟨now, nowFound, nowChild, same⟩
      exact ⟨now, nowFound, nowChild, same.trans carries⟩
  · intro uuid other live held here isChild
    rcases children.1 other live here isChild with ⟨old, oldFound, oldChild, _⟩
    exact linked.kept uuid other old (cache ▸ held) oldFound oldChild
  · change (manager.insideTree && manager.connected) = true
    rw [insideTree, connected]
    exact linked.listening

end Updates

section Delivery

/-- During a delivery an entry is created without a node, or an object is detached with its
entry. -/
theorem Linked.unloadCollected (linked : world.Linked) {objId : Uuid}
    (pending : objId ∈ world.manager.pendingRemoval) : (world.unloadCollected objId).Linked := by
  have identified := linked.identified.unloadCollected objId
  rcases linked.identified.unloadCollected_cases linked.listening pending with
    same | ⟨data, node, registered, found, carries, _, _, unloaded⟩
  · rw [same] at identified ⊢
    refine ⟨⟨?_, ?_⟩, linked.kept, identified, linked.listening⟩
    · intro id live here child unrecorded
      rcases linked.bijective.children id live here child unrecorded with
        ⟨nonNil, data, entry, root⟩
      refine ⟨nonNil, data, ?_, root⟩
      simp only [touchEntry, Table.get?_touch]
      split
      case isTrue own => rw [← own, entry, Option.getD_some]
      case isFalse => exact entry
    · intro uuid data entry unrecorded nonZero
      simp only [touchEntry, Table.get?_touch] at entry
      split at entry
      case isTrue own =>
        subst own
        cases stored : world.manager.registry.get? uuid with
        | none =>
            rw [stored, Option.getD_none, Option.some.injEq] at entry
            rw [← entry] at nonZero
            exact absurd rfl nonZero
        | some old =>
            rw [stored, Option.getD_some] at entry
            exact linked.bijective.roots uuid data (stored.trans entry) unrecorded nonZero
      case isFalse => exact linked.bijective.roots uuid data entry unrecorded nonZero
  · have recorded : (world.unloadCollected objId).manager.objectRemoval =
        world.manager.objectRemoval := by
      rw [unloaded.frame]
    have staying (other : ObjectID) (live : StreamObjectNode)
        (here : (world.unloadCollected objId).objectDb.getInstance other = some live)
        (isChild : live.mount = .manager) :
        other ≠ data.nodeRoot ∧ world.objectDb.getInstance other = some live := by
      have distinct : other ≠ data.nodeRoot := by
        rintro rfl
        rw [unloaded.detached, Option.some.injEq] at here
        rw [← here] at isChild
        exact Mount.detached_ne_manager _ isChild
      exact ⟨distinct, unloaded.nodes other live distinct here⟩
    refine ⟨⟨?_, ?_⟩, ?_, identified, ?_⟩
    · intro other live here isChild unrecorded
      rcases staying other live here isChild with ⟨distinct, before⟩
      rw [recorded] at unrecorded
      rcases linked.bijective.children other live before isChild unrecorded with
        ⟨nonNil, entryData, entry, root⟩
      refine ⟨nonNil, entryData, ?_, root⟩
      rw [unloaded.registry, if_neg]
      · exact entry
      · intro own
        rw [own, registered, Option.some.injEq] at entry
        exact distinct (root.symm.trans (entry ▸ rfl))
    · intro uuid entryData entry unrecorded nonZero
      rw [recorded] at unrecorded
      rw [unloaded.registry] at entry
      split at entry
      case isTrue =>
        rw [registered, Option.map_some, Option.some.injEq] at entry
        rw [← entry] at nonZero
        exact absurd rfl nonZero
      case isFalse other =>
        rcases linked.bijective.roots uuid entryData entry unrecorded nonZero with
          ⟨live, here, isChild, carriesToo⟩
        have distinct : entryData.nodeRoot ≠ data.nodeRoot := by
          intro same
          rw [same, found, Option.some.injEq] at here
          exact other (carriesToo.symm.trans ((here ▸ rfl : live.uuid = node.uuid).trans carries))
        rcases unloaded.kept entryData.nodeRoot live distinct here with stays | ⟨key, _, held⟩
        · exact ⟨live, stays, isChild, carriesToo⟩
        · exact absurd isChild (linked.kept key entryData.nodeRoot live held here)
    · intro uuid other live held here isChild
      rcases staying other live here isChild with ⟨distinct, before⟩
      rw [unloaded.nodeCache] at held
      by_cases own : uuid = objId
      · rw [own, FixedSizedCache.peek_put_self, Option.some.injEq] at held
        exact distinct held.symm
      · exact linked.kept uuid other live (FixedSizedCache.peek_put_of_ne own held) before isChild
    · rw [unloaded.frame]
      exact linked.listening

/-- The unload of an object takes its node from its entry. -/
theorem Linked.rootless_unloadCollected (linked : world.Linked) {objId : Uuid}
    (pending : objId ∈ world.manager.pendingRemoval)
    (unrecorded : objId ∉ world.manager.objectRemoval) :
    Rootless objId (world.unloadCollected objId) := by
  by_cases rootless : Rootless objId world
  · exact rootless.unloadCollected objId
  · simp only [Rootless, not_forall] at rootless
    rcases rootless with ⟨data, registered, nonZero⟩
    rcases linked.bijective.roots objId data registered unrecorded nonZero with ⟨node, found, _, _⟩
    have unloaded := linked.identified.unloaded linked.listening registered found pending
    intro now entry
    rw [unloaded.registry, if_pos rfl, registered, Option.map_some, Option.some.injEq] at entry
    rw [← entry]

theorem Linked.withPending (linked : world.Linked) (pendingRemoval : Table Uuid Unit) :
    Linked { world with manager := { world.manager with pendingRemoval } } :=
  ⟨⟨linked.bijective.children, linked.bijective.roots⟩, linked.kept,
    ⟨linked.identified.registry, linked.identified.nodeCache, linked.identified.results⟩,
    linked.listening⟩

theorem Linked.recorded_unloadCollected (linked : world.Linked) {objId : Uuid}
    (pending : objId ∈ world.manager.pendingRemoval) :
    (world.unloadCollected objId).manager.objectRemoval = world.manager.objectRemoval := by
  rcases linked.identified.unloadCollected_cases linked.listening pending with
    same | ⟨_, _, _, _, _, _, _, unloaded⟩
  · rw [same]
    rfl
  · rw [unloaded.frame]

theorem Linked.unloadObject (linked : world.Linked) (uuid : Uuid) :
    (world.unloadObject uuid).Linked ∧
      (world.unloadObject uuid).manager.objectRemoval = world.manager.objectRemoval := by
  let unloading (other : World) : Prop :=
    other.Linked ∧ other.manager.objectRemoval = world.manager.objectRemoval
  have start : unloading world := ⟨linked, rfl⟩
  have unloaded : unloading (world.unloadObject uuid) := by
    apply unloadObject_rule start
    · rintro other pendingRemoval ⟨otherLinked, recorded⟩
      exact ⟨otherLinked.withPending pendingRemoval, recorded⟩
    · rintro other objId ⟨otherLinked, recorded⟩ pending _
      exact ⟨otherLinked.unloadCollected pending,
        (otherLinked.recorded_unloadCollected pending).trans recorded⟩
  exact unloaded

/-- The unload of a registered object takes the nodes from all entries below it. -/
theorem Linked.rootless_unloadObject (linked : world.Linked) {uuid lower : Uuid}
    (nonNil : uuid ≠ Uuid.nil) (registered : uuid ∈ world.manager.registry)
    (collected : lower ∈ world.manager.collectDescendants uuid)
    (unrecorded : lower ∉ world.manager.objectRemoval) :
    Rootless lower (world.unloadObject uuid) := by
  let unloading (other : World) : Prop :=
    other.Linked ∧ other.manager.objectRemoval = world.manager.objectRemoval ∧
      ∀ id ∈ world.manager.collectDescendants uuid, id ∈ other.manager.pendingRemoval
  have kept (other : World) (objId : Uuid)
      (objCollected : objId ∈ world.manager.collectDescendants uuid) (inside : unloading other) :
      unloading (other.unloadCollected objId) := by
    rcases inside with ⟨otherLinked, recorded, pending⟩
    refine ⟨otherLinked.unloadCollected (pending objId objCollected),
      (otherLinked.recorded_unloadCollected (pending objId objCollected)).trans recorded, ?_⟩
    rw [pendingRemoval_unloadCollected]
    exact pending
  simp only [World.unloadObject]
  split
  case isTrue skipped =>
    rcases skipped with isNil | unregistered
    · exact absurd isNil nonNil
    · exact absurd registered unregistered
  case isFalse =>
    let start : World := { world with
      manager := { world.manager with
        pendingRemoval := (world.manager.collectDescendants uuid).foldl
          (fun set id => set.insert id ()) world.manager.pendingRemoval } }
    have initially : unloading start :=
      ⟨linked.withPending _, rfl, fun id listed => mem_foldl_insert.mpr (Or.inl listed)⟩
    have rootless : Rootless lower
        ((world.manager.collectDescendants uuid).foldl World.unloadCollected start) := by
      apply foldl_establishes collected initially kept
      · rintro other ⟨otherLinked, recorded, pending⟩
        apply otherLinked.rootless_unloadCollected (pending lower collected)
        rw [recorded]
        exact unrecorded
      · exact fun other objId _ _ otherRootless => otherRootless.unloadCollected objId
    exact rootless

/-- After its unload an object has no node. -/
theorem Linked.rootless_unloaded (linked : world.Linked) {uuid : Uuid} (nonNil : uuid ≠ Uuid.nil)
    (unrecorded : uuid ∉ world.manager.objectRemoval) :
    Rootless uuid (world.unloadObject uuid) := by
  by_cases registered : uuid ∈ world.manager.registry
  · apply linked.rootless_unloadObject nonNil registered ?_ unrecorded
    exact StreamManager.mem_collectDescendants.mpr Relation.ReflTransGen.refl
  · intro data found
    simp only [World.unloadObject, registered, not_false_eq_true, or_true, if_true] at found
    exact absurd (Table.mem_of_get? found) registered

/-- An entry without a node is erased. -/
theorem Linked.eraseRegistryEntry (linked : world.Linked) {uuid : Uuid}
    (rootless : uuid ≠ Uuid.nil → uuid ∉ world.manager.objectRemoval → Rootless uuid world) :
    Linked { world with manager := world.manager.eraseRegistryEntry uuid } := by
  refine ⟨⟨?_, ?_⟩, linked.kept, ?_, linked.listening⟩
  · intro id live here child unrecorded
    rcases linked.bijective.children id live here child unrecorded with ⟨nonNil, data, entry, root⟩
    refine ⟨nonNil, data, ?_, root⟩
    simp only [StreamManager.eraseRegistryEntry, Table.get?_erase]
    split
    case isFalse => exact entry
    case isTrue own =>
      rw [← own] at rootless
      have isZero := rootless nonNil unrecorded data entry
      rw [root] at isZero
      exact absurd isZero (Nat.pos_iff_ne_zero.mp (ObjectDB.issued_of_getInstance here).1)
  · intro other data entry unrecorded nonZero
    simp only [StreamManager.eraseRegistryEntry, Table.get?_erase] at entry
    split at entry
    · simp at entry
    · exact linked.bijective.roots other data entry unrecorded nonZero
  · exact linked.identified.withManager (linked.identified.registry.erase rfl)
      linked.identified.nodeCache

theorem Linked.applyObjects (linked : world.Linked) {dbObjects : Table Uuid ObjectData}
    (rootless : ∀ uuid data, dbObjects.get? uuid = some data → data.nodeRoot = 0) :
    Linked { world with manager := world.manager.applyObjects dbObjects } := by
  have registry (uuid : Uuid) := StreamManager.get?_applyObjects world.manager dbObjects uuid
  rcases StreamManager.exists_applyObjects world.manager dbObjects with ⟨_, _, applied⟩
  refine ⟨⟨?_, ?_⟩, ?_, ?_, ?_⟩
  · intro id live here child unrecorded
    have before : live.uuid ∉ world.manager.objectRemoval := by
      rw [applied] at unrecorded
      exact unrecorded
    rcases linked.bijective.children id live here child before with ⟨nonNil, data, entry, root⟩
    refine ⟨nonNil, ?_⟩
    simp only [registry, entry]
    split
    · exact ⟨data, rfl, root⟩
    · exact ⟨_, rfl, root⟩
  · intro uuid data entry unrecorded nonZero
    have before : uuid ∉ world.manager.objectRemoval := by
      rw [applied] at unrecorded
      exact unrecorded
    simp only [registry] at entry
    split at entry
    case h_1 => exact linked.bijective.roots uuid data entry before nonZero
    case h_2 row listed =>
      split at entry
      case h_1 =>
        rw [← Option.some.inj entry] at nonZero
        exact absurd (rootless uuid row listed) nonZero
      case h_2 stored found =>
        rw [← Option.some.inj entry] at nonZero ⊢
        exact linked.bijective.roots uuid stored found before nonZero
  · intro uuid id live held
    rw [applied] at held
    exact linked.kept uuid id live held
  · exact linked.identified.withManager (linked.identified.registry.applyObjects rootless)
      (by simpa [StreamManager.CacheNamed] using linked.identified.nodeCache)
  · rw [applied]
    exact linked.listening

theorem Linked.onQueryResult (linked : world.Linked) {dbObjects : Table Uuid ObjectData}
    (rootless : ∀ uuid data, dbObjects.get? uuid = some data → data.nodeRoot = 0) :
    (world.onQueryResult dbObjects).Linked := by
  have unloaded : ((world.manager.toUnload dbObjects).foldl World.unloadStale world).Linked := by
    apply List.foldlRecOn (motive := Linked) _ _ linked
    intro other otherLinked uuid _
    rcases otherLinked.unloadObject uuid with ⟨detached, recorded⟩
    apply detached.eraseRegistryEntry
    rw [recorded]
    exact otherLinked.rootless_unloaded
  exact unloaded.applyObjects rootless

theorem Linked.flushCallbacks (linked : world.Linked) : world.flushCallbacks.Linked := by
  apply flushCallbacks_rule linked
  · intro worker running
    refine ⟨⟨linked.bijective.children, linked.bijective.roots⟩, linked.kept, ?_, linked.listening⟩
    refine ⟨linked.identified.registry, linked.identified.nodeCache, ?_⟩
    intro other otherRunning dbObjects completed
    rw [← Option.some.inj otherRunning] at completed
    simp at completed
  · intro other worker dbObjects otherLinked running completed
    exact otherLinked.onQueryResult (linked.identified.results worker running dbObjects completed)

end Delivery

section Frames

/-- Nothing attached is collected by the removals. -/
def RemovesDetached (world : World) : Prop :=
  ∀ removed ∈ world.manager.objectRemoval.keys,
    ∀ lower ∈ world.manager.collectDescendants removed, world.Unattached lower

theorem Linked.runRemovals (linked : world.Linked) (detached : world.RemovesDetached) :
    world.runRemovals.Linked := by
  have identified := linked.identified.runRemovals
  have frame := (sparesEntry_runRemovals Uuid.nil world).frame
  have sameDb : world.runRemovals.objectDb = world.objectDb := by rw [frame]
  refine ⟨⟨?_, ?_⟩, ?_, identified, ?_⟩
  · intro id live here child _
    rw [sameDb] at here
    have uncollected : ∀ removed ∈ world.manager.objectRemoval.keys,
        live.uuid ∉ world.manager.collectDescendants removed :=
      fun removed recorded collected =>
        detached removed recorded live.uuid collected id live here child rfl
    have unrecorded : live.uuid ∉ world.manager.objectRemoval := fun recorded =>
      uncollected live.uuid recorded
        (StreamManager.mem_collectDescendants.mpr Relation.ReflTransGen.refl)
    rw [(keepsObject_runRemovals uncollected).entry]
    exact linked.bijective.children id live here child unrecorded
  · intro uuid data entry _ nonZero
    have present := Table.mem_of_get? entry
    rw [((sparesEntry_runRemovals uuid world).entry fun _ => present).1] at entry
    rw [sameDb]
    exact linked.bijective.roots uuid data entry
      (fun recorded => not_mem_registry_foldl_removeObject recorded world present) nonZero
  · intro uuid id live held here
    rw [sameDb] at here
    rw [frame] at held
    have cache : world.runRemovals.manager.cache.nodeCache = world.manager.cache.nodeCache := by
      let same (other : World) : Prop :=
        other.manager.cache.nodeCache = world.manager.cache.nodeCache
      have start : same world := rfl
      have removed : same world.runRemovals := by
        apply runRemovals_rule start
        · intro other uuid otherSame _
          apply _removeObject_rule otherSame
          · exact fun inner id innerSame _ => (nodeCache_removeCollected inner id).trans innerSame
          · exact fun _ _ innerSame => innerSame
        · exact fun _ otherSame => otherSame
      exact removed
    exact linked.kept uuid id live (cache ▸ held) here
  · rw [frame]
    exact linked.listening

theorem Linked.process (linked : world.Linked) (detached : world.RemovesDetached)
    (scenes : world.StoresScenes MakesOwn) (loader : Loader) : (world.process loader).Linked := by
  have removed := linked.runRemovals detached
  have removedScenes := scenes.runRemovals
  simp only [World.process]
  split
  · exact linked
  · split
    · exact removed.streamScenes removedScenes loader
    · refine Linked.streamScenes ?_ removedScenes.flushPendingDbOps.queryProbes loader
      refine removed.of_same removed.identified.flushPendingDbOps.queryProbes ?_ ?_ ?_ ?_ ?_
      · rw [queryProbes_frame, flushPendingDbOps_frame]
        exact removed.listening
      · rw [queryProbes_frame, flushPendingDbOps_frame]
      · rw [queryProbes_frame, flushPendingDbOps_frame]
      · rw [queryProbes_frame, flushPendingDbOps_frame]
        exact fun _ _ held => held
      · rw [queryProbes_frame, flushPendingDbOps_frame]
        exact ObjectDB.SameChildren.refl _

end Frames

/-- A node enters that is not kept in the cache, under a uuid that no child has; a child that leaves
is not queued for deletion; only what is detached is removed, and destroyed only when the cache does
not keep it; and only children are registered. -/
def Regular (world : World) : Event → Prop
  | .enter id => ∀ node ∈ world.objectDb.getInstance id,
      world.manager.cache.nodeCache.peek node.uuid ≠ some id ∧
      (world.entersAs node ∈ world.manager.objectRemoval ∨
        world.Unattached (world.entersAs node))
  | .exit id | .reparent id => ∀ node ∈ world.objectDb.getInstance id,
      node.queuedForDeletion = false
  | .deleteQueued id => ∀ node ∈ world.objectDb.getInstance id,
      node.mount ≠ .manager ∧ world.manager.cache.nodeCache.peek node.uuid ≠ some id
  | .addObject id | .updateObject id _ => ∀ node ∈ world.objectDb.getInstance id,
      node.mount = .manager
  | .process _ => world.RemovesDetached
  | _ => True

instance decidableRegular (world : World) : ∀ event, Decidable (Regular world event)
  | .enter _ | .exit _ | .reparent _ | .deleteQueued _ | .addObject _ | .updateObject ..
  | .process _ => by
      simp only [Regular, RemovesDetached]
      infer_instance
  | .create .. | .queueFree _ | .removeObject _ | .aabbChanged .. | .boxChanged ..
  | .loadProbe .. | .unloadProbe _ | .workerStep | .flushCallbacks | .asyncSave _ => isTrue trivial

section Steps

variable {id : ObjectID} {node : StreamObjectNode}

/-- A node that is rewritten in place stays the same child. -/
theorem sameChildren_withNode (found : world.objectDb.getInstance id = some node)
    {changed : StreamObjectNode} (sameMount : changed.mount = node.mount)
    (sameUuid : changed.uuid = node.uuid) :
    world.objectDb.SameChildren (world.objectDb.modify id fun _ => changed) := by
  apply ObjectDB.sameChildren_modify
  intro other otherFound
  rw [found, Option.some.injEq] at otherFound
  exact otherFound ▸ ⟨sameMount, sameUuid⟩

theorem Linked.setOrphan (linked : world.Linked)
    (found : world.objectDb.getInstance id = some node) (detached : node.mount ≠ .manager) :
    (world.setMount id .orphan).Linked := by
  refine linked.of_same (linked.identified.setMount id .orphan) linked.listening rfl rfl
    (fun _ _ held => held) ⟨?_, ?_⟩
  · exact ObjectDB.shrinks_modify fun _ _ child => by simp at child
  · intro other live otherFound child
    have distinct : other ≠ id := by
      rintro rfl
      rw [found, Option.some.injEq] at otherFound
      exact detached (otherFound ▸ child)
    refine ⟨live, ?_, child, rfl⟩
    simp only [setMount, ObjectDB.getInstance_modify, distinct, if_false]
    exact otherFound

theorem Linked.enter (linked : world.Linked)
    (found : world.objectDb.getInstance id = some node) (detached : node.mount ≠ .manager)
    (regular : Regular world (.enter id)) : ((world.setMount id .orphan).addChild id).Linked := by
  rcases regular node found with ⟨notKept, free⟩
  have here : (world.setMount id .orphan).objectDb.getInstance id =
      some { node with mount := .orphan } := by
    simp [setMount, ObjectDB.getInstance_modify, found]
  apply (linked.setOrphan found detached).addChild here
  · intro uuid held
    rcases (linked.identified.nodeCache uuid id held).2 node found with ⟨carries, _⟩
    exact notKept (carries ▸ held)
  · rcases free with recorded | unattached
    · exact Or.inl recorded
    · right
      refine Unattached.of_shrinks unattached ?_
      exact ObjectDB.shrinks_modify fun _ _ child => by simp at child

theorem Linked.addObject (linked : world.Linked)
    (found : world.objectDb.getInstance id = some node) (regular : Regular world (.addObject id))
    (identified : Identified { world with manager := world.manager.addObject id node }) :
    Linked { world with manager := world.manager.addObject id node } := by
  by_cases isNil : node.uuid = Uuid.nil
  · simp only [StreamManager.addObject, isNil, if_true]
    exact linked
  · rcases StreamManager.exists_addObject world.manager id node isNil with
      ⟨childrenMap, registers⟩
    rw [registers] at identified ⊢
    exact linked.rewritten found (regular node found) identified rfl rfl rfl rfl
      ⟨node.parentUuid, fun uuid => Table.get?_insert _ _ _ _⟩ (ObjectDB.SameChildren.refl _)

theorem Linked.removeObject (linked : world.Linked) {uuid : Uuid}
    (identified : Identified { world with manager := world.manager.removeObject uuid }) :
    Linked { world with manager := world.manager.removeObject uuid } := by
  simp only [StreamManager.removeObject] at identified ⊢
  split
  · exact linked
  case isFalse nonNil =>
    rw [if_neg nonNil] at identified
    have before (other : Uuid)
        (unrecorded : other ∉ world.manager.objectRemoval.insert uuid ()) :
        other ∉ world.manager.objectRemoval :=
      fun recorded => unrecorded (Table.mem_insert.mpr (Or.inr recorded))
    refine ⟨⟨?_, ?_⟩, linked.kept, identified, linked.listening⟩
    · exact fun id node found child unrecorded =>
        linked.bijective.children id node found child (before node.uuid unrecorded)
    · exact fun other data entry unrecorded =>
        linked.bijective.roots other data entry (before other unrecorded)

theorem Linked.updateObject (linked : world.Linked)
    (found : world.objectDb.getInstance id = some node) {parentUuid : Uuid} {next : World}
    (regular : Regular world (.updateObject id parentUuid))
    (nextEq : next = { world with
      objectDb := world.objectDb.modify id fun _ => { node with parentUuid }
      manager := world.manager.updateObject id { node with parentUuid } })
    (identified : next.Identified) : next.Linked := by
  subst nextEq
  have children : world.objectDb.SameChildren
      (world.objectDb.modify id fun _ => { node with parentUuid }) :=
    sameChildren_withNode found rfl rfl
  rcases StreamManager.updateObject_cases world.manager id { node with parentUuid } with
    ⟨_, same⟩ | ⟨_, registry, childrenMap, same, entries⟩
  · rw [same] at identified ⊢
    exact linked.of_same identified linked.listening rfl rfl (fun _ _ held => held) children
  · rw [same] at identified ⊢
    exact linked.rewritten found (regular node found) identified rfl rfl rfl rfl
      ⟨parentUuid, entries⟩ children

theorem Linked.boxChanged (linked : world.Linked)
    (found : world.objectDb.getInstance id = some node) (aabb : AABB) :
    Linked { world with objectDb := world.objectDb.modify id fun _ => { node with aabb } } :=
  linked.of_same (linked.identified.withNode found rfl) linked.listening rfl rfl
    (fun _ _ held => held) (sameChildren_withNode found rfl rfl)

theorem Linked.aabbChanged (linked : world.Linked)
    (found : world.objectDb.getInstance id = some node) (aabb : AABB) :
    Linked { world with
      objectDb := world.objectDb.modify id fun _ => { node with aabb }
      manager :=
        if node.mount = .manager then world.manager.onObjectAabbChanged { node with aabb }
        else world.manager } := by
  have changed := linked.boxChanged found aabb
  split
  · rcases StreamManager.exists_onObjectAabbChanged world.manager { node with aabb } with
      ⟨_, same⟩
    rw [same]
    have identified := changed.identified
    exact changed.of_same (identified.withManager identified.registry identified.nodeCache)
      changed.listening rfl rfl (fun _ _ held => held) (ObjectDB.SameChildren.refl _)
  · exact changed

end Steps

theorem Linked.step (linked : world.Linked)
    {uuidGenerator : ℕ → {uuid : Uuid // uuid ≠ Uuid.nil}} (steady : world.Steady uuidGenerator)
    (scenes : world.StoresScenes MakesOwn) {event : Event} {next : World}
    (regular : Regular world event) (stepped : world.step event = some next) : next.Linked := by
  have identified := linked.identified.step stepped
  cases happens_of_step stepped with
  | create =>
      exact linked.of_same identified linked.listening rfl rfl (fun _ _ held => held)
        (ObjectDB.sameChildren_create _ (by simp))
  | enter id node found detached => exact linked.enter found detached regular
  | exit id => exact linked.exitChild steady (by simp) regular stepped
  | reparent id => exact linked.exitChild steady (by simp) regular stepped
  | queueFree id =>
      exact linked.of_same identified linked.listening rfl rfl (fun _ _ held => held)
        (ObjectDB.sameChildren_modify fun _ _ => ⟨rfl, rfl⟩)
  | deleteQueued id node found => exact linked.deleteQueued found (regular node found).1
  | addObject id node found => exact linked.addObject found regular identified
  | removeObject uuid => exact linked.removeObject identified
  | updateObject id parentUuid node found =>
      exact linked.updateObject found regular rfl identified
  | aabbChanged id aabb node found => exact linked.aabbChanged found aabb
  | boxChanged id aabb node found => exact linked.boxChanged found aabb
  | process loader => exact linked.process regular scenes loader
  | flushCallbacks => exact linked.flushCallbacks
  | workerStep | asyncSave | loadProbe | unloadProbe =>
      exact linked.of_same identified linked.listening rfl rfl (fun _ _ held => held)
        (ObjectDB.SameChildren.refl _)

theorem linked_make {db : StreamSqliteDB} {files : Table ScenePath PackedScene}
    {sceneCap nodeCap : ℕ} {uuidGenerator : ℕ → {uuid : Uuid // uuid ≠ Uuid.nil}} :
    (make db files sceneCap nodeCap uuidGenerator).Linked := by
  have noNode (id : ObjectID) : (make db files sceneCap nodeCap uuidGenerator).objectDb.getInstance
      id = none := rfl
  refine ⟨⟨?_, ?_⟩, ?_, identified_make db files sceneCap nodeCap uuidGenerator, rfl⟩
  · intro id node found
    rw [noNode] at found
    simp at found
  · intro uuid data entry
    simp [make, StreamManager.make] at entry
  · intro uuid id node _ found
    rw [noNode] at found
    simp at found

/-- In a regular run, from scene files that make nodes with the uuids of their paths, the invariant
holds in every state. -/
theorem linked_of_regular {db : StreamSqliteDB} {files : Table ScenePath PackedScene}
    {sceneCap nodeCap : ℕ} {uuidGenerator : ℕ → {uuid : Uuid // uuid ≠ Uuid.nil}}
    (ownScenes : ∀ path scene, files.get? path = some scene → MakesOwn path.uuid scene)
    (reached : Reaches step Regular (make db files sceneCap nodeCap uuidGenerator) world) :
    world.Linked ∧ world.Steady uuidGenerator := by
  let holds (other : World) : Prop :=
    other.Linked ∧ other.Steady uuidGenerator ∧ other.StoresScenes MakesOwn
  have initially : holds (make db files sceneCap nodeCap uuidGenerator) :=
    ⟨linked_make, steady_make db files sceneCap nodeCap uuidGenerator, storesScenes_make ownScenes⟩
  have invariant : holds world := by
    apply reached.invariant initially
    rintro state event next ⟨linked, steady, scenes⟩ allowed stepped
    exact ⟨linked.step steady scenes allowed stepped, steady.step stepped,
      scenes.step makesOwn_packed stepped⟩
  exact ⟨invariant.1, invariant.2.1⟩

/-- In a regular run, from scene files that make nodes with the uuids of their paths, children and
entries correspond in every state. -/
theorem bijective_of_regular {db : StreamSqliteDB} {files : Table ScenePath PackedScene}
    {sceneCap nodeCap : ℕ} {uuidGenerator : ℕ → {uuid : Uuid // uuid ≠ Uuid.nil}}
    (ownScenes : ∀ path scene, files.get? path = some scene → MakesOwn path.uuid scene)
    (reached : Reaches step Regular (make db files sceneCap nodeCap uuidGenerator) world) :
    world.Bijective := by
  exact (linked_of_regular ownScenes reached).1.bijective

/-- An object goes out of range and is unloaded, and another one comes and is taken away. -/
def unloadedAndRemoved : World :=
  runAll step (untilDelivered ++ [.create Uuid.nil Uuid.nil unitBox, .enter 2, .exit 2,
    .process eagerLoader]) (enteredBeside ⟨⟨5000, 0, 0⟩, ⟨1, 1, 1⟩⟩)

theorem bijective_unloadedAndRemoved : unloadedAndRemoved.Bijective := by
  have ownScenes : ∀ path scene, (∅ : Table ScenePath PackedScene).get? path = some scene →
      MakesOwn path.uuid scene := by simp
  have entered : Reaches step Regular (make .create ∅ 2 2 counting)
      (enteredBeside ⟨⟨5000, 0, 0⟩, ⟨1, 1, 1⟩⟩) :=
    reaches_runAll (by decide +kernel) (by decide +kernel)
  have later : Reaches step Regular (enteredBeside ⟨⟨5000, 0, 0⟩, ⟨1, 1, 1⟩⟩) unloadedAndRemoved :=
    reaches_runAll (by decide +kernel) (by decide +kernel)
  exact bijective_of_regular ownScenes (entered.trans later)

/-- A copy of an attached node enters, and its original is no longer the node of the entry. -/
theorem bijective_broken :
    let world := runAll step [.create Uuid.nil Uuid.nil unitBox, .enter 1,
      .create 101 Uuid.nil unitBox, .enter 2] blank
    Reaches step (fun _ _ => True) (make .create ∅ 2 2 counting) world ∧ ¬ world.Bijective := by
  intro world
  refine ⟨reaches_runAll (by decide +kernel) (by decide +kernel), ?_⟩
  intro bijective
  have found : world.objectDb.getInstance 1 =
      some { uuid := 101, parentUuid := Uuid.nil, aabb := unitBox, mount := .manager } := by
    decide +kernel
  rcases bijective.children 1 _ found rfl (by decide +kernel) with ⟨_, data, entry, root⟩
  have other : (world.manager.registry.get? 101).map ObjectData.nodeRoot = some 2 := by
    decide +kernel
  rw [entry, Option.map_some, root] at other
  simp at other

end World

end GodotStream
