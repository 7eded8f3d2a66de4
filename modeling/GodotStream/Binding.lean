import GodotStream.Streaming

/-!
# The identity of a loaded object

A load is asked for a uuid, and the node that it attaches is bound by the handler of the
enter signal, which reads the uuid from the node: one without a uuid gets a new one, and
any other node takes over the entry of the uuid that it carries.
-/

namespace GodotStream

open Storage Run

namespace World

variable {world : World}

/-- A load of the object goes as far as `acquire`. -/
structure AwaitsLoad (world : World) (uuid : Uuid) : Prop where
  active : world.manager.insideTree = true ∧ world.manager.queuedForDeletion = false
  nonNil : uuid ≠ Uuid.nil
  rootless : ∃ data, world.manager.registry.get? uuid = some data ∧ data.nodeRoot = 0

/-- The cache has a free node for the object: a kept one, or the root of the cached scene. What it
has carries the given uuid. -/
def Offers (world : World) (uuid carried : Uuid) : Prop :=
  (∃ id node, world.manager.cache.HoldsUsable world.objectDb uuid id ∧
    world.objectDb.getInstance id = some node ∧ node.mount = .orphan ∧ node.uuid = carried) ∨
  (∀ id, ¬ world.manager.cache.HoldsUsable world.objectDb uuid id) ∧
    ∃ scene root, world.manager.cache.sceneCache.peek uuid = some scene ∧
      scene.root = some root ∧ root.uuid = carried

/-- The node is a child after the load, and was not before. -/
structure Attaches (before after : World) (id : ObjectID) (node : StreamObjectNode) : Prop where
  found : after.objectDb.getInstance id = some node
  child : node.mount = .manager
  new : ∀ old, before.objectDb.getInstance id = some old → old.mount ≠ .manager

/-- The node is the one of the uuid, and nothing else was registered, generated or queued. -/
structure Binds (before after : World) (uuid : Uuid) (id : ObjectID)
    (node : StreamObjectNode) : Prop where
  carries : node.uuid = uuid
  root : after.manager.nodeRootOf uuid = id
  others : ∀ other, other ≠ uuid →
    after.manager.registry.get? other = before.manager.registry.get? other
  generated : after.generated = before.generated
  upserts : after.manager.toUpsertUuids = before.manager.toUpsertUuids

theorem loadObjectScene_of_not_awaits (loader : Loader) {uuid : Uuid}
    (idle : ¬ world.AwaitsLoad uuid) : world.loadObjectScene loader uuid = world := by
  simp only [loadObjectScene]
  split
  · rfl
  case isFalse active =>
    split
    · rfl
    case isFalse nonNil =>
      split
      · rfl
      case h_2 data registered =>
        split
        · rfl
        case isFalse rootless =>
          refine absurd ⟨?_, nonNil, data, registered, not_not.mp rootless⟩ idle
          simpa using active

/-- A free node that carries a uuid enters under it, and the entry is all that changes. -/
theorem addChild_of_carries (listening : world.listening = true) {id : ObjectID}
    {node : StreamObjectNode} (found : world.objectDb.getInstance id = some node)
    (orphan : node.mount = .orphan) (nonNil : node.uuid ≠ Uuid.nil) :
    world.addChild id = { world.setMount id .manager with
      manager := world.manager.setNodeRoot node.uuid id } := by
  have here : (world.setMount id .manager).objectDb.getInstance id =
      some { node with mount := .manager } := by
    simp [setMount, ObjectDB.getInstance_modify, found]
  have entered : (world.setMount id .manager).listening = true := listening
  rw [addChild, found]
  simp only [orphan, if_true, entered, onObjectEntered, here, nonNil, if_false]
  rfl

/-- With its signals disconnected the manager takes no notice of a new child. -/
theorem addChild_of_deaf (deaf : world.listening ≠ true) {id : ObjectID} {node : StreamObjectNode}
    (found : world.objectDb.getInstance id = some node) (orphan : node.mount = .orphan) :
    world.addChild id = world.setMount id .manager := by
  have silent : ¬ (world.setMount id .manager).listening = true := deaf
  rw [addChild, found]
  simp only [orphan, if_true]
  exact if_neg silent

theorem generated_addChild_of_nil (listening : world.listening = true) {id : ObjectID}
    {node : StreamObjectNode} (found : world.objectDb.getInstance id = some node)
    (orphan : node.mount = .orphan) (isNil : node.uuid = Uuid.nil) :
    (world.addChild id).generated = world.generated + 1 := by
  have here : (world.setMount id .manager).objectDb.getInstance id =
      some { node with mount := .manager } := by
    simp [setMount, ObjectDB.getInstance_modify, found]
  have entered : (world.setMount id .manager).listening = true := listening
  rw [addChild, found]
  simp only [orphan, if_true, entered, onObjectEntered, here, isNil]
  rfl

theorem getInstance_acquired_of_found {uuid : Uuid} {id : ObjectID} {node : StreamObjectNode}
    (found : world.objectDb.getInstance id = some node) :
    (world.acquired uuid).objectDb.getInstance id = some node := by
  simp only [World.acquired]
  by_cases usable : ∃ kept, world.manager.cache.HoldsUsable world.objectDb uuid kept
  · rcases usable with ⟨_, usable⟩
    rw [(ObjectSceneCache.acquire_of_usable usable).2]
    exact found
  · rcases ObjectSceneCache.acquire_of_not_usable (not_exists.mp usable) with
      ⟨_, _, same⟩ | ⟨scene, _, _, made⟩
    · rw [same]
      exact found
    · rw [made, PackedScene.instantiate]
      split
      · exact found
      · have old : id ≠ world.objectDb.nextId :=
          (ObjectDB.issued_of_getInstance found).2.ne
        simp only [ObjectDB.instantiate, ObjectDB.getInstance_create, old, if_false]
        exact found

/-- `acquire` by itself attaches nothing. -/
theorem not_attaches_of_acquired {uuid : Uuid} {after : World}
    (nodes : after.objectDb = (world.acquired uuid).objectDb) (id : ObjectID)
    (node : StreamObjectNode) : ¬ Attaches world after id node := by
  rintro ⟨found, child, new⟩
  rw [nodes] at found
  rcases getInstance_acquired found with before | orphan
  · exact new node before child
  · rw [orphan] at child
    simp at child

/-- What is free after an `acquire` was no child before it. -/
theorem new_of_orphan {uuid : Uuid} {id : ObjectID} {node : StreamObjectNode}
    (found : (world.acquired uuid).objectDb.getInstance id = some node)
    (orphan : node.mount = .orphan) (old : StreamObjectNode)
    (before : world.objectDb.getInstance id = some old) : old.mount ≠ .manager := by
  rw [getInstance_acquired_of_found before, Option.some.injEq] at found
  rw [found, orphan]
  simp

/-- A free node that does not carry the uuid is attached, but not bound to it. -/
theorem carries_of_binds {uuid : Uuid} {id : ObjectID} {node : StreamObjectNode}
    (rootless : world.manager.nodeRootOf uuid = 0)
    (found : (world.acquired uuid).objectDb.getInstance id = some node)
    (orphan : node.mount = .orphan)
    (binds : ∀ other attached, Attaches world ((world.acquired uuid).addChild id) other attached →
      Binds world ((world.acquired uuid).addChild id) uuid other attached) :
    world.listening = true ∧ node.uuid = uuid := by
  by_cases listening : world.listening = true
  · have heard : (world.acquired uuid).listening = true := listening
    have entered := entered_addChild heard found orphan
    have attached := binds id _ ⟨(entered.nodes id).trans (if_pos rfl), rfl,
      new_of_orphan found orphan⟩
    refine ⟨listening, ?_⟩
    by_cases isNil : node.uuid = Uuid.nil
    · -- a new uuid has been generated
      have more := generated_addChild_of_nil heard found orphan isNil
      rw [attached.generated] at more
      exact absurd more (Nat.succ_ne_self _).symm
    · have carries : (world.acquired uuid).entersAs node = uuid := attached.carries
      rw [entersAs, if_neg isNil] at carries
      exact carries
  · have deaf : (world.acquired uuid).listening ≠ true := listening
    have silent := addChild_of_deaf deaf found orphan
    have here : ((world.acquired uuid).addChild id).objectDb.getInstance id =
        some { node with mount := .manager } := by
      rw [silent]
      simp [setMount, ObjectDB.getInstance_modify, found]
    have root := (binds id _ ⟨here, rfl, new_of_orphan found orphan⟩).root
    rw [silent] at root
    have isZero : id = 0 := root.symm.trans rootless
    exact absurd isZero (Nat.pos_iff_ne_zero.mp (ObjectDB.issued_of_getInstance found).1)

/-- A free node that carries the uuid is all that is attached, and is bound to it. -/
theorem binds_of_carries {uuid : Uuid} {id : ObjectID} {node : StreamObjectNode}
    (listening : world.listening = true) (nonNil : uuid ≠ Uuid.nil)
    (found : (world.acquired uuid).objectDb.getInstance id = some node)
    (orphan : node.mount = .orphan) (carries : node.uuid = uuid) (other : ObjectID)
    (attached : StreamObjectNode)
    (attaches : Attaches world ((world.acquired uuid).addChild id) other attached) :
    Binds world ((world.acquired uuid).addChild id) uuid other attached := by
  have heard : (world.acquired uuid).listening = true := listening
  have enters := addChild_of_carries heard found orphan (carries ▸ nonNil)
  have here := attaches.found
  rw [enters, setMount, ObjectDB.getInstance_modify] at here
  have own : other = id := by
    by_contra distinct
    rw [if_neg distinct] at here
    rcases getInstance_acquired here with before | free
    · exact attaches.new attached before attaches.child
    · rw [attaches.child] at free
      simp at free
  rw [own, if_pos rfl, found, Option.map_some, Option.some.injEq] at here
  refine ⟨?_, ?_, ?_, ?_, ?_⟩
  · rw [← here]
    exact carries
  · rw [enters, own, carries]
    simp only [StreamManager.nodeRootOf, StreamManager.setNodeRoot, Table.get?_modify, if_true,
      Option.getD_some]
  · intro another distinct
    rw [enters, carries]
    simp only [StreamManager.setNodeRoot, Table.get?_modify, distinct, if_false]
    rfl
  · rw [enters]
    rfl
  · rw [enters]
    rfl

/-- A load that attaches nothing, of an object for which the cache has nothing to attach. -/
theorem binds_iff_of_nothing {after : World} {uuid : Uuid}
    (nothing : ∀ id node, ¬ Attaches world after id node)
    (unoffered : ∀ carried, ¬ world.Offers uuid carried) :
    (∀ id node, Attaches world after id node → Binds world after uuid id node) ↔
      ∀ carried, world.Offers uuid carried → world.listening = true ∧ carried = uuid :=
  ⟨fun _ carried offers => absurd offers (unoffered carried),
    fun _ id node attaches => absurd attaches (nothing id node)⟩

/-- A load that attaches a free node. -/
theorem binds_iff_of_addChild {uuid : Uuid} {id : ObjectID} {node : StreamObjectNode}
    (awaits : world.AwaitsLoad uuid)
    (found : (world.acquired uuid).objectDb.getInstance id = some node)
    (orphan : node.mount = .orphan)
    (offers : ∀ carried, world.Offers uuid carried ↔ node.uuid = carried) :
    (∀ other attached, Attaches world ((world.acquired uuid).addChild id) other attached →
        Binds world ((world.acquired uuid).addChild id) uuid other attached) ↔
      ∀ carried, world.Offers uuid carried → world.listening = true ∧ carried = uuid := by
  simp only [offers, forall_eq']
  constructor
  · rcases awaits.rootless with ⟨data, registered, isZero⟩
    have rootless : world.manager.nodeRootOf uuid = 0 := by
      rw [nodeRootOf_of_get? registered]
      exact isZero
    exact carries_of_binds rootless found orphan
  · rintro ⟨listening, carries⟩
    exact binds_of_carries listening awaits.nonNil found orphan carries

/-- The scene is asked for. -/
theorem binds_iff_of_requested {uuid : Uuid} {loader : Loader}
    (unusable : ∀ id, ¬ world.manager.cache.HoldsUsable world.objectDb uuid id)
    (absent : world.manager.cache.sceneCache.peek uuid = none) :
    (∀ id node, Attaches world ((world.acquired uuid).requestScene loader uuid) id node →
        Binds world ((world.acquired uuid).requestScene loader uuid) uuid id node) ↔
      ∀ carried, world.Offers uuid carried → world.listening = true ∧ carried = uuid := by
  have nodes : ((world.acquired uuid).requestScene loader uuid).objectDb =
      (world.acquired uuid).objectDb := by
    simp only [requestScene]
    split
    · rfl
    · rfl
  apply binds_iff_of_nothing (not_attaches_of_acquired nodes)
  rintro carried (⟨id, _, usable, _⟩ | ⟨_, scene, _, cached, _⟩)
  · exact unusable id usable
  · rw [absent] at cached
    simp at cached

/-- The kept node is attached. -/
theorem binds_iff_of_kept {uuid : Uuid} {id : ObjectID} (awaits : world.AwaitsLoad uuid)
    (usable : world.manager.cache.HoldsUsable world.objectDb uuid id) :
    (∀ other attached, Attaches world ((world.acquired uuid).addChild id) other attached →
        Binds world ((world.acquired uuid).addChild id) uuid other attached) ↔
      ∀ carried, world.Offers uuid carried → world.listening = true ∧ carried = uuid := by
  rcases usable_node : usable with ⟨kept, node, here, _⟩
  have found : (world.acquired uuid).objectDb.getInstance id = some node :=
    getInstance_acquired_of_found here
  have own {other : ObjectID} {taken : StreamObjectNode}
      (held : world.manager.cache.HoldsUsable world.objectDb uuid other)
      (there : world.objectDb.getInstance other = some taken) : node = taken := by
    have same := held.1
    rw [kept, Option.some.injEq] at same
    rw [← same, here, Option.some.injEq] at there
    exact there
  by_cases orphan : node.mount = .orphan
  · apply binds_iff_of_addChild awaits found orphan
    intro carried
    constructor
    · rintro (⟨other, taken, held, there, _, carries⟩ | ⟨unusable, _⟩)
      · rw [own held there]
        exact carries
      · exact absurd usable (unusable id)
    · exact fun carries => Or.inl ⟨id, node, usable, here, orphan, carries⟩
  · have refused : (world.acquired uuid).addChild id = world.acquired uuid := by
      apply addChild_of_mounted
      intro other there
      rw [found, Option.some.injEq] at there
      rw [← there]
      exact orphan
    rw [refused]
    apply binds_iff_of_nothing (not_attaches_of_acquired rfl)
    rintro carried (⟨other, taken, held, there, free, _⟩ | ⟨unusable, _⟩)
    · rw [own held there] at orphan
      exact orphan free
    · exact unusable id usable

/-- An instance of the cached scene is attached. -/
theorem binds_iff_of_instance {uuid : Uuid} {scene : PackedScene}
    (awaits : world.AwaitsLoad uuid)
    (unusable : ∀ id, ¬ world.manager.cache.HoldsUsable world.objectDb uuid id)
    (cached : world.manager.cache.sceneCache.peek uuid = some scene) :
    let after := (world.acquired uuid).mountInstance (scene.instantiate world.objectDb).1
    (∀ id node, Attaches world after id node → Binds world after uuid id node) ↔
      ∀ carried, world.Offers uuid carried → world.listening = true ∧ carried = uuid := by
  intro after
  have carried_of_offers {carried : Uuid} (offers : world.Offers uuid carried) :
      ∃ root, scene.root = some root ∧ root.uuid = carried := by
    rcases offers with ⟨id, _, usable, _⟩ | ⟨_, other, root, there, rooted, carries⟩
    · exact absurd usable (unusable id)
    · rw [cached, Option.some.injEq] at there
      exact ⟨root, there ▸ rooted, carries⟩
  cases rooted : scene.root with
  | none =>
      have other : (scene.instantiate world.objectDb).1 = .other := by
        simp only [PackedScene.instantiate, rooted]
      simp only [after, other]
      apply binds_iff_of_nothing (not_attaches_of_acquired rfl)
      intro carried offers
      rcases carried_of_offers offers with ⟨root, isRoot, _⟩
      rw [rooted] at isRoot
      simp at isRoot
  | some root =>
      have made : (scene.instantiate world.objectDb).1 = .object world.objectDb.nextId := by
        simp only [PackedScene.instantiate, rooted]
        rfl
      have found : (world.acquired uuid).objectDb.getInstance world.objectDb.nextId =
          some { uuid := root.uuid, parentUuid := root.parentUuid, aabb := root.aabb,
                 capture := some scene.capture } := by
        rcases ObjectSceneCache.acquire_of_not_usable unusable with
          ⟨absent, _⟩ | ⟨other, stored, _, nodes⟩
        · rw [cached] at absent
          simp at absent
        · rw [cached, Option.some.injEq] at stored
          rw [acquired, nodes, ← stored]
          simp only [PackedScene.instantiate, rooted, ObjectDB.instantiate,
            ObjectDB.getInstance_create, if_true]
      simp only [after, made]
      apply binds_iff_of_addChild awaits found rfl
      intro carried
      constructor
      · intro offers
        rcases carried_of_offers offers with ⟨other, isRoot, carries⟩
        rw [rooted, Option.some.injEq] at isRoot
        rw [isRoot]
        exact carries
      · exact fun carries => Or.inr ⟨unusable, scene, root, cached, rooted, carries⟩

/-- A load binds what it attaches to the uuid if and only if the manager listens and the node that
the cache has for the uuid carries it. -/
theorem load_binds_iff (world : World) (loader : Loader) (uuid : Uuid) :
    (∀ id node, Attaches world (world.loadObjectScene loader uuid) id node →
        Binds world (world.loadObjectScene loader uuid) uuid id node) ↔
      (world.AwaitsLoad uuid → ∀ carried, world.Offers uuid carried →
        world.listening = true ∧ carried = uuid) := by
  by_cases awaits : world.AwaitsLoad uuid
  case neg =>
    rw [loadObjectScene_of_not_awaits loader awaits]
    constructor
    · exact fun _ loads => absurd loads awaits
    · rintro _ id node ⟨found, child, new⟩
      exact absurd child (new node found)
  simp only [awaits, true_imp_iff]
  rcases awaits.rootless with ⟨data, registered, rootless⟩
  rcases loadObjectScene_of_rootless awaits.active awaits.nonNil registered rootless with
    ⟨unusable, absent, asked⟩ | ⟨id, usable, mounted⟩ | ⟨scene, unusable, cached, mounted⟩
  · rw [asked]
    exact binds_iff_of_requested unusable absent
  · rw [mounted]
    exact binds_iff_of_kept awaits usable
  · rw [mounted]
    exact binds_iff_of_instance awaits unusable cached

/-- The file of the object has the scene as its author saved it, without a uuid. -/
def authored : World :=
  make .create (Table.insert ∅ ⟨"", 1⟩
    { root := some { uuid := Uuid.nil, parentUuid := Uuid.nil, aabb := unitBox }, capture := 0 })
    2 2 counting

/-- The object has come into range, and the loader has finished with its scene. -/
def authoredLoaded : World :=
  runAll act [.result rootRow, .load eagerLoader 1, .update eagerLoader] authored

/-- The node gets a generated uuid, which is queued for insertion, and the entry of the object
stays without a node. -/
theorem load_binds_generated :
    Reaches act (fun _ _ => True) authored authoredLoaded ∧ authoredLoaded.AwaitsLoad 1 ∧
      ∃ node, Attaches authoredLoaded (authoredLoaded.loadObjectScene eagerLoader 1) 1 node ∧
        node.uuid = 101 ∧
        (authoredLoaded.loadObjectScene eagerLoader 1).manager.nodeRootOf 1 = 0 ∧
        101 ∈ (authoredLoaded.loadObjectScene eagerLoader 1).manager.toUpsertUuids ∧
        ¬ Binds authoredLoaded (authoredLoaded.loadObjectScene eagerLoader 1) 1 1 node := by
  refine ⟨reaches_runAll (by decide +kernel) (by decide +kernel),
    ⟨by decide +kernel, by decide, { parentUuid := Uuid.nil, nodeRoot := 0 },
      by decide +kernel, rfl⟩,
    { uuid := 101, parentUuid := Uuid.nil, aabb := unitBox, mount := .manager,
      capture := some 0 }, ?_, rfl, by decide +kernel, by decide +kernel, ?_⟩
  · refine ⟨by decide +kernel, rfl, ?_⟩
    have absent : authoredLoaded.objectDb.getInstance 1 = none := by decide +kernel
    intro old found
    rw [absent] at found
    simp at found
  · intro binds
    exact absurd binds.carries (by decide)

end World

end GodotStream
