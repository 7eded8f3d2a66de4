import GodotStream.Reloading

/-!
# Streaming a result in

A delivered result detaches what is out of range with everything below it, and queues the
roots of the registry that have no node. Each frame loads from the queue, and what waits
for its scene is queued again. A child object is not queued, so it is attached in the end
only if it was attached or queued before.
-/

namespace GodotStream

open Storage Run

namespace World

variable {world : World}

/-- No kept node is mounted below another node. -/
def KeptInside (world : World) : Prop :=
  ∀ uuid id node, world.manager.cache.nodeCache.peek uuid = some id →
    world.objectDb.getInstance id = some node → node.mount ≠ .elsewhere

/-- What the frames after a delivery rely on. -/
structure Ready (world : World) : Prop where
  linked : world.Linked
  scenes : world.StoresScenes Carries
  inside : world.KeptInside
  unrecorded : ∀ uuid, uuid ∉ world.manager.objectRemoval
  unrefused : ∀ uuid, uuid ∉ world.manager.cache.removeLoadingSet
  active : world.manager.insideTree = true ∧ world.manager.queuedForDeletion = false

/-- Steps that leave the entries, the nodes and the files. -/
theorem Ready.of_same (ready : world.Ready) {after : World} (linked : after.Linked)
    (scenes : after.StoresScenes Carries)
    (nodes : ∀ id, after.objectDb.getInstance id = world.objectDb.getInstance id)
    (nodeCache : ∀ uuid id, after.manager.cache.nodeCache.peek uuid = some id →
      world.manager.cache.nodeCache.peek uuid = some id)
    (recorded : ∀ uuid ∈ after.manager.objectRemoval, uuid ∈ world.manager.objectRemoval)
    (refused : ∀ uuid ∈ after.manager.cache.removeLoadingSet,
      uuid ∈ world.manager.cache.removeLoadingSet)
    (insideTree : after.manager.insideTree = world.manager.insideTree)
    (queuedForDeletion : after.manager.queuedForDeletion = world.manager.queuedForDeletion) :
    after.Ready where
  linked := linked
  scenes := scenes
  inside := by
    intro uuid id node held found
    rw [nodes] at found
    exact ready.inside uuid id node (nodeCache uuid id held) found
  unrecorded := fun uuid waits => ready.unrecorded uuid (recorded uuid waits)
  unrefused := fun uuid waits => ready.unrefused uuid (refused uuid waits)
  active := by
    rw [insideTree, queuedForDeletion]
    exact ready.active

section Loading

/-- What an `acquire` makes is mounted nowhere. -/
theorem getInstance_acquired {uuid : Uuid} {id : ObjectID} {node : StreamObjectNode}
    (found : (world.acquired uuid).objectDb.getInstance id = some node) :
    world.objectDb.getInstance id = some node ∨ node.mount = .orphan := by
  simp only [World.acquired] at found
  by_cases usable : ∃ kept, world.manager.cache.HoldsUsable world.objectDb uuid kept
  · rcases usable with ⟨_, usable⟩
    rw [(ObjectSceneCache.acquire_of_usable usable).2] at found
    exact Or.inl found
  · rcases ObjectSceneCache.acquire_of_not_usable (not_exists.mp usable) with
      ⟨_, _, same⟩ | ⟨scene, _, _, made⟩
    · rw [same] at found
      exact Or.inl found
    · rw [made, PackedScene.instantiate] at found
      split at found
      · exact Or.inl found
      · simp only [ObjectDB.instantiate, ObjectDB.getInstance_create] at found
        split at found
        · rw [← Option.some.inj found]
          exact Or.inr rfl
        · exact Or.inl found

theorem KeptInside.acquired (inside : world.KeptInside) (uuid : Uuid) :
    (world.acquired uuid).KeptInside := by
  intro other id node held found
  simp only [World.acquired] at held
  rw [(ObjectSceneCache.acquire_caches _ _ _).1, FixedSizedCache.peek_pop] at held
  split at held
  · simp at held
  · rcases getInstance_acquired found with before | orphan
    · exact inside other id node held before
    · simp [orphan]

theorem KeptInside.addChild (inside : world.KeptInside) (listening : world.listening = true)
    (id : ObjectID) : (world.addChild id).KeptInside := by
  intro uuid other node held found
  rw [cache_addChild] at held
  by_cases enters : ∃ entering, world.objectDb.getInstance id = some entering ∧
      entering.mount = .orphan
  · rcases enters with ⟨entering, here, orphan⟩
    rw [(entered_addChild listening here orphan).nodes] at found
    split at found
    · rw [← Option.some.inj found]
      simp
    · exact inside uuid other node held found
  · rw [addChild_of_mounted fun entering here orphan => enters ⟨entering, here, orphan⟩] at found
    exact inside uuid other node held found

theorem mem_removeLoadingSet_of_loadObjectScene {loader : Loader} {uuid other : Uuid}
    (waits : other ∈ (world.loadObjectScene loader uuid).manager.cache.removeLoadingSet) :
    other ∈ world.manager.cache.removeLoadingSet := by
  let known (after : World) : Prop :=
    other ∈ after.manager.cache.removeLoadingSet → other ∈ world.manager.cache.removeLoadingSet
  have acquired : known (world.acquired uuid) := by
    intro here
    rcases ObjectSceneCache.exists_acquire world.manager.cache world.objectDb uuid with
      ⟨_, _, same⟩
    simp only [World.acquired, same] at here
    exact here
  have asked (accepts : Bool) (here : other ∈ ((world.acquired uuid).manager.cache.requestScene uuid
      ((world.acquired uuid).manager.objectScenePath uuid) accepts).2.removeLoadingSet) :
      other ∈ world.manager.cache.removeLoadingSet := by
    simp only [ObjectSceneCache.requestScene] at here
    split at here
    · exact acquired (Table.mem_erase.mp here).2
    · split at here
      · exact acquired here
      · split at here
        · exact acquired here
        · exact acquired here
  have loaded : known (world.loadObjectScene loader uuid) := by
    apply loadObjectScene_rule id acquired
    · intro here
      simp only [World.requestScene] at here
      split at here
      · exact asked _ here
      · exact asked _ here
    · intro id here
      rw [cache_addChild] at here
      exact acquired here
  exact loaded waits

theorem KeptInside.loadObjectScene (inside : world.KeptInside) (listening : world.listening = true)
    (loader : Loader) (uuid : Uuid) : (world.loadObjectScene loader uuid).KeptInside := by
  have acquired := inside.acquired uuid
  apply loadObjectScene_rule inside acquired
  · intro other id node held found
    have sameNode : ((world.acquired uuid).requestScene loader uuid).objectDb =
        (world.acquired uuid).objectDb := by
      simp only [World.requestScene]
      split
      · rfl
      · rfl
    have sameHeld : ((world.acquired uuid).requestScene loader uuid).manager.cache.nodeCache =
        (world.acquired uuid).manager.cache.nodeCache := by
      simp only [World.requestScene]
      split
      · exact ObjectSceneCache.nodeCache_requestScene _ _ _ _
      · exact ObjectSceneCache.nodeCache_requestScene _ _ _ _
    rw [sameNode] at found
    rw [sameHeld] at held
    exact acquired other id node held found
  · exact fun id => acquired.addChild listening id

theorem Ready.loadObjectScene (ready : world.Ready) (loader : Loader) (uuid : Uuid) :
    (world.loadObjectScene loader uuid).Ready where
  linked := ready.linked.loadObjectScene (ready.scenes.mono fun _ _ => Carries.makesOwn) loader uuid
  scenes := ready.scenes.loadObjectScene loader uuid
  inside := ready.inside.loadObjectScene ready.linked.listening loader uuid
  unrecorded := by
    rw [(loads_loadObjectScene world loader uuid).frame]
    exact ready.unrecorded
  unrefused := fun other waits =>
    ready.unrefused other (mem_removeLoadingSet_of_loadObjectScene waits)
  active := by
    rw [(loads_loadObjectScene world loader uuid).frame]
    exact ready.active

theorem Ready.listening_acquired (ready : world.Ready) (uuid : Uuid) :
    (world.acquired uuid).listening = true :=
  ready.linked.listening

/-- The load of an object without a node asks for its scene, or a free node enters under its
uuid. -/
theorem Ready.load_cases (ready : world.Ready) (loader : Loader) {uuid : Uuid}
    (nonNil : uuid ≠ Uuid.nil) {data : ObjectData}
    (registered : world.manager.registry.get? uuid = some data) (rootless : data.nodeRoot = 0) :
    world.loadObjectScene loader uuid = (world.acquired uuid).requestScene loader uuid ∨
      ∃ id node, (world.acquired uuid).objectDb.getInstance id = some node ∧
        node.mount = .orphan ∧ (world.acquired uuid).entersAs node = uuid ∧
        world.loadObjectScene loader uuid = (world.acquired uuid).addChild id := by
  have own (node : StreamObjectNode) (carries : node.uuid = uuid) :
      (world.acquired uuid).entersAs node = uuid := by
    rw [entersAs, if_neg (carries ▸ nonNil)]
    exact carries
  rcases loadObjectScene_of_rootless ready.active nonNil registered rootless with
    ⟨_, _, asked⟩ | ⟨id, usable, mounted⟩ | ⟨scene, unusable, cached, mounted⟩
  · exact Or.inl asked
  · right
    have sameDb := (ObjectSceneCache.acquire_of_usable usable).2
    rcases usable with ⟨kept, node, found, _⟩
    have here : (world.acquired uuid).objectDb.getInstance id = some node := by
      rw [show (world.acquired uuid).objectDb = world.objectDb from sameDb]
      exact found
    refine ⟨id, node, here, ?_, own node ?_, mounted⟩
    · have notChild := ready.linked.kept uuid id node kept found
      have notElsewhere := ready.inside uuid id node kept found
      cases mount : node.mount with
      | orphan => rfl
      | manager => exact absurd mount notChild
      | elsewhere => exact absurd mount notElsewhere
    · exact ((ready.linked.identified.nodeCache uuid id kept).2 node found).1
  · right
    have made : (world.acquired uuid).objectDb = (scene.instantiate world.objectDb).2 := by
      rcases ObjectSceneCache.acquire_of_not_usable unusable with
        ⟨absent, _⟩ | ⟨other, stored, _, same⟩
      · rw [cached] at absent
        simp at absent
      · rw [cached, Option.some.injEq] at stored
        exact stored ▸ same
    have carries := ready.scenes.cache.cached uuid scene cached
    rcases Option.map_eq_some_iff.mp carries with ⟨root, isRoot, rootUuid⟩
    simp only [PackedScene.instantiate, isRoot, ObjectDB.instantiate, mountInstance] at made mounted
    have here : (world.acquired uuid).objectDb.getInstance world.objectDb.nextId = some
        { uuid := root.uuid, parentUuid := root.parentUuid, aabb := root.aabb
          capture := some scene.capture } := by
      rw [made, ObjectDB.getInstance_create, if_pos rfl]
    exact ⟨world.objectDb.nextId, _, here, rfl, own _ rootUuid, mounted⟩

/-- The load of an object leaves the other entries. -/
theorem Ready.registry_loadObjectScene (ready : world.Ready) (loader : Loader) {uuid other : Uuid}
    (distinct : other ≠ uuid) :
    (world.loadObjectScene loader uuid).manager.registry.get? other =
      world.manager.registry.get? other := by
  rcases loadObjectScene_cases world loader uuid with
    same | ⟨⟨data, registered, rootless⟩, nonNil, _⟩
  · rw [same]
  · rcases ready.load_cases loader nonNil registered rootless with
      asked | ⟨id, node, found, orphan, enters, mounted⟩
    · rw [asked, World.requestScene]
      split
      · rfl
      · rfl
    · rw [mounted]
      have entered := entered_addChild (ready.listening_acquired uuid) found orphan
      rcases entered.registry with ⟨_, registry⟩
      rw [registry, enters, if_neg distinct]
      rfl

/-- An object that is loaded has a node afterwards, or waits for its scene. -/
theorem Ready.rooted_or_waits (ready : world.Ready) {loader : Loader}
    (accepts : ∀ path, loader.accepts path = true) {uuid : Uuid} (nonNil : uuid ≠ Uuid.nil)
    {data : ObjectData} (registered : world.manager.registry.get? uuid = some data)
    (rootless : data.nodeRoot = 0) :
    (world.loadObjectScene loader uuid).manager.nodeRootOf uuid ≠ 0 ∨
      (world.loadObjectScene loader uuid).manager.registry = world.manager.registry ∧
        uuid ∈ (world.loadObjectScene loader uuid).manager.loadedQueue := by
  rcases ready.load_cases loader nonNil registered rootless with
    asked | ⟨id, node, found, orphan, enters, mounted⟩
  · right
    have unrefused : uuid ∉ (world.acquired uuid).manager.cache.removeLoadingSet := by
      rcases ObjectSceneCache.exists_acquire world.manager.cache world.objectDb uuid with
        ⟨_, _, same⟩
      simp only [World.acquired, same]
      exact ready.unrefused uuid
    have accepted : ((world.acquired uuid).manager.cache.requestScene uuid
        ((world.acquired uuid).manager.objectScenePath uuid)
        (loader.accepts ((world.acquired uuid).manager.objectScenePath uuid))).1 = true := by
      simp only [ObjectSceneCache.requestScene, unrefused, if_false, accepts, if_true]
      split
      · rfl
      · rfl
    rw [asked, World.requestScene, if_pos accepted]
    exact ⟨rfl, List.mem_append_right _ (List.mem_singleton.mpr rfl)⟩
  · left
    rw [mounted]
    have entered := entered_addChild (ready.listening_acquired uuid) found orphan
    rcases entered.registry with ⟨_, registry⟩
    rw [StreamManager.nodeRootOf, registry, enters, if_pos rfl]
    exact Nat.pos_iff_ne_zero.mp (ObjectDB.issued_of_getInstance found).1

end Loading

section Frames

/-- Frames with a loader that takes every request and fails none. -/
def Serves (world : World) : Event → Prop
  | .process loader => (∀ path, loader.accepts path = true) ∧
      ∀ entry ∈ world.manager.cache.loadingRequests, world.loadStatus loader entry ≠ .failed
  | _ => False

/-- What the loads of a served frame preserve, and the rest of the frame does not touch. -/
structure Tracking (holds : StreamManager → Prop) : Prop where
  same : ∀ manager after : StreamManager, after.registry = manager.registry →
    after.loadQueue = manager.loadQueue → after.loadedQueue = manager.loadedQueue →
      holds manager → holds after
  loaded : ∀ (world : World) loader uuid rest, world.Ready →
    (∀ path, loader.accepts path = true) → world.manager.loadQueue = uuid :: rest →
      holds world.manager →
        holds (loadObjectScene { world with
          manager := { world.manager with loadQueue := rest } } loader uuid).manager
  requeued : ∀ manager : StreamManager, holds manager → holds { manager with
    loadQueue := manager.loadQueue ++ manager.loadedQueue
    loadedQueue := [] }

theorem mem_removeLoadingSet_of_update {cache : ObjectSceneCache}
    {status : LoadingEntry → ThreadLoadStatus} {uuid : Uuid}
    (served : ∀ entry ∈ cache.loadingRequests, status entry ≠ .failed)
    (waits : uuid ∈ (cache.update status).removeLoadingSet) : uuid ∈ cache.removeLoadingSet := by
  let known (other : ObjectSceneCache) : Prop :=
    uuid ∈ other.removeLoadingSet → uuid ∈ cache.removeLoadingSet
  have updated : known (cache.update status) := by
    have start : known { cache with loadingRequests := [] } := id
    apply List.foldlRecOn (motive := known) _ _ start
    intro other otherKnown entry listed here
    simp only [ObjectSceneCache.pollRequest] at here
    split at here
    case h_1 answer _ =>
      cases answer with
      | none => exact otherKnown here
      | some scene => exact otherKnown here
    case h_2 failed => exact absurd failed (served entry listed)
    all_goals exact otherKnown here
  exact updated waits

theorem Ready.withQueues (ready : world.Ready) (loadQueue loadedQueue : List Uuid) :
    Ready { world with manager := { world.manager with loadQueue, loadedQueue } } := by
  have linked := ready.linked
  refine ready.of_same ?_ (ready.scenes.withManager ready.scenes.cache) (fun _ => rfl)
    (fun _ _ held => held) (fun _ waits => waits) (fun _ waits => waits) rfl rfl
  exact linked.of_same ⟨linked.identified.registry, linked.identified.nodeCache,
    linked.identified.results⟩ linked.listening rfl rfl (fun _ _ held => held)
    (ObjectDB.SameChildren.refl _)

variable {holds : StreamManager → Prop}

theorem Tracking.runLoads (tracking : Tracking holds) {loader : Loader}
    (accepts : ∀ path, loader.accepts path = true) (loads : ℕ) (ready : world.Ready)
    (now : holds world.manager) :
    (World.runLoads loader loads world).Ready ∧
      holds (World.runLoads loader loads world).manager := by
  induction loads generalizing world with
  | zero => exact ⟨ready, now⟩
  | succ loads ih =>
      simp only [World.runLoads]
      split
      · exact ⟨ready, now⟩
      case h_2 uuid rest queued =>
        have popped := ready.withQueues rest world.manager.loadedQueue
        exact ih (popped.loadObjectScene loader uuid)
          (tracking.loaded world loader uuid rest ready accepts queued now)

theorem Ready.updateCache (ready : world.Ready) {loader : Loader}
    (served : ∀ entry ∈ world.manager.cache.loadingRequests,
      world.loadStatus loader entry ≠ .failed) : (world.updateCache loader).Ready := by
  have linked := ready.linked
  refine ready.of_same ?_ (ready.scenes.updateCache loader) (fun _ => rfl)
    (by simp [World.updateCache]) (fun _ waits => waits) ?_ rfl rfl
  · exact linked.of_same (linked.identified.withCache (by simp)) linked.listening rfl rfl
      (by simp [World.updateCache]) (ObjectDB.SameChildren.refl _)
  · exact fun uuid waits => mem_removeLoadingSet_of_update served waits

theorem Tracking.streamScenes (tracking : Tracking holds) {loader : Loader}
    (accepts : ∀ path, loader.accepts path = true)
    (served : ∀ entry ∈ world.manager.cache.loadingRequests,
      world.loadStatus loader entry ≠ .failed)
    (ready : world.Ready) (now : holds world.manager) :
    (world.streamScenes loader).Ready ∧ holds (world.streamScenes loader).manager := by
  have updated : holds (world.updateCache loader).manager :=
    tracking.same world.manager _ rfl rfl rfl now
  rcases tracking.runLoads accepts 4 (ready.updateCache served) updated with ⟨loaded, after⟩
  exact ⟨loaded.withQueues _ _, tracking.requeued _ after⟩

/-- Nothing is recorded, so a frame removes nothing. -/
theorem runRemovals_of_unrecorded (unrecorded : ∀ uuid, uuid ∉ world.manager.objectRemoval) :
    world.runRemovals = { world with manager := { world.manager with objectRemoval := ∅ } } := by
  have nothing : world.manager.objectRemoval.keys = [] :=
    List.eq_nil_iff_forall_not_mem.mpr unrecorded
  simp only [World.runRemovals, nothing, List.foldl_nil]

theorem Ready.runRemovals (ready : world.Ready) : world.runRemovals.Ready := by
  have linked := ready.linked
  have identified := linked.identified.runRemovals
  have scenes := ready.scenes.runRemovals
  rw [runRemovals_of_unrecorded ready.unrecorded] at identified scenes ⊢
  refine ready.of_same ?_ scenes (fun _ => rfl) (fun _ _ held => held) (by simp)
    (fun _ waits => waits) rfl rfl
  refine ⟨⟨?_, ?_⟩, linked.kept, identified, linked.listening⟩
  · intro id node found child _
    exact linked.bijective.children id node found child (ready.unrecorded _)
  · intro uuid data entry _ nonZero
    exact linked.bijective.roots uuid data entry (ready.unrecorded _) nonZero

theorem Ready.flushed (ready : world.Ready) : world.flushPendingDbOps.queryProbes.Ready := by
  have linked := ready.linked
  have identified := linked.identified.flushPendingDbOps.queryProbes
  have scenes := ready.scenes.flushPendingDbOps.queryProbes
  rw [queryProbes_frame, flushPendingDbOps_frame] at identified scenes ⊢
  refine ready.of_same ?_ scenes (fun _ => rfl) (fun _ _ held => held) (fun _ waits => waits)
    (fun _ waits => waits) rfl rfl
  exact linked.of_same identified linked.listening rfl rfl (fun _ _ held => held)
    (ObjectDB.SameChildren.refl _)

theorem Tracking.process (tracking : Tracking holds) {loader : Loader}
    (serves : Serves world (.process loader)) (ready : world.Ready) (now : holds world.manager) :
    (world.process loader).Ready ∧ holds (world.process loader).manager := by
  rcases serves with ⟨accepts, served⟩
  have removed : holds world.runRemovals.manager := by
    rw [runRemovals_of_unrecorded ready.unrecorded]
    exact tracking.same world.manager _ rfl rfl rfl now
  have removedServed : ∀ entry ∈ world.runRemovals.manager.cache.loadingRequests,
      world.runRemovals.loadStatus loader entry ≠ .failed := by
    rw [runRemovals_of_unrecorded ready.unrecorded]
    exact served
  simp only [World.process, ready.active.1, Bool.not_true, Bool.false_eq_true, if_false]
  split
  · exact tracking.streamScenes accepts removedServed ready.runRemovals removed
  · apply tracking.streamScenes accepts ?_ ready.runRemovals.flushed
    · rw [queryProbes_frame, flushPendingDbOps_frame]
      exact tracking.same world.runRemovals.manager _ rfl rfl rfl removed
    · rw [queryProbes_frame, flushPendingDbOps_frame]
      exact removedServed

/-- What the loads preserve holds after any served frames. -/
theorem Tracking.reaches (tracking : Tracking holds) {final : World}
    (reached : Reaches step Serves world final) (ready : world.Ready)
    (now : holds world.manager) : final.Ready ∧ holds final.manager := by
  let both (other : World) : Prop := other.Ready ∧ holds other.manager
  have invariant : both final := by
    apply reached.invariant ⟨ready, now⟩
    rintro other event next ⟨otherReady, otherNow⟩ serves stepped
    cases event with
    | process loader =>
        rw [← Option.some.inj stepped]
        exact tracking.process serves otherReady otherNow
    | _ => exact serves.elim
  exact invariant

/-- The uuid will be loaded in this frame or in a later one. -/
def Waits (manager : StreamManager) (uuid : Uuid) : Prop :=
  uuid ∈ manager.loadQueue ∨ uuid ∈ manager.loadedQueue

/-- The uuid is registered, with a node or waiting for one. -/
def Served (uuid : Uuid) (manager : StreamManager) : Prop :=
  uuid ∈ manager.registry ∧ (manager.nodeRootOf uuid ≠ 0 ∨ Waits manager uuid)

/-- The uuid has no node and does not wait for one. -/
def Ignored (uuid : Uuid) (manager : StreamManager) : Prop :=
  manager.nodeRootOf uuid = 0 ∧ ¬ Waits manager uuid

theorem tracking_ready : Tracking fun _ => True :=
  ⟨fun _ _ _ _ _ _ => trivial, fun _ _ _ _ _ _ _ _ => trivial, fun _ _ => trivial⟩

theorem mem_registry_of_rooted {manager : StreamManager} {uuid : Uuid}
    (rooted : manager.nodeRootOf uuid ≠ 0) : uuid ∈ manager.registry := by
  cases found : manager.registry.get? uuid with
  | none =>
      simp only [StreamManager.nodeRootOf, found, Option.getD_none] at rooted
      exact absurd rfl rooted
  | some data => exact Table.mem_of_get? found

theorem waits_requeued {manager : StreamManager} {uuid : Uuid} :
    Waits { manager with
      loadQueue := manager.loadQueue ++ manager.loadedQueue
      loadedQueue := [] } uuid ↔ Waits manager uuid := by
  simp [Waits]

theorem tracking_served {uuid : Uuid} (nonNil : uuid ≠ Uuid.nil) : Tracking (Served uuid) where
  same := by
    intro manager after registry loadQueue loadedQueue served
    simp only [Served, StreamManager.nodeRootOf, Waits, registry, loadQueue, loadedQueue]
    exact served
  loaded := by
    rintro world loader loaded rest ready accepts queued ⟨registered, status⟩
    have popped := ready.withQueues rest world.manager.loadedQueue
    rcases queues_loadObjectScene { world with
      manager := { world.manager with loadQueue := rest } } loader loaded with
      ⟨loadQueue, loadedQueue⟩
    have stillLoaded (waits : uuid ∈ world.manager.loadedQueue) :
        uuid ∈ (loadObjectScene { world with manager := { world.manager with loadQueue := rest } }
          loader loaded).manager.loadedQueue := by
      rcases loadedQueue with same | appended
      · rw [same]
        exact waits
      · rw [appended]
        exact List.mem_append_left _ waits
    rcases Table.mem_iff_get?.mp registered with ⟨data, found⟩
    by_cases own : uuid = loaded
    · subst own
      by_cases rootless : data.nodeRoot = 0
      · rcases popped.rooted_or_waits accepts nonNil found rootless with rooted | ⟨same, waits⟩
        · exact ⟨mem_registry_of_rooted rooted, Or.inl rooted⟩
        · rw [Served, same]
          exact ⟨registered, Or.inr (Or.inr waits)⟩
      · have rooted : world.manager.nodeRootOf uuid ≠ 0 := by
          rw [StreamManager.nodeRootOf, found, Option.getD_some]
          exact rootless
        have still := rooted_loadObjectScene _ loader uuid popped.linked.listening rooted
        exact ⟨mem_registry_of_rooted still, Or.inl still⟩
    · have same := popped.registry_loadObjectScene loader own
      refine ⟨Table.mem_iff_get?.mpr ⟨data, same.trans found⟩, ?_⟩
      rcases status with rooted | waits | waits
      · left
        rw [StreamManager.nodeRootOf, same]
        exact rooted
      · right
        left
        rw [queued] at waits
        rw [loadQueue]
        exact (List.mem_cons.mp waits).resolve_left own
      · exact Or.inr (Or.inr (stillLoaded waits))
  requeued := by
    rintro manager ⟨registered, status⟩
    exact ⟨registered, status.imp_right waits_requeued.mpr⟩

theorem tracking_ignored (uuid : Uuid) : Tracking (Ignored uuid) where
  same := by
    intro manager after registry loadQueue loadedQueue ignored
    simp only [Ignored, StreamManager.nodeRootOf, Waits, registry, loadQueue, loadedQueue]
    exact ignored
  loaded := by
    rintro world loader loaded rest ready accepts queued ⟨rootless, idle⟩
    have popped := ready.withQueues rest world.manager.loadedQueue
    rcases queues_loadObjectScene { world with
      manager := { world.manager with loadQueue := rest } } loader loaded with
      ⟨loadQueue, loadedQueue⟩
    have other : uuid ≠ loaded := by
      rintro rfl
      exact idle (Or.inl (queued ▸ List.mem_cons_self))
    refine ⟨?_, ?_⟩
    · rw [StreamManager.nodeRootOf, popped.registry_loadObjectScene loader other]
      exact rootless
    · rintro (waits | waits)
      · rw [loadQueue] at waits
        exact idle (Or.inl (queued ▸ List.mem_cons_of_mem _ waits))
      · rcases loadedQueue with same | appended
        · rw [same] at waits
          exact idle (Or.inr waits)
        · rw [appended, List.mem_append, List.mem_singleton] at waits
          rcases waits with before | own
          · exact idle (Or.inr before)
          · exact other own
  requeued := by
    rintro manager ⟨rootless, idle⟩
    exact ⟨rootless, fun waits => idle (waits_requeued.mp waits)⟩

end Frames

section Delivery

theorem KeptInside.unloadCollected (inside : world.KeptInside) (linked : world.Linked)
    (unrecorded : ∀ uuid, uuid ∉ world.manager.objectRemoval) {objId : Uuid}
    (pending : objId ∈ world.manager.pendingRemoval) :
    (world.unloadCollected objId).KeptInside := by
  rcases linked.identified.unloadCollected_cases linked.listening pending with
    same | ⟨data, node, registered, found, _, _, nonZero, unloaded⟩
  · rw [same]
    exact inside
  · rcases linked.bijective.roots objId data registered (unrecorded objId) nonZero with
      ⟨live, liveFound, child, _⟩
    rw [found, Option.some.injEq] at liveFound
    subst liveFound
    intro uuid id kept held here
    by_cases own : id = data.nodeRoot
    · rw [own, unloaded.detached, Option.some.injEq] at here
      rw [← here]
      simp [child, Mount.detached]
    · have before := unloaded.nodes id kept own here
      rw [unloaded.nodeCache] at held
      by_cases ownKey : uuid = objId
      · rw [ownKey, FixedSizedCache.peek_put_self, Option.some.injEq] at held
        exact absurd held.symm own
      · exact inside uuid id kept (FixedSizedCache.peek_put_of_ne ownKey held) before

theorem Ready.unloadCollected (ready : world.Ready) {objId : Uuid}
    (pending : objId ∈ world.manager.pendingRemoval) : (world.unloadCollected objId).Ready := by
  have linked := ready.linked.unloadCollected pending
  have scenes := ready.scenes.unloadCollected carries_packed objId
  have inside := ready.inside.unloadCollected ready.linked ready.unrecorded pending
  rcases ready.linked.identified.unloadCollected_cases ready.linked.listening pending with
    same | ⟨_, _, _, _, _, _, _, unloaded⟩
  · rw [same] at linked scenes inside ⊢
    exact ⟨linked, scenes, inside, ready.unrecorded, ready.unrefused, ready.active⟩
  · refine ⟨linked, scenes, inside, ?_, ?_, ?_⟩
    · rw [unloaded.frame]
      exact ready.unrecorded
    · rw [unloaded.frame]
      exact ready.unrefused
    · rw [unloaded.frame]
      exact ready.active

/-- The registered uuids, the index and the queues are those before the delivery. -/
structure Emptying (start world : World) : Prop where
  ready : world.Ready
  childrenMap : world.manager.childrenMap = start.manager.childrenMap
  loadQueue : world.manager.loadQueue = start.manager.loadQueue
  loadedQueue : world.manager.loadedQueue = start.manager.loadedQueue

variable {start : World}

theorem Emptying.withPending (emptying : Emptying start world)
    (pendingRemoval : Table Uuid Unit) :
    Emptying start { world with manager := { world.manager with pendingRemoval } } := by
  have ready := emptying.ready
  exact ⟨⟨ready.linked.withPending pendingRemoval, ready.scenes.withManager ready.scenes.cache,
    ready.inside, ready.unrecorded, ready.unrefused, ready.active⟩,
    emptying.childrenMap, emptying.loadQueue, emptying.loadedQueue⟩

theorem Emptying.unloadCollected (emptying : Emptying start world) {objId : Uuid}
    (pending : objId ∈ world.manager.pendingRemoval) :
    Emptying start (world.unloadCollected objId) := by
  have ready := emptying.ready.unloadCollected pending
  rcases exists_unloadCollected world objId with ⟨_, _, _, _, _, _, _, same, _⟩
  refine ⟨ready, ?_, ?_, ?_⟩
  · rw [same]
    exact emptying.childrenMap
  · rw [same]
    exact emptying.loadQueue
  · rw [same]
    exact emptying.loadedQueue

theorem Emptying.unloadObject (emptying : Emptying start world) (uuid : Uuid) :
    Emptying start (world.unloadObject uuid) := by
  apply unloadObject_rule emptying
  · exact fun other pendingRemoval inside => inside.withPending pendingRemoval
  · exact fun other objId inside pending _ => inside.unloadCollected pending

theorem Emptying.unloadStale (emptying : Emptying start world) {uuid : Uuid}
    (nonNil : uuid ≠ Uuid.nil) : Emptying start (world.unloadStale uuid) := by
  have unloaded := emptying.unloadObject uuid
  have ready := unloaded.ready
  have rootless := emptying.ready.linked.rootless_unloaded nonNil
    (emptying.ready.unrecorded uuid)
  refine ⟨⟨?_, ?_, ready.inside, ready.unrecorded, ready.unrefused, ready.active⟩,
    unloaded.childrenMap, unloaded.loadQueue, unloaded.loadedQueue⟩
  · exact ready.linked.eraseRegistryEntry fun _ _ => rootless
  · exact ready.scenes.withManager ready.scenes.cache

/-- The unload of one object touches the node of its own entry only. -/
theorem nodeRootOf_unloadCollected_of_ne (linked : world.Linked) {objId uuid : Uuid}
    (pending : objId ∈ world.manager.pendingRemoval) (distinct : uuid ≠ objId) :
    (world.unloadCollected objId).manager.nodeRootOf uuid = world.manager.nodeRootOf uuid := by
  rcases linked.identified.unloadCollected_cases linked.listening pending with
    same | ⟨_, _, _, _, _, _, _, unloaded⟩
  · rw [same, StreamManager.nodeRootOf, touchEntry, Table.get?_touch, if_neg distinct,
      StreamManager.nodeRootOf]
  · rw [StreamManager.nodeRootOf, unloaded.registry, if_neg distinct, StreamManager.nodeRootOf]

/-- What is not below the unloaded object keeps its node. -/
theorem Emptying.nodeRootOf_unloadStale (emptying : Emptying start world) {stale uuid : Uuid}
    (distinct : uuid ≠ stale) (spared : uuid ∉ start.manager.collectDescendants stale) :
    (world.unloadStale stale).manager.nodeRootOf uuid = world.manager.nodeRootOf uuid := by
  rw [← StreamManager.collectDescendants_congr emptying.childrenMap] at spared
  let same (other : World) : Prop :=
    other.Linked ∧ other.manager.nodeRootOf uuid = world.manager.nodeRootOf uuid
  have initially : same world := ⟨emptying.ready.linked, rfl⟩
  have unloaded : same (world.unloadObject stale) := by
    apply unloadObject_rule initially
    · exact fun other pendingRemoval inside => ⟨inside.1.withPending pendingRemoval, inside.2⟩
    · rintro other objId ⟨otherLinked, otherSame⟩ pending collected
      have otherUuid : uuid ≠ objId := fun own => spared (own ▸ collected)
      exact ⟨otherLinked.unloadCollected pending,
        (nodeRootOf_unloadCollected_of_ne otherLinked pending otherUuid).trans otherSame⟩
  simp only [World.unloadStale, StreamManager.nodeRootOf, StreamManager.eraseRegistryEntry,
    Table.get?_erase, distinct, if_false]
  exact unloaded.2

theorem mem_registry_unloadStale {stale uuid : Uuid} (distinct : uuid ≠ stale)
    (registered : uuid ∈ world.manager.registry) :
    uuid ∈ (world.unloadStale stale).manager.registry := by
  let inside (other : World) : Prop := uuid ∈ other.manager.registry
  have initially : inside world := registered
  have unloaded : inside (world.unloadObject stale) := by
    apply unloadObject_rule initially
    · exact fun _ _ here => here
    · intro other objId here _ _
      rcases exists_unloadCollected other objId with ⟨_, _, _, _, _, _, _, same, entries⟩
      rcases Table.mem_iff_get?.mp here with ⟨data, found⟩
      rw [same]
      rcases entries uuid with still | detached
      · exact Table.mem_iff_get?.mpr ⟨data, still.trans found⟩
      · exact Table.mem_iff_get?.mpr ⟨_, detached⟩
  simp only [World.unloadStale, StreamManager.eraseRegistryEntry, Table.mem_erase]
  exact ⟨distinct, unloaded⟩

/-- Every unloaded object is registered, and none is under the nil uuid. -/
theorem Linked.nonNil_of_mem_toUnload (linked : world.Linked)
    (unrecorded : ∀ uuid, uuid ∉ world.manager.objectRemoval) {dbObjects : Table Uuid ObjectData}
    {stale : Uuid} (listed : stale ∈ world.manager.toUnload dbObjects) :
    stale ≠ Uuid.nil ∧ stale ∈ world.manager.registry ∧ stale ∉ dbObjects := by
  simp only [StreamManager.toUnload, List.mem_map, List.mem_filter, decide_eq_true_eq] at listed
  rcases listed with ⟨⟨uuid, data⟩, ⟨present, absent, nonZero⟩, rfl⟩
  have registered : world.manager.registry.get? uuid = some data := Table.get?_eq_some.mpr present
  rcases linked.bijective.roots uuid data registered (unrecorded uuid) nonZero with
    ⟨node, found, child, rfl⟩
  have nonNil := (linked.bijective.children data.nodeRoot node found child (unrecorded _)).1
  exact ⟨nonNil, Table.mem_of_get? registered, absent⟩

/-- The unloads of a delivery. -/
def unloaded (world : World) (dbObjects : Table Uuid ObjectData) : World :=
  (world.manager.toUnload dbObjects).foldl unloadStale world

theorem Ready.emptying_unloaded (ready : world.Ready) (dbObjects : Table Uuid ObjectData) :
    Emptying world (world.unloaded dbObjects) := by
  apply List.foldlRecOn (motive := Emptying world) _ _ ⟨ready, rfl, rfl, rfl⟩
  intro other emptying stale listed
  exact emptying.unloadStale (ready.linked.nonNil_of_mem_toUnload ready.unrecorded listed).1

/-- An object of the result keeps its node if and only if it is not below an object that goes. -/
theorem Ready.nodeRootOf_unloaded (ready : world.Ready) {dbObjects : Table Uuid ObjectData}
    {uuid : Uuid} (inRange : uuid ∈ dbObjects) :
    (world.unloaded dbObjects).manager.nodeRootOf uuid =
      if ∀ stale ∈ world.manager.toUnload dbObjects, uuid ∉ world.manager.collectDescendants stale
      then world.manager.nodeRootOf uuid else 0 := by
  have stays (stale : Uuid) (listed : stale ∈ world.manager.toUnload dbObjects) : uuid ≠ stale := by
    rintro rfl
    exact (ready.linked.nonNil_of_mem_toUnload ready.unrecorded listed).2.2 inRange
  split
  case isTrue spared =>
    let same (other : World) : Prop :=
      Emptying world other ∧ other.manager.nodeRootOf uuid = world.manager.nodeRootOf uuid
    have kept : same (world.unloaded dbObjects) := by
      apply List.foldlRecOn (motive := same) _ _ ⟨⟨ready, rfl, rfl, rfl⟩, rfl⟩
      rintro other ⟨emptying, otherSame⟩ stale listed
      refine ⟨emptying.unloadStale
        (ready.linked.nonNil_of_mem_toUnload ready.unrecorded listed).1, ?_⟩
      exact (emptying.nodeRootOf_unloadStale (stays stale listed) (spared stale listed)).trans
        otherSame
    exact kept.2
  case isFalse below =>
    simp only [not_forall, not_not] at below
    rcases below with ⟨stale, listed, collected⟩
    -- the unload of `stale` takes the node, unless an earlier one has taken it
    let waiting (other : World) : Prop :=
      Emptying world other ∧ (stale ∈ other.manager.registry ∨ Rootless uuid other)
    have initially : waiting world :=
      ⟨⟨ready, rfl, rfl, rfl⟩,
        Or.inl (ready.linked.nonNil_of_mem_toUnload ready.unrecorded listed).2.1⟩
    have taken (other : World) (here : waiting other) :
        Rootless uuid (other.unloadStale stale) := by
      rcases here with ⟨emptying, registered | rootless⟩
      · have nonNil := (ready.linked.nonNil_of_mem_toUnload ready.unrecorded listed).1
        rw [← StreamManager.collectDescendants_congr emptying.childrenMap] at collected
        have rootless := emptying.ready.linked.rootless_unloadObject nonNil registered collected
          (emptying.ready.unrecorded uuid)
        intro data found
        simp only [World.unloadStale, StreamManager.eraseRegistryEntry, Table.get?_erase,
          stays stale listed, if_false] at found
        exact rootless data found
      · exact rootless.unloadStale stale
    have rootless : Rootless uuid (world.unloaded dbObjects) := by
      apply foldl_establishes listed initially
      · rintro other next nextListed here
        refine ⟨here.1.unloadStale
          (ready.linked.nonNil_of_mem_toUnload ready.unrecorded nextListed).1, ?_⟩
        by_cases own : next = stale
        · exact Or.inr (own ▸ taken other here)
        · rcases here.2 with registered | rootless
          · exact Or.inl (mem_registry_unloadStale (Ne.symm own) registered)
          · exact Or.inr (rootless.unloadStale next)
      · exact taken
      · exact fun other next _ _ rootless => rootless.unloadStale next
    rw [StreamManager.nodeRootOf]
    cases found : (world.unloaded dbObjects).manager.registry.get? uuid with
    | none => rfl
    | some data => exact rootless data found

theorem Ready.onQueryResult (ready : world.Ready) {dbObjects : Table Uuid ObjectData}
    (rootless : ∀ uuid data, dbObjects.get? uuid = some data → data.nodeRoot = 0) :
    (world.onQueryResult dbObjects).Ready := by
  have unloaded := (ready.emptying_unloaded dbObjects).ready
  have linked := ready.linked.onQueryResult rootless
  have scenes := ready.scenes.onQueryResult carries_packed dbObjects
  rcases StreamManager.exists_applyObjects (world.unloaded dbObjects).manager dbObjects with
    ⟨_, _, applied⟩
  have same : world.onQueryResult dbObjects = { world.unloaded dbObjects with
      manager := (world.unloaded dbObjects).manager.applyObjects dbObjects } := rfl
  rw [same, applied] at linked scenes ⊢
  exact ⟨linked, scenes, unloaded.inside, unloaded.unrecorded, unloaded.unrefused,
    unloaded.active⟩

end Delivery

section Results

/-- A child of the manager has the uuid. -/
def Attached (world : World) (uuid : Uuid) : Prop :=
  ∃ id node, world.objectDb.getInstance id = some node ∧ node.mount = .manager ∧ node.uuid = uuid

theorem Ready.attached_iff (ready : world.Ready) {uuid : Uuid} :
    world.Attached uuid ↔ world.manager.nodeRootOf uuid ≠ 0 := by
  constructor
  · rintro ⟨id, node, found, child, rfl⟩
    rcases ready.linked.bijective.children id node found child (ready.unrecorded _) with
      ⟨_, data, entry, root⟩
    rw [nodeRootOf_of_get? entry, root]
    exact Nat.pos_iff_ne_zero.mp (ObjectDB.issued_of_getInstance found).1
  · intro rooted
    rcases Table.mem_iff_get?.mp (mem_registry_of_rooted rooted) with ⟨data, entry⟩
    rw [nodeRootOf_of_get? entry] at rooted
    rcases ready.linked.bijective.roots uuid data entry (ready.unrecorded uuid) rooted with
      ⟨node, found, child, carries⟩
    exact ⟨data.nodeRoot, node, found, child, carries⟩

/-- The parent that the row of the object names. -/
def NamesParent (dbObjects : Table Uuid ObjectData) (uuid parent : Uuid) : Prop :=
  parent ≠ Uuid.nil ∧ ∃ data, dbObjects.get? uuid = some data ∧ data.parentUuid = parent

/-- The object and all its ancestors are in the result. -/
def InRange (dbObjects : Table Uuid ObjectData) (uuid : Uuid) : Prop :=
  ∀ upper, Relation.ReflTransGen (NamesParent dbObjects) uuid upper → upper ∈ dbObjects

theorem InRange.mem {dbObjects : Table Uuid ObjectData} {uuid : Uuid}
    (inRange : InRange dbObjects uuid) : uuid ∈ dbObjects :=
  inRange uuid Relation.ReflTransGen.refl

theorem inRange_root {dbObjects : Table Uuid ObjectData} {uuid : Uuid} {data : ObjectData}
    (listed : dbObjects.get? uuid = some data) (isRoot : data.parentUuid = Uuid.nil) :
    InRange dbObjects uuid := by
  intro upper reached
  rcases Relation.ReflTransGen.cases_head reached with same | ⟨parent, ⟨named, row, found, own⟩, _⟩
  · exact same ▸ Table.mem_of_get? listed
  · rw [listed, Option.some.injEq] at found
    exact absurd (own.symm.trans (found ▸ isRoot)) named

theorem InRange.child {dbObjects : Table Uuid ObjectData} {uuid : Uuid} {data : ObjectData}
    (listed : dbObjects.get? uuid = some data) (parent : InRange dbObjects data.parentUuid) :
    InRange dbObjects uuid := by
  intro upper reached
  rcases Relation.ReflTransGen.cases_head reached with same | ⟨middle, ⟨_, row, found, own⟩, rest⟩
  · exact same ▸ Table.mem_of_get? listed
  · rw [listed, Option.some.injEq] at found
    subst found
    exact parent upper (own ▸ rest)

/-- The object is a root of the result, or waits already, or is attached and not below an object
that goes. -/
def ComesIn (world : World) (dbObjects : Table Uuid ObjectData) (uuid : Uuid) : Prop :=
  uuid ≠ Uuid.nil ∧
    ((∃ data, dbObjects.get? uuid = some data ∧ data.parentUuid = Uuid.nil) ∨
      Waits world.manager uuid ∨
      world.Attached uuid ∧ ∀ stale ∈ world.manager.toUnload dbObjects,
        uuid ∉ world.manager.collectDescendants stale)

/-- After a delivery the roots of the result without a node wait, besides what waited before. -/
theorem Ready.waits_onQueryResult (ready : world.Ready) {dbObjects : Table Uuid ObjectData}
    {uuid : Uuid} {row : ObjectData} (listed : dbObjects.get? uuid = some row) :
    (∃ data, (world.onQueryResult dbObjects).manager.registry.get? uuid = some data) ∧
      (Waits (world.onQueryResult dbObjects).manager uuid ↔ Waits world.manager uuid ∨
        row.parentUuid = Uuid.nil ∧
          (world.onQueryResult dbObjects).manager.nodeRootOf uuid = 0) := by
  have emptying := ready.emptying_unloaded dbObjects
  have same : (world.onQueryResult dbObjects).manager =
      (world.unloaded dbObjects).manager.applyObjects dbObjects := rfl
  have entry : ∃ data,
      ((world.unloaded dbObjects).manager.applyObjects dbObjects).registry.get? uuid = some data ∧
        data.parentUuid = row.parentUuid := by
    rw [StreamManager.get?_applyObjects, listed]
    cases (world.unloaded dbObjects).manager.registry.get? uuid with
    | none => exact ⟨row, rfl, rfl⟩
    | some here => exact ⟨_, rfl, rfl⟩
  rcases entry with ⟨data, found, parent⟩
  have loadedQueue : ((world.unloaded dbObjects).manager.applyObjects dbObjects).loadedQueue =
      world.manager.loadedQueue := by
    rcases StreamManager.exists_applyObjects (world.unloaded dbObjects).manager dbObjects with
      ⟨_, _, applied⟩
    rw [applied]
    exact emptying.loadedQueue
  rw [same]
  refine ⟨⟨data, found⟩, ?_⟩
  rw [Waits, StreamManager.mem_loadQueue_applyObjects, emptying.loadQueue, loadedQueue, Waits,
    nodeRootOf_of_get? found]
  constructor
  · rintro ((before | ⟨other, otherFound, isRoot, rootless⟩) | before)
    · exact Or.inl (Or.inl before)
    · rw [found, Option.some.injEq] at otherFound
      subst otherFound
      exact Or.inr ⟨parent.symm.trans isRoot, rootless⟩
    · exact Or.inl (Or.inr before)
  · rintro ((before | before) | ⟨isRoot, rootless⟩)
    · exact Or.inl (Or.inl before)
    · exact Or.inr before
    · exact Or.inl (Or.inr ⟨data, found, parent.trans isRoot, rootless⟩)

/-- When the queues are empty again, an object of the result is attached if and only if it was to
come in. -/
theorem Ready.attached_final_iff (ready : world.Ready) {dbObjects : Table Uuid ObjectData}
    (rootless : ∀ uuid data, dbObjects.get? uuid = some data → data.nodeRoot = 0) {final : World}
    (streamed : Reaches step Serves (world.onQueryResult dbObjects) final)
    (drained : final.manager.loadQueue = [] ∧ final.manager.loadedQueue = []) {uuid : Uuid}
    (listed : uuid ∈ dbObjects) : final.Attached uuid ↔ world.ComesIn dbObjects uuid := by
  have delivered := ready.onQueryResult rootless
  rcases Table.mem_iff_get?.mp listed with ⟨row, found⟩
  rcases ready.waits_onQueryResult found with ⟨⟨data, registered⟩, waits⟩
  have root : (world.onQueryResult dbObjects).manager.nodeRootOf uuid =
      if ∀ stale ∈ world.manager.toUnload dbObjects,
        uuid ∉ world.manager.collectDescendants stale
      then world.manager.nodeRootOf uuid else 0 :=
    (StreamManager.nodeRootOf_applyObjects _ rootless uuid).trans (ready.nodeRootOf_unloaded listed)
  constructor
  · intro attached
    have finalReady := (tracking_ready.reaches streamed delivered trivial).1
    rcases attached with ⟨id, node, here, child, carries⟩
    have nonNil : uuid ≠ Uuid.nil := by
      rw [← carries]
      exact (finalReady.linked.bijective.children id node here child (finalReady.unrecorded _)).1
    by_contra stays
    simp only [ComesIn, nonNil, ne_eq, not_false_eq_true, true_and, not_or] at stays
    rcases stays with ⟨notRoot, idle, notSpared⟩
    have noNode : (world.onQueryResult dbObjects).manager.nodeRootOf uuid = 0 := by
      rw [root]
      split
      case isTrue spared =>
        by_contra rooted
        exact notSpared ⟨ready.attached_iff.mpr rooted, spared⟩
      case isFalse => rfl
    have ignored : Ignored uuid (world.onQueryResult dbObjects).manager := by
      refine ⟨noNode, ?_⟩
      rw [waits]
      rintro (before | ⟨isRoot, _⟩)
      · exact idle before
      · exact notRoot ⟨row, found, isRoot⟩
    have finalIgnored := ((tracking_ignored uuid).reaches streamed delivered ignored).2
    exact finalReady.attached_iff.mp ⟨id, node, here, child, carries⟩ finalIgnored.1
  · rintro ⟨nonNil, comes⟩
    have served : Served uuid (world.onQueryResult dbObjects).manager := by
      refine ⟨Table.mem_of_get? registered, ?_⟩
      by_cases rooted : (world.onQueryResult dbObjects).manager.nodeRootOf uuid = 0
      · right
        rw [waits]
        rcases comes with ⟨other, otherFound, isRoot⟩ | before | ⟨attached, spared⟩
        · rw [found, Option.some.injEq] at otherFound
          subst otherFound
          exact Or.inr ⟨isRoot, rooted⟩
        · exact Or.inl before
        · rw [root, if_pos spared] at rooted
          exact absurd rooted (ready.attached_iff.mp attached)
      · exact Or.inl rooted
    rcases (tracking_served nonNil).reaches streamed delivered served with
      ⟨finalReady, _, rooted | waiting | waiting⟩
    · exact finalReady.attached_iff.mpr rooted
    · rw [drained.1] at waiting
      simp at waiting
    · rw [drained.2] at waiting
      simp at waiting

/-- From a regular state where nothing waits for removal, no scene was refused and no kept node is
mounted elsewhere: a result is streamed in if and only if each of its objects that is in range with
its ancestors, or attached, is to come in. -/
theorem streamed_iff {db : StreamSqliteDB} {files : Table ScenePath PackedScene}
    {sceneCap nodeCap : ℕ} {uuidGenerator : ℕ → {uuid : Uuid // uuid ≠ Uuid.nil}}
    (ownScenes : ∀ path scene, files.get? path = some scene → Carries path.uuid scene)
    (reached : Reaches step Regular (make db files sceneCap nodeCap uuidGenerator) world)
    (inside : world.KeptInside) (unrecorded : ∀ uuid, uuid ∉ world.manager.objectRemoval)
    (unrefused : ∀ uuid, uuid ∉ world.manager.cache.removeLoadingSet)
    {dbObjects : Table Uuid ObjectData}
    (rootless : ∀ uuid data, dbObjects.get? uuid = some data → data.nodeRoot = 0) {final : World}
    (streamed : Reaches step Serves (world.onQueryResult dbObjects) final)
    (drained : final.manager.loadQueue = [] ∧ final.manager.loadedQueue = []) :
    ((∀ uuid, InRange dbObjects uuid → final.Attached uuid) ∧
        ∀ uuid ∈ dbObjects, world.Attached uuid → final.Attached uuid) ↔
      ∀ uuid ∈ dbObjects, InRange dbObjects uuid ∨ world.Attached uuid →
        world.ComesIn dbObjects uuid := by
  rcases linked_of_regular (fun path scene filed => (ownScenes path scene filed).makesOwn) reached
    with ⟨linked, steady⟩
  have scenes : world.StoresScenes Carries := by
    apply reached.invariant (storesScenes_make ownScenes)
    exact fun _ _ _ stores _ stepped => stores.step carries_packed stepped
  have ready : world.Ready :=
    ⟨linked, scenes, inside, unrecorded, unrefused, steady.insideTree, steady.queuedForDeletion⟩
  constructor
  · rintro ⟨comeIn, stay⟩ uuid listed (inRange | attached)
    · exact (ready.attached_final_iff rootless streamed drained listed).mp (comeIn uuid inRange)
    · exact (ready.attached_final_iff rootless streamed drained listed).mp
        (stay uuid listed attached)
  · intro comes
    refine ⟨?_, ?_⟩
    · intro uuid inRange
      have listed := inRange.mem
      exact (ready.attached_final_iff rootless streamed drained listed).mpr
        (comes uuid listed (Or.inl inRange))
    · intro uuid listed attached
      exact (ready.attached_final_iff rootless streamed drained listed).mpr
        (comes uuid listed (Or.inr attached))

/-- Two frames with a loader that finds every file. -/
def twoFrames (world : World) : World :=
  (world.process eagerLoader).process eagerLoader

/-- A frame in which every requested file exists. -/
theorem reaches_eager (filed : ∀ entry ∈ world.manager.cache.loadingRequests,
    (world.files.get? entry.path).isSome = true) :
    Reaches step Serves world (world.process eagerLoader) := by
  have serves : Serves world (.process eagerLoader) := by
    refine ⟨fun _ => rfl, ?_⟩
    intro entry listed
    rcases Option.isSome_iff_exists.mp (filed entry listed) with ⟨scene, found⟩
    simp [loadStatus, eagerLoader, found]
  exact Reaches.refl.tail serves rfl

theorem reaches_twoFrames (first : ∀ entry ∈ world.manager.cache.loadingRequests,
      (world.files.get? entry.path).isSome = true)
    (second : ∀ entry ∈ (world.process eagerLoader).manager.cache.loadingRequests,
      ((world.process eagerLoader).files.get? entry.path).isSome = true) :
    Reaches step Serves world (twoFrames world) :=
  (reaches_eager first).trans (reaches_eager second)

/-- The result with one root. -/
def rootRow : Table Uuid ObjectData :=
  Table.insert ∅ 1 { parentUuid := Uuid.nil, nodeRoot := 0 }

/-- The result with a root and its child. -/
def familyRows : Table Uuid ObjectData :=
  rootRow.insert 2 { parentUuid := 1, nodeRoot := 0 }

theorem streamed_root :
    let final := twoFrames (stocked.world.onQueryResult rootRow)
    (∀ uuid, InRange rootRow uuid → final.Attached uuid) ∧
      ∀ uuid ∈ rootRow, stocked.world.Attached uuid → final.Attached uuid := by
  intro final
  have inside : stocked.world.KeptInside := by
    intro uuid id node held
    simp [stocked, Chronicle.start, make, StreamManager.make, ObjectSceneCache.make] at held
  have row {uuid : Uuid} {data : ObjectData} (listed : rootRow.get? uuid = some data) :
      uuid = 1 ∧ data = { parentUuid := Uuid.nil, nodeRoot := 0 } := by
    simp only [rootRow, Table.get?_insert, Table.get?_empty] at listed
    split at listed
    case isTrue own => exact ⟨own, (Option.some.inj listed).symm⟩
    case isFalse => simp at listed
  have rootless (uuid : Uuid) (data : ObjectData) (listed : rootRow.get? uuid = some data) :
      data.nodeRoot = 0 := by
    rw [(row listed).2]
  have streamed : Reaches step Serves (stocked.world.onQueryResult rootRow) final :=
    reaches_twoFrames (by decide +kernel) (by decide +kernel)
  have unrecorded (uuid : Uuid) : uuid ∉ stocked.world.manager.objectRemoval := by
    simp [stocked, Chronicle.start, make, StreamManager.make]
  have unrefused (uuid : Uuid) : uuid ∉ stocked.world.manager.cache.removeLoadingSet := by
    simp [stocked, Chronicle.start, make, StreamManager.make, ObjectSceneCache.make]
  apply (streamed_iff carries_stocked Reaches.refl inside unrecorded unrefused rootless streamed
    (by decide +kernel)).mpr
  intro uuid listed _
  rcases Table.mem_iff_get?.mp listed with ⟨data, found⟩
  rcases row found with ⟨own, isRoot⟩
  refine ⟨?_, Or.inl ⟨data, found, by rw [isRoot]⟩⟩
  rw [own]
  decide

/-- The child of a root that is in range with it is never loaded. -/
theorem streamed_childless :
    let final := twoFrames (stocked.world.onQueryResult familyRows)
    Reaches step Serves (stocked.world.onQueryResult familyRows) final ∧
      final.manager.loadQueue = [] ∧ final.manager.loadedQueue = [] ∧
      InRange familyRows 2 ∧ ¬ final.Attached 2 := by
  intro final
  have rootListed : familyRows.get? 1 = some { parentUuid := Uuid.nil, nodeRoot := 0 } := by
    decide +kernel
  have childListed : familyRows.get? 2 = some { parentUuid := 1, nodeRoot := 0 } := by
    decide +kernel
  refine ⟨reaches_twoFrames (by decide +kernel) (by decide +kernel), by decide +kernel,
    by decide +kernel, InRange.child childListed (inRange_root rootListed rfl), ?_⟩
  rintro ⟨id, node, found, child, carries⟩
  have unattached : final.Unattached 2 := by decide +kernel
  exact unattached id node found child carries

end Results

end World

end GodotStream
