import GodotStream.Bijection

/-!
# Reloading

Three versions of an unloaded object remain: its node in the node cache, a copy of its
scene in the scene cache, and the file, which the unload refreshes. A load prefers the
node, then the copy, and an unload leaves the copy as it was. The runs here consist of
delivered results, loads, cache updates and unloads, and every queued save is finished
before the next step.
-/

namespace GodotStream

open Storage Run

namespace World

variable {world : World}

/-- Finish every queued save. -/
def settle (world : World) : World :=
  { world with
    files := world.saveTasks.foldl (fun files task => files.insert task.1 task.2) world.files
    saveTasks := [] }

/-- Settling is a run of finished saves. -/
theorem reaches_settle (world : World) :
    Reaches step (fun _ event => event = .asyncSave 0) world world.settle := by
  rcases queued : world.saveTasks with _ | ⟨task, rest⟩
  · have same : world.settle = world := by
      simp only [settle, queued, List.foldl_nil]
      rw [← queued]
    rw [same]
    exact Reaches.refl
  · have saved : world.step (.asyncSave 0) = some { world with
        files := world.files.insert task.1 task.2, saveTasks := rest } := by
      simp [step, asyncSaveObject, queued]
    have first : Reaches step (fun _ event => event = .asyncSave 0) world { world with
        files := world.files.insert task.1 task.2, saveTasks := rest } :=
      Reaches.refl.tail rfl saved
    have later := reaches_settle { world with
      files := world.files.insert task.1 task.2, saveTasks := rest }
    have same : settle { world with
        files := world.files.insert task.1 task.2, saveTasks := rest } = world.settle := by
      simp only [settle, queued, List.foldl_cons]
    exact first.trans (same ▸ later)
termination_by world.saveTasks.length
decreasing_by simp [queued]

/-- What an unload released and saved, and the copy of the scene that it found in the cache. -/
structure Unload where
  node : ObjectID
  saved : Option PackedScene
  copy : Option PackedScene
deriving DecidableEq

/-- A world, and the latest unload of every object. -/
structure Chronicle where
  world : World
  latest : Uuid → Option Unload

namespace Chronicle

/-- The latest unloads in a world that a step has led to: an object was unloaded if it had a live
node before and has none now. -/
def observe (chronicle : Chronicle) (next : World) (uuid : Uuid) : Option Unload :=
  let node := chronicle.world.manager.nodeRootOf uuid
  if (chronicle.world.objectDb.getInstance node).isSome ∧ next.manager.nodeRootOf uuid = 0 then
    some
      { node
        saved := next.saveTasks.lookup (chronicle.world.manager.objectScenePath uuid)
        copy := chronicle.world.manager.cache.sceneCache.peek uuid }
  else chronicle.latest uuid

def step (chronicle : Chronicle) (action : Action) : Option Chronicle :=
  (chronicle.world.act action).map fun next =>
    { world := next.settle, latest := chronicle.observe next }

/-- Before anything is unloaded. -/
def start (world : World) : Chronicle :=
  { world, latest := fun _ => none }

/-- Results of queries, which name no nodes, loads, updates and unloads. -/
def Reloads (_ : Chronicle) : Action → Prop
  | .result dbObjects => ∀ entry ∈ dbObjects.entries, entry.2.nodeRoot = 0
  | .load .. | .update _ | .unload _ => True
  | .event _ => False

instance decidableReloads (chronicle : Chronicle) : ∀ action, Decidable (Reloads chronicle action)
  | .result dbObjects =>
      inferInstanceAs (Decidable (∀ entry ∈ dbObjects.entries, entry.2.nodeRoot = 0))
  | .load .. | .update _ | .unload _ => isTrue trivial
  | .event _ => isFalse id

/-- What `acquire` yields for an unloaded object is the node that was released, or an instance of
the scene that was saved. -/
def Current (chronicle : Chronicle) (uuid : Uuid) : Prop :=
  let acquired := chronicle.world.manager.cache.acquire chronicle.world.objectDb uuid
  ∀ made ∈ acquired.1, ∀ unload ∈ chronicle.latest uuid,
    made = .object unload.node ∨
      ∃ scene ∈ unload.saved, (made, acquired.2.2) = scene.instantiate chronicle.world.objectDb

end Chronicle

theorem getInstance_nodeRootOf_zero {uuid : Uuid} (rootless : world.manager.nodeRootOf uuid = 0) :
    world.objectDb.getInstance (world.manager.nodeRootOf uuid) = none := by
  rw [rootless, Option.eq_none_iff_forall_ne_some]
  intro node found
  exact absurd (ObjectDB.issued_of_getInstance found).1 (Nat.lt_irrefl 0)

theorem nodeRootOf_of_get? {manager : StreamManager} {uuid : Uuid} {data : ObjectData}
    (registered : manager.registry.get? uuid = some data) :
    manager.nodeRootOf uuid = data.nodeRoot := by
  rw [StreamManager.nodeRootOf, registered, Option.getD_some]

/-- What the caches and the files hold of the unloaded objects. -/
structure Records (latest : Uuid → Option Unload) (world : World) : Prop where
  kept : ∀ uuid id, world.manager.cache.nodeCache.peek uuid = some id →
    ∃ unload, latest uuid = some unload ∧ unload.node = id
  issued : ∀ uuid unload, latest uuid = some unload → unload.node < world.objectDb.nextId
  saved : ∀ uuid unload, latest uuid = some unload → ∃ scene, unload.saved = some scene ∧
    scene.root.isSome ∧
    world.settle.files.get? (world.manager.objectScenePath uuid) = some scene ∧
    ∀ copy, unload.copy = some copy → copy.capture < scene.capture
  copies : ∀ uuid unload scene, latest uuid = some unload →
    world.manager.cache.sceneCache.peek uuid = some scene →
      unload.saved = some scene ∨ unload.copy = some scene
  requests : ∀ entry ∈ world.manager.cache.loadingRequests,
    entry.path = world.manager.objectScenePath entry.uuid
  cached : ∀ uuid scene, world.manager.cache.sceneCache.peek uuid = some scene →
    scene.capture < world.captures
  filed : ∀ path scene, world.settle.files.get? path = some scene →
    scene.capture < world.captures

theorem Records.settle {latest : Uuid → Option Unload} (records : Records latest world) :
    Records latest world.settle :=
  ⟨records.kept, records.issued, records.saved, records.copies, records.requests, records.cached,
    records.filed⟩

/-- Steps that leave the disk, and add to the caches only scene requests. -/
theorem Records.of_same {latest : Uuid → Option Unload} (records : Records latest world)
    {after : World} (files : after.settle.files = world.settle.files)
    (captures : after.captures = world.captures)
    (dir : after.manager.objectSceneDir = world.manager.objectSceneDir)
    (nextId : world.objectDb.nextId ≤ after.objectDb.nextId)
    (nodeCache : ∀ uuid id, after.manager.cache.nodeCache.peek uuid = some id →
      world.manager.cache.nodeCache.peek uuid = some id)
    (sceneCache : ∀ uuid, after.manager.cache.sceneCache.peek uuid =
      world.manager.cache.sceneCache.peek uuid)
    (requests : ∀ entry ∈ after.manager.cache.loadingRequests,
      entry ∈ world.manager.cache.loadingRequests ∨
        entry.path = world.manager.objectScenePath entry.uuid) : Records latest after := by
  have path (uuid : Uuid) : after.manager.objectScenePath uuid =
      world.manager.objectScenePath uuid := by
    simp only [StreamManager.objectScenePath, dir]
  refine ⟨?_, ?_, ?_, ?_, ?_, ?_, ?_⟩
  · exact fun uuid id held => records.kept uuid id (nodeCache uuid id held)
  · exact fun uuid unload found => (records.issued uuid unload found).trans_le nextId
  · intro uuid unload found
    rw [path, files]
    exact records.saved uuid unload found
  · intro uuid unload scene found here
    rw [sceneCache] at here
    exact records.copies uuid unload scene found here
  · intro entry waiting
    rw [path]
    rcases requests entry waiting with before | own
    · exact records.requests entry before
    · exact own
  · intro uuid scene here
    rw [sceneCache] at here
    rw [captures]
    exact records.cached uuid scene here
  · intro other scene here
    rw [files] at here
    rw [captures]
    exact records.filed other scene here

section Loading

theorem nextId_addChild (world : World) (id : ObjectID) :
    (world.addChild id).objectDb.nextId = world.objectDb.nextId := by
  have entered (other : World) :
      (other.onObjectEntered id).objectDb.nextId = other.objectDb.nextId := by
    simp only [onObjectEntered]
    split
    · rfl
    · split
      · exact ObjectDB.nextId_modify _ _ _
      · rfl
  simp only [addChild]
  split
  · rfl
  · split
    · split
      · rw [entered]
        exact ObjectDB.nextId_modify _ _ _
      · exact ObjectDB.nextId_modify _ _ _
    · rfl

theorem nextId_acquired (world : World) (uuid : Uuid) :
    world.objectDb.nextId ≤ (world.acquired uuid).objectDb.nextId := by
  simp only [World.acquired]
  by_cases usable : ∃ id, world.manager.cache.HoldsUsable world.objectDb uuid id
  · rcases usable with ⟨_, usable⟩
    rw [(ObjectSceneCache.acquire_of_usable usable).2]
  · rcases ObjectSceneCache.acquire_of_not_usable (not_exists.mp usable) with
      ⟨_, _, same⟩ | ⟨scene, _, _, made⟩
    · rw [same]
    · rw [made, PackedScene.instantiate]
      split
      · exact Nat.le_refl _
      · exact Nat.le_succ _

variable {latest : Uuid → Option Unload}

theorem Records.acquired (records : Records latest world) (uuid : Uuid) :
    Records latest (world.acquired uuid) := by
  rcases ObjectSceneCache.acquire_caches world.manager.cache world.objectDb uuid with
    ⟨nodeCache, sceneCache⟩
  refine records.of_same rfl rfl rfl (nextId_acquired world uuid) ?_ ?_ ?_
  · intro other id held
    simp only [World.acquired, nodeCache, FixedSizedCache.peek_pop] at held
    split at held
    · simp at held
    · exact held
  · exact sceneCache
  · intro entry waiting
    simp only [World.acquired, ObjectSceneCache.loadingRequests_acquire] at waiting
    exact Or.inl waiting

theorem Records.addChild (records : Records latest world) (id : ObjectID) :
    Records latest (world.addChild id) := by
  have frame := (loads_addChild world id).frame
  have cache := cache_addChild world id
  apply records.of_same
  · rw [frame]
    rfl
  · rw [frame]
  · rw [frame]
  · exact (nextId_addChild world id).ge
  · rw [cache]
    exact fun _ _ held => held
  · rw [cache]
    exact fun _ => rfl
  · rw [cache]
    exact fun _ waiting => Or.inl waiting

theorem Records.requestScene (records : Records latest world) (loader : Loader) (uuid : Uuid) :
    Records latest (world.requestScene loader uuid) := by
  have asks (loadedQueue : List Uuid) (accepts : Bool) : Records latest { world with
      manager := { world.manager with
        cache := (world.manager.cache.requestScene uuid
          (world.manager.objectScenePath uuid) accepts).2
        loadedQueue } } := by
    refine records.of_same rfl rfl rfl (Nat.le_refl _) ?_ ?_ ?_
    · intro other id held
      simpa using held
    · exact fun other => ObjectSceneCache.peek_requestScene _ _ _ _
    · intro entry waiting
      rcases ObjectSceneCache.mem_loadingRequests_of_requestScene waiting with before | rfl
      · exact Or.inl before
      · exact Or.inr rfl
  simp only [World.requestScene]
  split
  · exact asks _ _
  · exact asks _ _

theorem Records.loadObjectScene (records : Records latest world) (loader : Loader) (uuid : Uuid) :
    Records latest (world.loadObjectScene loader uuid) := by
  have acquired := records.acquired uuid
  apply loadObjectScene_rule records acquired
  · exact acquired.requestScene loader uuid
  · exact fun id => acquired.addChild id

/-- A copy that an update puts into the cache has the content of the file. -/
theorem Records.updateCache (records : Records latest world) (settled : world.saveTasks = [])
    (loader : Loader) : Records latest (world.updateCache loader) := by
  have files : world.settle.files = world.files := by
    simp only [World.settle, settled, List.foldl_nil]
  have loaded (uuid : Uuid) (scene : PackedScene)
      (found : (world.updateCache loader).manager.cache.sceneCache.peek uuid = some scene) :
      world.manager.cache.sceneCache.peek uuid = some scene ∨
        world.settle.files.get? (world.manager.objectScenePath uuid) = some scene := by
    rcases ObjectSceneCache.peek_of_update found with before | ⟨entry, listed, rfl, answered⟩
    · exact Or.inl before
    · right
      rw [files, ← records.requests entry listed]
      simp only [loadStatus] at answered
      split at answered
      · simp at answered
      · simp at answered
      · simp at answered
      · split at answered
        · simp at answered
        case h_2 stored filed =>
          simp only [ThreadLoadStatus.loaded.injEq, Option.some.injEq] at answered
          rw [filed, answered]
  refine ⟨?_, records.issued, records.saved, ?_, ?_, ?_, records.filed⟩
  · intro uuid id held
    exact records.kept uuid id (by simpa [World.updateCache] using held)
  · intro uuid unload scene found here
    rcases loaded uuid scene here with before | current
    · exact records.copies uuid unload scene found before
    · rcases records.saved uuid unload found with ⟨saved, savedEq, _, filed, _⟩
      rw [filed, Option.some.injEq] at current
      exact Or.inl (current ▸ savedEq)
  · intro entry waiting
    exact records.requests entry (ObjectSceneCache.mem_loadingRequests_of_update waiting)
  · intro uuid scene here
    rcases loaded uuid scene here with before | current
    · exact records.cached uuid scene before
    · exact records.filed _ scene current

end Loading

section Unloading

variable {base : Chronicle}

theorem nodeRootOf_ne_zero_of_live {uuid : Uuid}
    (live : (world.objectDb.getInstance (world.manager.nodeRootOf uuid)).isSome) :
    world.manager.nodeRootOf uuid ≠ 0 := by
  intro rootless
  rw [getInstance_nodeRootOf_zero rootless] at live
  simp at live

theorem Chronicle.observe_congr {next other : World}
    (roots : ∀ uuid, other.manager.nodeRootOf uuid = next.manager.nodeRootOf uuid)
    (saves : other.saveTasks = next.saveTasks) : base.observe other = base.observe next := by
  funext uuid
  simp only [Chronicle.observe, roots, saves]

/-- A step that takes no node from an entry unloads nothing. -/
theorem Chronicle.observe_of_rooted {next : World}
    (rooted : ∀ uuid, base.world.manager.nodeRootOf uuid ≠ 0 → next.manager.nodeRootOf uuid ≠ 0) :
    base.observe next = base.latest := by
  funext uuid
  simp only [Chronicle.observe]
  split
  case isTrue unloaded =>
    exact absurd unloaded.2 (rooted uuid (nodeRootOf_ne_zero_of_live unloaded.1))
  case isFalse => rfl

/-- In the middle of a step that unloads, seen from the state before it. -/
structure Unloading (base : Chronicle) (world : World) : Prop where
  linked : world.Linked
  records : Records (base.observe world) world
  roots : ∀ uuid, world.manager.nodeRootOf uuid = base.world.manager.nodeRootOf uuid ∨
    world.manager.nodeRootOf uuid = 0
  shrinks : base.world.objectDb.Shrinks world.objectDb
  unrecorded : ∀ uuid, uuid ∉ world.manager.objectRemoval
  sceneCache : ∀ uuid, world.manager.cache.sceneCache.peek uuid =
    base.world.manager.cache.sceneCache.peek uuid
  dir : world.manager.objectSceneDir = base.world.manager.objectSceneDir
  queued : ∀ task ∈ world.saveTasks, ∃ uuid,
    task.1 = base.world.manager.objectScenePath uuid ∧ world.manager.nodeRootOf uuid = 0

/-- Steps of the manager that take no node from an entry and leave the caches. -/
theorem Unloading.withManager (unloading : Unloading base world) {manager : StreamManager}
    (linked : Linked { world with manager })
    (roots : ∀ uuid, manager.nodeRootOf uuid = world.manager.nodeRootOf uuid)
    (recorded : manager.objectRemoval = world.manager.objectRemoval)
    (cache : manager.cache = world.manager.cache)
    (dir : manager.objectSceneDir = world.manager.objectSceneDir) :
    Unloading base { world with manager } := by
  have observed : base.observe { world with manager } = base.observe world :=
    Chronicle.observe_congr roots rfl
  refine ⟨linked, ?_, ?_, unloading.shrinks, ?_, ?_, dir.trans unloading.dir, ?_⟩
  · rw [observed]
    refine unloading.records.of_same rfl rfl dir (Nat.le_refl _) ?_ ?_ ?_
    · rw [cache]
      exact fun _ _ held => held
    · rw [cache]
      exact fun _ => rfl
    · rw [cache]
      exact fun _ waiting => Or.inl waiting
  · intro uuid
    rw [roots]
    exact unloading.roots uuid
  · rw [recorded]
    exact unloading.unrecorded
  · rw [cache]
    exact unloading.sceneCache
  · intro task queued
    rcases unloading.queued task queued with ⟨uuid, path, rootless⟩
    exact ⟨uuid, path, (roots uuid).trans rootless⟩

theorem nodeRootOf_touchEntry_of_any (world : World) (touched uuid : Uuid) :
    (world.touchEntry touched).manager.nodeRootOf uuid = world.manager.nodeRootOf uuid := by
  change (((world.manager.registry.touch touched).get? uuid).getD default).nodeRoot = _
  rw [Table.get?_touch]
  split
  case isTrue same => rw [same, Option.getD_some, StreamManager.nodeRootOf]
  case isFalse => rfl

theorem nextId_unloadCollected (world : World) (objId : Uuid) :
    (world.unloadCollected objId).objectDb.nextId = world.objectDb.nextId := by
  have removed (other : World) (id : ObjectID) :
      (other.removeChild id).objectDb.nextId = other.objectDb.nextId := by
    simp only [removeChild]
    split
    · rfl
    · split
      · split
        · simp [setMount]
        · simp [setMount]
      · rfl
  simp only [unloadCollected]
  split
  · rfl
  · simp only [release]
    rcases ObjectSceneCache.objectDb_release
      ((world.touchEntry objId).removeChild
        ((world.touchEntry objId).manager.nodeRootOf objId)).manager.cache
      ((world.touchEntry objId).removeChild
        ((world.touchEntry objId).manager.nodeRootOf objId)).objectDb objId
      ((world.touchEntry objId).manager.nodeRootOf objId) with same | ⟨_, _, _, _, freed⟩
    · rw [same, removed]
      rfl
    · rw [freed]
      exact removed _ _

theorem objectScenePath_injective {manager : StreamManager} {uuid other : Uuid}
    (same : manager.objectScenePath uuid = manager.objectScenePath other) : uuid = other :=
  congrArg ScenePath.uuid same

theorem settle_of_append {after : World} {path : ScenePath} {scene : PackedScene}
    (files : after.files = world.files)
    (saves : after.saveTasks = world.saveTasks ++ [(path, scene)]) :
    after.settle.files = world.settle.files.insert path scene := by
  simp only [settle, files, saves, List.foldl_append, List.foldl_cons, List.foldl_nil]

section OneUnload

variable {after : World} {objId : Uuid} {data : ObjectData} {node : StreamObjectNode}

theorem Unloaded.nodeRootOf_of_ne (unloaded : Unloaded world after objId data.nodeRoot node)
    {uuid : Uuid} (other : uuid ≠ objId) :
    after.manager.nodeRootOf uuid = world.manager.nodeRootOf uuid := by
  rw [StreamManager.nodeRootOf, unloaded.registry, if_neg other, StreamManager.nodeRootOf]

theorem Unloaded.nodeRootOf_self (unloaded : Unloaded world after objId data.nodeRoot node)
    (registered : world.manager.registry.get? objId = some data) :
    after.manager.nodeRootOf objId = 0 := by
  rw [StreamManager.nodeRootOf, unloaded.registry, if_pos rfl, registered, Option.map_some,
    Option.getD_some]

theorem Unloading.child (unloading : Unloading base world)
    (registered : world.manager.registry.get? objId = some data)
    (found : world.objectDb.getInstance data.nodeRoot = some node) :
    node.mount = .manager := by
  have nonZero : data.nodeRoot ≠ 0 :=
    Nat.pos_iff_ne_zero.mp (ObjectDB.issued_of_getInstance found).1
  rcases unloading.linked.bijective.roots objId data registered (unloading.unrecorded objId) nonZero
    with ⟨live, liveFound, child, _⟩
  rw [found, Option.some.injEq] at liveFound
  exact liveFound ▸ child

theorem Unloading.path (unloading : Unloading base world) (uuid : Uuid) :
    base.world.manager.objectScenePath uuid = world.manager.objectScenePath uuid := by
  simp only [StreamManager.objectScenePath, unloading.dir]

/-- The unload of an attached object is the latest of its uuid. -/
theorem Unloading.observe_self (unloading : Unloading base world)
    (registered : world.manager.registry.get? objId = some data)
    (found : world.objectDb.getInstance data.nodeRoot = some node)
    (unloaded : Unloaded world after objId data.nodeRoot node) :
    base.observe after objId = some
      { node := data.nodeRoot
        saved := some (world.packed node)
        copy := world.manager.cache.sceneCache.peek objId } := by
  have nonZero : data.nodeRoot ≠ 0 :=
    Nat.pos_iff_ne_zero.mp (ObjectDB.issued_of_getInstance found).1
  have here : world.manager.nodeRootOf objId = data.nodeRoot := nodeRootOf_of_get? registered
  have child := unloading.child registered found
  have baseRoot : base.world.manager.nodeRootOf objId = data.nodeRoot := by
    rcases unloading.roots objId with same | rootless
    · rw [← same, here]
    · exact absurd (here.symm.trans rootless) nonZero
  have baseLive : (base.world.objectDb.getInstance data.nodeRoot).isSome := by
    rcases unloading.shrinks data.nodeRoot node found child with ⟨old, oldFound, _⟩
    rw [oldFound]
    rfl
  have fresh : world.saveTasks.lookup (world.manager.objectScenePath objId) = none := by
    rw [List.lookup_eq_none_iff]
    intro task queued
    rcases unloading.queued task queued with ⟨uuid, taskPath, rootless⟩
    rw [bne_iff_ne, taskPath, unloading.path]
    intro same
    rw [← objectScenePath_injective same, here] at rootless
    exact nonZero rootless
  simp only [Chronicle.observe, baseRoot, baseLive, unloaded.nodeRootOf_self registered, and_self,
    if_true, unloading.path, (unloaded.saved child).1, List.lookup_append, fresh,
    unloading.sceneCache, List.lookup_cons_self, Option.none_or]

theorem Unloading.observe_of_ne (unloading : Unloading base world)
    (registered : world.manager.registry.get? objId = some data)
    (found : world.objectDb.getInstance data.nodeRoot = some node)
    (unloaded : Unloaded world after objId data.nodeRoot node) {uuid : Uuid}
    (other : uuid ≠ objId) : base.observe after uuid = base.observe world uuid := by
  have saves := (unloaded.saved (unloading.child registered found)).1
  have apart : (world.manager.objectScenePath uuid == world.manager.objectScenePath objId) =
      false := by
    rw [beq_eq_false_iff_ne]
    exact fun samePath => other (objectScenePath_injective samePath)
  have looked : after.saveTasks.lookup (world.manager.objectScenePath uuid) =
      world.saveTasks.lookup (world.manager.objectScenePath uuid) := by
    rw [saves, List.lookup_append, List.lookup_cons, apart, List.lookup_nil, Option.or_none]
  simp only [Chronicle.observe, unloaded.nodeRootOf_of_ne other, unloading.path, looked]

/-- The unload has saved the newest scene. -/
theorem Unloading.records_unloaded (unloading : Unloading base world)
    (nextId : after.objectDb.nextId = world.objectDb.nextId)
    (registered : world.manager.registry.get? objId = some data)
    (found : world.objectDb.getInstance data.nodeRoot = some node)
    (unloaded : Unloaded world after objId data.nodeRoot node) :
    Records (base.observe after) after := by
  have records := unloading.records
  have own := unloading.observe_self registered found unloaded
  have same {uuid : Uuid} (other : uuid ≠ objId) :
      base.observe after uuid = base.observe world uuid :=
    unloading.observe_of_ne registered found unloaded other
  rcases unloaded.saved (unloading.child registered found) with ⟨saves, captures⟩
  have files : after.settle.files =
      world.settle.files.insert (world.manager.objectScenePath objId) (world.packed node) := by
    apply settle_of_append
    · rw [unloaded.frame]
    · exact saves
  have samePath (uuid : Uuid) :
      after.manager.objectScenePath uuid = world.manager.objectScenePath uuid := by
    rw [StreamManager.objectScenePath, StreamManager.objectScenePath, unloaded.frame]
  have sceneCache : after.manager.cache.sceneCache = world.manager.cache.sceneCache := by
    rw [unloaded.frame]
  refine ⟨?_, ?_, ?_, ?_, ?_, ?_, ?_⟩
  · intro uuid id held
    rw [unloaded.nodeCache] at held
    by_cases isOwn : uuid = objId
    · rw [isOwn, FixedSizedCache.peek_put_self, Option.some.injEq] at held
      exact ⟨_, isOwn ▸ own, held⟩
    · rw [same isOwn]
      exact records.kept uuid id (FixedSizedCache.peek_put_of_ne isOwn held)
  · intro uuid unload latest
    rw [nextId]
    by_cases isOwn : uuid = objId
    · rw [isOwn, own, Option.some.injEq] at latest
      rw [← latest]
      exact (ObjectDB.issued_of_getInstance found).2
    · rw [same isOwn] at latest
      exact records.issued uuid unload latest
  · intro uuid unload latest
    rw [files, samePath, Table.get?_insert]
    by_cases isOwn : uuid = objId
    · subst isOwn
      rw [own, Option.some.injEq] at latest
      rw [if_pos rfl, ← latest]
      exact ⟨_, rfl, rfl, rfl, fun copy cached => records.cached uuid copy cached⟩
    · rw [same isOwn] at latest
      rw [if_neg fun samePath => isOwn (objectScenePath_injective samePath)]
      exact records.saved uuid unload latest
  · intro uuid unload scene latest cached
    rw [sceneCache] at cached
    by_cases isOwn : uuid = objId
    · rw [isOwn, own, Option.some.injEq] at latest
      rw [← latest]
      exact Or.inr (isOwn ▸ cached)
    · rw [same isOwn] at latest
      exact records.copies uuid unload scene latest cached
  · rw [unloaded.frame]
    exact records.requests
  · intro uuid scene cached
    rw [sceneCache] at cached
    rw [captures]
    exact Nat.lt_succ_of_lt (records.cached uuid scene cached)
  · intro other scene filed
    rw [captures]
    rw [files, Table.get?_insert] at filed
    split at filed
    · rw [← Option.some.inj filed]
      exact Nat.lt_succ_self _
    · exact Nat.lt_succ_of_lt (records.filed other scene filed)

theorem Unloading.unloaded (unloading : Unloading base world) (linked : after.Linked)
    (shrinks : world.objectDb.Shrinks after.objectDb)
    (nextId : after.objectDb.nextId = world.objectDb.nextId)
    (registered : world.manager.registry.get? objId = some data)
    (found : world.objectDb.getInstance data.nodeRoot = some node)
    (unloaded : Unloaded world after objId data.nodeRoot node) : Unloading base after := by
  have cleared := unloaded.nodeRootOf_self registered
  have dir : after.manager.objectSceneDir = world.manager.objectSceneDir := by
    rw [unloaded.frame]
  refine ⟨linked, unloading.records_unloaded nextId registered found unloaded, ?_,
    unloading.shrinks.trans shrinks, ?_, ?_, dir.trans unloading.dir, ?_⟩
  · intro uuid
    by_cases isOwn : uuid = objId
    · exact Or.inr (isOwn ▸ cleared)
    · rw [unloaded.nodeRootOf_of_ne isOwn]
      exact unloading.roots uuid
  · rw [unloaded.frame]
    exact unloading.unrecorded
  · rw [unloaded.frame]
    exact unloading.sceneCache
  · intro task queued
    rw [(unloaded.saved (unloading.child registered found)).1, List.mem_append,
      List.mem_singleton] at queued
    rcases queued with before | rfl
    · rcases unloading.queued task before with ⟨uuid, taskPath, rootless⟩
      refine ⟨uuid, taskPath, ?_⟩
      by_cases isOwn : uuid = objId
      · exact isOwn ▸ cleared
      · rw [unloaded.nodeRootOf_of_ne isOwn]
        exact rootless
    · exact ⟨objId, (unloading.path objId).symm, cleared⟩

end OneUnload

theorem Unloading.unloadCollected (unloading : Unloading base world) {objId : Uuid}
    (pending : objId ∈ world.manager.pendingRemoval) :
    Unloading base (world.unloadCollected objId) := by
  have linked := unloading.linked.unloadCollected pending
  rcases unloading.linked.identified.unloadCollected_cases unloading.linked.listening pending with
    same | ⟨data, node, registered, found, _, _, _, unloaded⟩
  · rw [same] at linked ⊢
    exact unloading.withManager linked (nodeRootOf_touchEntry_of_any world objId) rfl rfl rfl
  · apply unloading.unloaded linked ?_ (nextId_unloadCollected world objId) registered found
      unloaded
    intro id live here child
    have distinct : id ≠ data.nodeRoot := by
      rintro rfl
      rw [unloaded.detached, Option.some.injEq] at here
      rw [← here] at child
      exact Mount.detached_ne_manager _ child
    exact ⟨live, unloaded.nodes id live distinct here, child, rfl⟩

theorem Unloading.unloadObject (unloading : Unloading base world) (uuid : Uuid) :
    Unloading base (world.unloadObject uuid) := by
  apply unloadObject_rule unloading
  · intro other pendingRemoval inside
    exact inside.withManager (inside.linked.withPending pendingRemoval) (fun _ => rfl) rfl rfl rfl
  · exact fun other objId inside pending _ => inside.unloadCollected pending

/-- An entry that holds no node is erased. -/
theorem Unloading.eraseRegistryEntry (unloading : Unloading base world) {uuid : Uuid}
    (rootless : Rootless uuid world) :
    Unloading base { world with manager := world.manager.eraseRegistryEntry uuid } := by
  apply unloading.withManager (unloading.linked.eraseRegistryEntry fun _ _ => rootless) ?_ rfl rfl
    rfl
  intro other
  simp only [StreamManager.nodeRootOf, StreamManager.eraseRegistryEntry, Table.get?_erase]
  split
  case isFalse => rfl
  case isTrue own =>
    rw [own]
    cases registered : world.manager.registry.get? uuid with
    | none => rfl
    | some data => exact (rootless data registered).symm

theorem Unloading.unloadStale (unloading : Unloading base world) (uuid : Uuid) :
    Unloading base (world.unloadStale uuid) := by
  have unloaded := unloading.unloadObject uuid
  apply unloaded.eraseRegistryEntry
  by_cases isNil : uuid = Uuid.nil
  · -- no node is registered under the nil uuid
    intro data registered
    by_contra nonZero
    rcases unloaded.linked.bijective.roots uuid data registered (unloaded.unrecorded uuid) nonZero
      with ⟨node, found, child, carries⟩
    have nonNil := (unloaded.linked.bijective.children data.nodeRoot node found child
      (unloaded.unrecorded node.uuid)).1
    exact nonNil (carries.trans isNil)
  · exact unloading.linked.rootless_unloaded isNil (unloading.unrecorded uuid)

theorem Unloading.applyObjects (unloading : Unloading base world)
    {dbObjects : Table Uuid ObjectData}
    (rootless : ∀ uuid data, dbObjects.get? uuid = some data → data.nodeRoot = 0) :
    Unloading base { world with manager := world.manager.applyObjects dbObjects } := by
  rcases StreamManager.exists_applyObjects world.manager dbObjects with ⟨_, _, applied⟩
  apply unloading.withManager (unloading.linked.applyObjects rootless)
    (StreamManager.nodeRootOf_applyObjects world.manager rootless)
  · rw [applied]
  · rw [applied]
  · rw [applied]

theorem Unloading.onQueryResult (unloading : Unloading base world)
    {dbObjects : Table Uuid ObjectData}
    (rootless : ∀ uuid data, dbObjects.get? uuid = some data → data.nodeRoot = 0) :
    Unloading base (world.onQueryResult dbObjects) := by
  have unloaded : Unloading base
      ((world.manager.toUnload dbObjects).foldl World.unloadStale world) := by
    apply List.foldlRecOn (motive := Unloading base) _ _ unloading
    exact fun other inside uuid _ => inside.unloadStale uuid
  exact unloaded.applyObjects rootless

end Unloading

section Runs

theorem Linked.settle (linked : world.Linked) : world.settle.Linked :=
  linked.of_same ⟨linked.identified.registry, linked.identified.nodeCache,
    linked.identified.results⟩ linked.listening rfl rfl (fun _ _ held => held)
    (ObjectDB.SameChildren.refl _)

theorem StoresScenes.settle (scenes : world.StoresScenes MakesOwn) :
    world.settle.StoresScenes MakesOwn := by
  apply (reaches_settle world).invariant scenes
  exact fun _ _ _ stores _ stepped => stores.step makesOwn_packed stepped

theorem StoresScenes.unloadObject (scenes : world.StoresScenes MakesOwn) (uuid : Uuid) :
    (world.unloadObject uuid).StoresScenes MakesOwn := by
  apply unloadObject_rule scenes
  · exact fun other pendingRemoval otherScenes => otherScenes.withManager otherScenes.cache
  · exact fun other objId otherScenes _ _ => otherScenes.unloadCollected makesOwn_packed objId

/-- The invariant between the steps. -/
structure Recorded (chronicle : Chronicle) : Prop where
  linked : chronicle.world.Linked
  scenes : chronicle.world.StoresScenes MakesOwn
  records : Records chronicle.latest chronicle.world
  settled : chronicle.world.saveTasks = []
  unrecorded : ∀ uuid, uuid ∉ chronicle.world.manager.objectRemoval

theorem Recorded.unloading {chronicle : Chronicle} (recorded : Recorded chronicle) :
    Unloading chronicle chronicle.world where
  linked := recorded.linked
  records := by
    rw [Chronicle.observe_of_rooted fun _ rooted => rooted]
    exact recorded.records
  roots := fun _ => Or.inl rfl
  shrinks := ObjectDB.Shrinks.refl _
  unrecorded := recorded.unrecorded
  sceneCache := fun _ => rfl
  dir := rfl
  queued := by simp [recorded.settled]

/-- A step that unloads, and finishes its saves. -/
theorem Unloading.recorded {chronicle : Chronicle} (unloading : Unloading chronicle world)
    (scenes : world.StoresScenes MakesOwn) :
    Recorded { world := world.settle, latest := chronicle.observe world } :=
  ⟨unloading.linked.settle, scenes.settle, unloading.records.settle, rfl, unloading.unrecorded⟩

/-- A step that unloads nothing. -/
theorem Recorded.loaded {chronicle : Chronicle} (recorded : Recorded chronicle) {next : World}
    (linked : next.Linked) (scenes : next.StoresScenes MakesOwn)
    (records : Records chronicle.latest next)
    (rooted : ∀ uuid, chronicle.world.manager.nodeRootOf uuid ≠ 0 →
      next.manager.nodeRootOf uuid ≠ 0)
    (removals : next.manager.objectRemoval = chronicle.world.manager.objectRemoval) :
    Recorded { world := next.settle, latest := chronicle.observe next } := by
  rw [Chronicle.observe_of_rooted rooted]
  refine ⟨linked.settle, scenes.settle, records.settle, rfl, ?_⟩
  intro uuid
  change uuid ∉ next.manager.objectRemoval
  rw [removals]
  exact recorded.unrecorded uuid

theorem Recorded.step {chronicle next : Chronicle} (recorded : Recorded chronicle)
    {action : Action} (allowed : chronicle.Reloads action)
    (stepped : chronicle.step action = some next) : Recorded next := by
  rcases Option.map_eq_some_iff.mp stepped with ⟨world, acted, rfl⟩
  cases action with
  | event event => exact allowed.elim
  | result dbObjects =>
      rw [← Option.some.inj acted]
      have rootless (uuid : Uuid) (data : ObjectData) (listed : dbObjects.get? uuid = some data) :
          data.nodeRoot = 0 := allowed (uuid, data) (Table.get?_eq_some.mp listed)
      exact (recorded.unloading.onQueryResult rootless).recorded
        (recorded.scenes.onQueryResult makesOwn_packed dbObjects)
  | load loader uuid =>
      rw [← Option.some.inj acted]
      apply recorded.loaded (recorded.linked.loadObjectScene recorded.scenes loader uuid)
        (recorded.scenes.loadObjectScene loader uuid)
        (recorded.records.loadObjectScene loader uuid)
      · intro other rooted
        exact rooted_loadObjectScene _ loader uuid recorded.linked.listening rooted
      · rw [(loads_loadObjectScene chronicle.world loader uuid).frame]
  | update loader =>
      rw [← Option.some.inj acted]
      refine recorded.loaded ?_ (recorded.scenes.updateCache loader)
        (recorded.records.updateCache recorded.settled loader) (fun _ rooted => rooted) rfl
      exact recorded.linked.of_same (recorded.linked.identified.withCache (by simp))
        recorded.linked.listening rfl rfl (by simp [World.updateCache])
        (ObjectDB.SameChildren.refl _)
  | unload uuid =>
      rw [← Option.some.inj acted]
      exact (recorded.unloading.unloadObject uuid).recorded (recorded.scenes.unloadObject uuid)

/-- Two scenes that make the same node have the same content. -/
theorem capture_eq_of_instantiate {scene other : PackedScene} {objectDb : ObjectDB}
    (rooted : other.root.isSome)
    (same : scene.instantiate objectDb = other.instantiate objectDb) :
    scene.capture = other.capture := by
  rcases Option.isSome_iff_exists.mp rooted with ⟨otherRoot, otherIs⟩
  cases sceneIs : scene.root with
  | none => simp [PackedScene.instantiate, sceneIs, otherIs] at same
  | some sceneRoot =>
      simp only [PackedScene.instantiate, sceneIs, otherIs, ObjectDB.instantiate, Prod.mk.injEq,
        true_and] at same
      have made := congrArg (fun after => after.getInstance objectDb.nextId) same
      simp only [ObjectDB.getInstance_create, if_true, Option.some.injEq,
        StreamObjectNode.mk.injEq] at made
      simp at made
      exact made.2.2.2

/-- An instance is a node that did not exist before. -/
theorem instantiate_ne_of_issued {scene : PackedScene} {objectDb : ObjectDB} {id : ObjectID}
    (issued : id < objectDb.nextId) : (scene.instantiate objectDb).1 ≠ .object id := by
  simp only [PackedScene.instantiate]
  split
  · simp
  · intro same
    exact issued.ne' (Instance.object.inj same)

/-- The captures of a run are later than the files. -/
theorem capture_lt_make {db : StreamSqliteDB} {files : Table ScenePath PackedScene}
    {sceneCap nodeCap : ℕ} {uuidGenerator : ℕ → {uuid : Uuid // uuid ≠ Uuid.nil}}
    {path : ScenePath} {scene : PackedScene} (filed : files.get? path = some scene) :
    scene.capture < (make db files sceneCap nodeCap uuidGenerator).captures := by
  let holds (bound : ℕ) : Prop := scene.capture < bound
  have listed : (path, scene) ∈ files.entries := Table.get?_eq_some.mp filed
  have bounded : holds
      (files.entries.foldl (fun bound file => max bound (file.2.capture + 1)) 0) := by
    let always (_ : ℕ) : Prop := True
    have start : always 0 := trivial
    apply foldl_establishes listed start
    · exact fun _ _ _ _ => trivial
    · exact fun bound _ => lt_max_of_lt_right (Nat.lt_succ_self _)
    · exact fun bound file _ _ before => lt_max_of_lt_left before
  exact bounded

theorem recorded_start {db : StreamSqliteDB} {files : Table ScenePath PackedScene}
    {sceneCap nodeCap : ℕ} {uuidGenerator : ℕ → {uuid : Uuid // uuid ≠ Uuid.nil}}
    (ownScenes : ∀ path scene, files.get? path = some scene → MakesOwn path.uuid scene) :
    Recorded (.start (make db files sceneCap nodeCap uuidGenerator)) := by
  refine ⟨linked_make, storesScenes_make ownScenes, ?_, rfl, ?_⟩
  · refine ⟨?_, ?_, ?_, ?_, ?_, ?_, ?_⟩
    · intro uuid id held
      simp [Chronicle.start, make, StreamManager.make, ObjectSceneCache.make] at held
    · simp [Chronicle.start]
    · simp [Chronicle.start]
    · simp [Chronicle.start]
    · simp [Chronicle.start, make, StreamManager.make, ObjectSceneCache.make]
    · intro uuid scene cached
      simp [Chronicle.start, make, StreamManager.make, ObjectSceneCache.make] at cached
    · exact fun path scene filed => capture_lt_make filed
  · simp [Chronicle.start, make, StreamManager.make]

/-- At every point of a run `acquire` is current for an object if and only if a usable node is kept,
or the cached scene is not the copy that its latest unload found. -/
theorem reload_current_iff {db : StreamSqliteDB} {files : Table ScenePath PackedScene}
    {sceneCap nodeCap : ℕ} {uuidGenerator : ℕ → {uuid : Uuid // uuid ≠ Uuid.nil}}
    {chronicle : Chronicle}
    (ownScenes : ∀ path scene, files.get? path = some scene → MakesOwn path.uuid scene)
    (reached : Reaches Chronicle.step Chronicle.Reloads
      (.start (make db files sceneCap nodeCap uuidGenerator)) chronicle) (uuid : Uuid) :
    chronicle.Current uuid ↔ ∀ unload ∈ chronicle.latest uuid,
      (∃ id, chronicle.world.manager.cache.HoldsUsable chronicle.world.objectDb uuid id) ∨
        ∀ copy ∈ unload.copy, chronicle.world.manager.cache.sceneCache.peek uuid ≠ some copy := by
  have recorded : Recorded chronicle := by
    apply reached.invariant (recorded_start ownScenes)
    exact fun _ _ _ before allowed stepped => before.step allowed stepped
  have records := recorded.records
  constructor
  · intro current unload latest
    by_cases usable : ∃ id,
        chronicle.world.manager.cache.HoldsUsable chronicle.world.objectDb uuid id
    · exact Or.inl usable
    · refine Or.inr ?_
      intro copy found cached
      rcases ObjectSceneCache.acquire_of_not_usable (not_exists.mp usable) with
        ⟨absent, _⟩ | ⟨scene, held, made, objectDb⟩
      · rw [cached] at absent
        simp at absent
      · rw [cached, Option.some.injEq] at held
        subst held
        rcases records.saved uuid unload latest with ⟨saved, savedEq, savedRoot, _, older⟩
        rcases current _ made unload latest with node | ⟨scene, isSaved, same⟩
        · exact instantiate_ne_of_issued (records.issued uuid unload latest) node
        · rw [Option.mem_def, savedEq, Option.some.injEq] at isSaved
          subst isSaved
          rw [objectDb] at same
          have sameCapture := capture_eq_of_instantiate savedRoot same
          exact (older copy found).ne sameCapture
  · intro condition made acquired unload latest
    by_cases usable : ∃ id,
        chronicle.world.manager.cache.HoldsUsable chronicle.world.objectDb uuid id
    · rcases usable with ⟨id, usable⟩
      left
      rcases records.kept uuid id usable.1 with ⟨last, lastEq, node⟩
      rw [Option.mem_def, lastEq, Option.some.injEq] at latest
      rw [Option.mem_def, (ObjectSceneCache.acquire_of_usable usable).1,
        Option.some.injEq] at acquired
      rw [← acquired, ← latest, node]
    · right
      have renewed := (condition unload latest).resolve_left usable
      rcases ObjectSceneCache.acquire_of_not_usable (not_exists.mp usable) with
        ⟨_, nothing, _⟩ | ⟨scene, cached, instanceEq, objectDb⟩
      · rw [Option.mem_def, nothing] at acquired
        simp at acquired
      · rw [Option.mem_def, instanceEq, Option.some.injEq] at acquired
        rcases records.copies uuid unload scene latest cached with saved | found
        · exact ⟨scene, saved, by rw [← acquired, objectDb]⟩
        · exact absurd cached (renewed scene found)

/-- The scene of a root with the uuid. -/
def sceneOf (uuid : Uuid) : PackedScene :=
  { root := some { uuid, parentUuid := Uuid.nil, aabb := unitBox }, capture := 0 }

/-- A manager that keeps one node, with the files of two objects. -/
def stocked : Chronicle :=
  .start (make .create ((Table.insert ∅ ⟨"", 1⟩ (sceneOf 1)).insert ⟨"", 2⟩ (sceneOf 2)) 2 1
    counting)

theorem carries_stocked (path : ScenePath) (scene : PackedScene)
    (filed : stocked.world.files.get? path = some scene) : Carries path.uuid scene := by
  simp only [stocked, Chronicle.start, make, Table.get?_insert, Table.get?_empty] at filed
  split at filed
  case isTrue here =>
    rw [← Option.some.inj filed, here]
    rfl
  case isFalse =>
    split at filed
    case isTrue here =>
      rw [← Option.some.inj filed, here]
      rfl
    case isFalse => simp at filed

/-- Both objects come into range, are loaded, and their scenes stay cached. -/
def bothLoaded : List Action :=
  [.result ((Table.insert ∅ 1 { parentUuid := Uuid.nil, nodeRoot := 0 }).insert 2
      { parentUuid := Uuid.nil, nodeRoot := 0 }),
    .load eagerLoader 1, .load eagerLoader 2, .update eagerLoader,
    .load eagerLoader 1, .load eagerLoader 2]

theorem reload_current_kept :
    (runAll Chronicle.step (bothLoaded ++ [.unload 1]) stocked).Current 1 := by
  have reached : Reaches Chronicle.step Chronicle.Reloads stocked
      (runAll Chronicle.step (bothLoaded ++ [.unload 1]) stocked) :=
    reaches_runAll (by decide +kernel) (by decide +kernel)
  have ownScenes (path : ScenePath) (scene : PackedScene)
      (filed : stocked.world.files.get? path = some scene) : MakesOwn path.uuid scene :=
    (carries_stocked path scene filed).makesOwn
  apply (reload_current_iff ownScenes reached 1).mpr
  intro unload latest
  left
  refine ⟨1, by decide +kernel, ?_⟩
  exact ⟨{ uuid := 1, parentUuid := Uuid.nil, aabb := unitBox, capture := some 0 },
    by decide +kernel, rfl⟩

/-- The node of the first object is displaced by the second, and the cached copy of its scene is
older than its file. -/
theorem reload_old :
    let chronicle := runAll Chronicle.step (bothLoaded ++ [.unload 1, .unload 2]) stocked
    Reaches Chronicle.step Chronicle.Reloads stocked chronicle ∧ ¬ chronicle.Current 1 := by
  intro chronicle
  refine ⟨reaches_runAll (by decide +kernel) (by decide +kernel), ?_⟩
  intro current
  have latest : chronicle.latest 1 = some
      { node := 1, saved := some { sceneOf 1 with capture := 1 }, copy := some (sceneOf 1) } := by
    decide +kernel
  have displaced : chronicle.world.manager.cache.nodeCache.peek 1 = none := by decide +kernel
  have unusable (id : ObjectID) :
      ¬ chronicle.world.manager.cache.HoldsUsable chronicle.world.objectDb 1 id := by
    rintro ⟨held, _⟩
    rw [displaced] at held
    simp at held
  have cached : chronicle.world.manager.cache.sceneCache.peek 1 = some (sceneOf 1) := by
    decide +kernel
  rcases ObjectSceneCache.acquire_of_not_usable unusable with
    ⟨absent, _⟩ | ⟨scene, held, made, objectDb⟩
  · rw [cached] at absent
    simp at absent
  · rw [cached, Option.some.injEq] at held
    subst held
    rcases current _ made _ latest with node | ⟨scene, isSaved, same⟩
    · have issued : 1 < chronicle.world.objectDb.nextId := by decide +kernel
      exact instantiate_ne_of_issued issued node
    · rw [Option.mem_def, Option.some.injEq] at isSaved
      subst isSaved
      rw [objectDb] at same
      have sameMade : (sceneOf 1).instantiate chronicle.world.objectDb =
          PackedScene.instantiate { sceneOf 1 with capture := 1 } chronicle.world.objectDb := same
      have sameCapture := capture_eq_of_instantiate rfl sameMade
      simp [sceneOf] at sameCapture

end Runs

end World

end GodotStream
