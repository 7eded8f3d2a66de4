import GodotStream.FixedSizedCache
import GodotStream.SceneTree

/-!
# The scene cache

Model of `object_scene_cache.cpp`: unloaded nodes, scene resources, and the requests
to the engine's background loader. The loader answers through a status for each
request, which the caller supplies. The memory of a node that falls out of the node
cache is freed, without a destructor. The code keeps pointers, and `acquire` follows the
kept one before it asks for the instance: a kept node must not be destroyed. Scenes are
stored on disk under a path made of the scene directory and the uuid.
-/

namespace GodotStream

open Storage

structure ScenePath where
  dir : String
  uuid : Uuid
deriving DecidableEq

structure LoadingEntry where
  uuid : Uuid
  path : ScenePath
deriving DecidableEq

/-- `ResourceLoader::ThreadLoadStatus`, with the resource when it is loaded; it is `none` when it
is not a `PackedScene`. -/
inductive ThreadLoadStatus where
  | invalidResource
  | inProgress
  | failed
  | loaded (scene : Option PackedScene)

/-- A node made from a scene: one of ours, or a node of another type. -/
inductive Instance where
  | object (id : ObjectID)
  | other

structure ObjectSceneCache where
  nodeCache : FixedSizedCache Uuid ObjectID
  sceneCache : FixedSizedCache Uuid PackedScene
  loadingRequests : List LoadingEntry
  loadingSet : Table Uuid Unit
  removeLoadingSet : Table Uuid Unit

/-- `PackedScene::instantiate`. -/
def PackedScene.instantiate (scene : PackedScene) (objectDb : ObjectDB) : Instance × ObjectDB :=
  match scene.root with
  | none => (.other, objectDb)
  | some root =>
      let made := objectDb.instantiate root scene.capture
      (.object made.1, made.2)

namespace ObjectSceneCache

def make (sceneCap nodeCap : ℕ) : ObjectSceneCache :=
  { nodeCache := .make nodeCap
    sceneCache := .make sceneCap
    loadingRequests := []
    loadingSet := ∅
    removeLoadingSet := ∅ }

def getScene (cache : ObjectSceneCache) (uuid : Uuid) : Option PackedScene × ObjectSceneCache :=
  let answer := cache.sceneCache.tryGet uuid
  (answer.1, { cache with sceneCache := answer.2 })

def storeScene (cache : ObjectSceneCache) (uuid : Uuid) (scene : PackedScene) : ObjectSceneCache :=
  { cache with sceneCache := (cache.sceneCache.put uuid scene).1 }

def removeScene (cache : ObjectSceneCache) (uuid : Uuid) : ObjectSceneCache :=
  { cache with sceneCache := (cache.sceneCache.remove uuid).1 }

/-- The second half of `acquire`: make an instance of a cached scene. -/
def acquireInstance (cache : ObjectSceneCache) (objectDb : ObjectDB) (uuid : Uuid) :
    Option Instance × ObjectSceneCache × ObjectDB :=
  match cache.getScene uuid with
  | (none, cache) => (none, cache, objectDb)
  | (some scene, cache) =>
      let made := scene.instantiate objectDb
      (some made.1, cache, made.2)

/-- A node to mount: the cached node if it is still usable, else an instance of a cached scene. A
kept node that was destroyed counts as unusable here, where the code reads freed memory. -/
def acquire (cache : ObjectSceneCache) (objectDb : ObjectDB) (uuid : Uuid) :
    Option Instance × ObjectSceneCache × ObjectDB :=
  match cache.nodeCache.pop uuid with
  | (none, nodeCache) => acquireInstance { cache with nodeCache } objectDb uuid
  | (some id, nodeCache) =>
      match objectDb.getInstance id with
      | none => acquireInstance { cache with nodeCache } objectDb uuid
      | some node =>
          if node.queuedForDeletion then acquireInstance { cache with nodeCache } objectDb uuid
          else (some (.object id), { cache with nodeCache }, objectDb)

/-- Keep an unloaded node; the memory of the node that it displaces is freed. -/
def release (cache : ObjectSceneCache) (objectDb : ObjectDB) (uuid : Uuid) (id : ObjectID) :
    ObjectSceneCache × ObjectDB :=
  match cache.nodeCache.put uuid id with
  | (nodeCache, none) => ({ cache with nodeCache }, objectDb)
  | (nodeCache, some evicted) => ({ cache with nodeCache }, objectDb.free evicted.2)

/-- Ask for a scene in the background; `accepts` is the loader's answer to a new request. -/
def requestScene (cache : ObjectSceneCache) (uuid : Uuid) (path : ScenePath) (accepts : Bool) :
    Bool × ObjectSceneCache :=
  if uuid ∈ cache.removeLoadingSet then
    (false, { cache with removeLoadingSet := cache.removeLoadingSet.erase uuid })
  else
    let answer := cache.getScene uuid
    if answer.1.isSome ∨ uuid ∈ answer.2.loadingSet then (true, answer.2)
    else if accepts then
      (true, { answer.2 with
        loadingRequests := answer.2.loadingRequests ++ [⟨uuid, path⟩]
        loadingSet := answer.2.loadingSet.insert uuid () })
    else (false, answer.2)

/-- Handle one pending request; an unfinished one stays in the list. -/
def pollRequest (status : LoadingEntry → ThreadLoadStatus) (cache : ObjectSceneCache)
    (entry : LoadingEntry) : ObjectSceneCache :=
  match status entry with
  | .loaded scene =>
      let cache := match scene with
        | none => cache
        | some scene => cache.storeScene entry.uuid scene
      { cache with loadingSet := cache.loadingSet.erase entry.uuid }
  | .failed =>
      { cache with
        loadingSet := cache.loadingSet.erase entry.uuid
        removeLoadingSet := cache.removeLoadingSet.insert entry.uuid () }
  | .inProgress | .invalidResource =>
      { cache with loadingRequests := cache.loadingRequests ++ [entry] }

/-- Poll the loader for every pending request. -/
def update (cache : ObjectSceneCache) (status : LoadingEntry → ThreadLoadStatus) :
    ObjectSceneCache :=
  cache.loadingRequests.foldl (pollRequest status) { cache with loadingRequests := [] }

/-- `free_all_node`: both caches are emptied, and the memory of the kept nodes is freed. -/
def freeAllNode (cache : ObjectSceneCache) (objectDb : ObjectDB) : ObjectSceneCache × ObjectDB :=
  let nodes := cache.nodeCache.clearWithCallback
  let scenes := cache.sceneCache.clearWithCallback
  ({ cache with nodeCache := nodes.1, sceneCache := scenes.1 },
    nodes.2.foldl (fun objectDb erased => objectDb.free erased.2) objectDb)

@[simp]
theorem nodeCache_getScene (cache : ObjectSceneCache) (uuid : Uuid) :
    (cache.getScene uuid).2.nodeCache = cache.nodeCache :=
  rfl

@[simp]
theorem getScene_fst (cache : ObjectSceneCache) (uuid : Uuid) :
    (cache.getScene uuid).1 = cache.sceneCache.peek uuid := by
  simp [getScene]

@[simp]
theorem peek_getScene (cache : ObjectSceneCache) (uuid other : Uuid) :
    (cache.getScene uuid).2.sceneCache.peek other = cache.sceneCache.peek other := by
  simp [getScene]

@[simp]
theorem nodeCache_storeScene (cache : ObjectSceneCache) (uuid : Uuid) (scene : PackedScene) :
    (cache.storeScene uuid scene).nodeCache = cache.nodeCache :=
  rfl

@[simp]
theorem nodeCache_removeScene (cache : ObjectSceneCache) (uuid : Uuid) :
    (cache.removeScene uuid).nodeCache = cache.nodeCache :=
  rfl

@[simp]
theorem nodeCache_requestScene (cache : ObjectSceneCache) (uuid : Uuid) (path : ScenePath)
    (accepts : Bool) : (cache.requestScene uuid path accepts).2.nodeCache = cache.nodeCache := by
  simp only [requestScene]
  split
  · rfl
  · split
    · rfl
    · split <;> rfl

@[simp]
theorem nodeCache_pollRequest (status : LoadingEntry → ThreadLoadStatus)
    (cache : ObjectSceneCache) (entry : LoadingEntry) :
    (cache.pollRequest status entry).nodeCache = cache.nodeCache := by
  simp only [pollRequest]
  split
  · split <;> rfl
  · rfl
  · rfl
  · rfl

@[simp]
theorem nodeCache_update (cache : ObjectSceneCache) (status : LoadingEntry → ThreadLoadStatus) :
    (cache.update status).nodeCache = cache.nodeCache := by
  have folded : ∀ (entries : List LoadingEntry) (other : ObjectSceneCache),
      (entries.foldl (pollRequest status) other).nodeCache = other.nodeCache := by
    intro entries
    induction entries with
    | nil => exact fun _ => rfl
    | cons entry rest ih =>
        intro other
        rw [List.foldl_cons, ih, nodeCache_pollRequest]
  exact folded _ _

/-- A release only stores in the node cache. -/
theorem release_fst (cache : ObjectSceneCache) (objectDb : ObjectDB) (uuid : Uuid)
    (id : ObjectID) :
    (cache.release objectDb uuid id).1 =
      { cache with nodeCache := (cache.nodeCache.put uuid id).1 } := by
  simp only [release]
  split <;> simp_all

@[simp]
theorem nodeCache_release (cache : ObjectSceneCache) (objectDb : ObjectDB) (uuid : Uuid)
    (id : ObjectID) :
    (cache.release objectDb uuid id).1.nodeCache = (cache.nodeCache.put uuid id).1 := by
  rw [release_fst]

/-- A release frees at most one node, which the cache held under another uuid. -/
theorem objectDb_release (cache : ObjectSceneCache) (objectDb : ObjectDB) (uuid : Uuid)
    (id : ObjectID) :
    (cache.release objectDb uuid id).2 = objectDb ∨
      ∃ other evicted, other ≠ uuid ∧ cache.nodeCache.peek other = some evicted ∧
        (cache.release objectDb uuid id).2 = objectDb.free evicted := by
  simp only [release]
  split
  · exact Or.inl rfl
  case h_2 evicted putEq =>
    have erased : (cache.nodeCache.put uuid id).2 = some evicted := by rw [putEq]
    exact Or.inr ⟨evicted.1, evicted.2, FixedSizedCache.ne_of_put erased,
      FixedSizedCache.peek_of_put erased, rfl⟩

/-- The node cache holds a node under the uuid that `acquire` hands out. -/
def HoldsUsable (cache : ObjectSceneCache) (objectDb : ObjectDB) (uuid : Uuid)
    (id : ObjectID) : Prop :=
  cache.nodeCache.peek uuid = some id ∧
    ∃ node, objectDb.getInstance id = some node ∧ node.queuedForDeletion = false

/-- `acquire` only takes the uuid out of the node cache. -/
theorem acquire_caches (cache : ObjectSceneCache) (objectDb : ObjectDB) (uuid : Uuid) :
    (cache.acquire objectDb uuid).2.1.nodeCache = (cache.nodeCache.pop uuid).2 ∧
      ∀ other, (cache.acquire objectDb uuid).2.1.sceneCache.peek other =
        cache.sceneCache.peek other := by
  have made (nodeCache : FixedSizedCache Uuid ObjectID) :
      (acquireInstance { cache with nodeCache } objectDb uuid).2.1.nodeCache = nodeCache ∧
        ∀ other,
          (acquireInstance { cache with nodeCache } objectDb uuid).2.1.sceneCache.peek other =
            cache.sceneCache.peek other := by
    simp only [acquireInstance, getScene]
    cases (cache.sceneCache.tryGet uuid).1 <;> simp
  simp only [acquire]
  split
  case h_1 popped => simpa [popped] using made _
  case h_2 popped =>
    split
    · simpa [popped] using made _
    · split
      · simpa [popped] using made _
      · simp [popped]

/-- Without a usable cached node `acquire` makes an instance of the cached scene, if there is
one. -/
theorem acquire_of_not_usable {cache : ObjectSceneCache} {objectDb : ObjectDB} {uuid : Uuid}
    (unusable : ∀ id, ¬ cache.HoldsUsable objectDb uuid id) :
    (cache.sceneCache.peek uuid = none ∧ (cache.acquire objectDb uuid).1 = none ∧
      (cache.acquire objectDb uuid).2.2 = objectDb) ∨
    ∃ scene, cache.sceneCache.peek uuid = some scene ∧
      (cache.acquire objectDb uuid).1 = some (scene.instantiate objectDb).1 ∧
      (cache.acquire objectDb uuid).2.2 = (scene.instantiate objectDb).2 := by
  have made (nodeCache : FixedSizedCache Uuid ObjectID) :
      (cache.sceneCache.peek uuid = none ∧
        (acquireInstance { cache with nodeCache } objectDb uuid).1 = none ∧
        (acquireInstance { cache with nodeCache } objectDb uuid).2.2 = objectDb) ∨
      ∃ scene, cache.sceneCache.peek uuid = some scene ∧
        (acquireInstance { cache with nodeCache } objectDb uuid).1 =
          some (scene.instantiate objectDb).1 ∧
        (acquireInstance { cache with nodeCache } objectDb uuid).2.2 =
          (scene.instantiate objectDb).2 := by
    rw [← FixedSizedCache.tryGet_fst]
    simp only [acquireInstance, getScene]
    cases (cache.sceneCache.tryGet uuid).1 <;> simp
  have popEq := FixedSizedCache.pop_fst cache.nodeCache uuid
  simp only [acquire]
  split
  · exact made _
  case h_2 id nodeCache popped =>
    rw [popped] at popEq
    split
    · exact made _
    case h_2 node found =>
      split
      · exact made _
      case isFalse notQueued =>
          exact (unusable id ⟨popEq.symm, node, found, by simpa using notQueued⟩).elim

theorem acquire_of_usable {cache : ObjectSceneCache} {objectDb : ObjectDB} {uuid : Uuid}
    {id : ObjectID} (usable : cache.HoldsUsable objectDb uuid id) :
    (cache.acquire objectDb uuid).1 = some (.object id) ∧
      (cache.acquire objectDb uuid).2.2 = objectDb := by
  rcases usable with ⟨held, node, found, notQueued⟩
  have popEq := FixedSizedCache.pop_fst cache.nodeCache uuid
  rw [held] at popEq
  rcases popped : cache.nodeCache.pop uuid with ⟨taken, nodeCache⟩
  rw [popped] at popEq
  simp only at popEq
  subst popEq
  simp [acquire, popped, found, notQueued]

end ObjectSceneCache

end GodotStream
