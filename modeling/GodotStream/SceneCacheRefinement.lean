import GodotStream.CacheIterators

/-!
# The scene cache as two bounded maps

Every operation of `ObjectSceneCache` makes a few calls to its two caches. Beside a run of
the operations from fresh caches goes a run of the same calls on two lists in the order of
last use, and on two caches whose policies follow their iterators. In every state the
caches refine the lists, and no iterator was missing.
-/

namespace GodotStream

open Storage

universe u v

section Calls

variable {κ : Type u} {ν : Type v} [DecidableEq κ]

def FixedSizedCache.callAll (cache : FixedSizedCache κ ν) (requests : List (CacheCall κ ν)) :
    FixedSizedCache κ ν :=
  requests.foldl (fun cache request => (cache.call request).after) cache

/-- A cache with the list that it stands for, and the same cache with iterators, unless one was
missing. -/
structure StandsFor (cache : FixedSizedCache κ ν) (list : RecencyList κ ν)
    (iterators : Option (IteratorCache κ ν)) (capacity : ℕ) : Prop where
  capacity : list.capacity = max capacity 1
  refines : cache.Refines list
  inStep : cache.InStep
  answers : ∀ request, (cache.call request).found = (list.call request).found ∧
    (cache.call request).dropped.Perm (list.call request).dropped
  follows : IteratorCache.Follows iterators cache

variable {cache : FixedSizedCache κ ν} {list : RecencyList κ ν}
  {iterators : Option (IteratorCache κ ν)} {capacity : ℕ}

theorem StandsFor.of_refines (refines : cache.Refines list)
    (bound : list.capacity = max capacity 1) (follows : IteratorCache.Follows iterators cache) :
    StandsFor cache list iterators capacity :=
  ⟨bound, refines, refines.inStep, fun request => (refines.call request).2, follows⟩

theorem standsFor_make (capacity : ℕ) :
    StandsFor (.make capacity : FixedSizedCache κ ν) (.empty capacity) (some (.make capacity))
      capacity :=
  .of_refines (FixedSizedCache.refines_make capacity) rfl
    ⟨_, rfl, IteratorCache.represents_make capacity⟩

theorem StandsFor.call (stands : StandsFor cache list iterators capacity)
    (request : CacheCall κ ν) :
    StandsFor (cache.call request).after (list.call request).after
      (iterators.bind fun iterators => iterators.call request) capacity := by
  rcases stands.follows with ⟨start, rfl, represents⟩
  apply StandsFor.of_refines (stands.refines.call request).1
  · rw [RecencyList.capacity_call, stands.capacity]
  · exact represents.call stands.refines request

theorem StandsFor.callAll (stands : StandsFor cache list iterators capacity)
    (requests : List (CacheCall κ ν)) :
    StandsFor (cache.callAll requests) (list.callAll requests)
      (iterators.bind fun iterators => requests.foldlM IteratorCache.call iterators) capacity := by
  induction requests generalizing cache list iterators with
  | nil => simpa [FixedSizedCache.callAll, RecencyList.callAll] using stands
  | cons request rest ih =>
      have after := ih (stands.call request)
      rw [Option.bind_assoc] at after
      exact after

end Calls

namespace ObjectSceneCache

/-- The operations, each with what the engine answers to it. -/
inductive Operation where
  | storeScene (uuid : Uuid) (scene : PackedScene)
  | getScene (uuid : Uuid)
  | requestScene (uuid : Uuid) (path : ScenePath) (accepts : Bool)
  | removeScene (uuid : Uuid)
  | update (status : LoadingEntry → ThreadLoadStatus)
  | release (objectDb : ObjectDB) (uuid : Uuid) (id : ObjectID)
  | acquire (objectDb : ObjectDB) (uuid : Uuid)
  | freeAllNode (objectDb : ObjectDB)

def perform (cache : ObjectSceneCache) : Operation → ObjectSceneCache
  | .storeScene uuid scene => cache.storeScene uuid scene
  | .getScene uuid => (cache.getScene uuid).2
  | .requestScene uuid path accepts => (cache.requestScene uuid path accepts).2
  | .removeScene uuid => cache.removeScene uuid
  | .update status => cache.update status
  | .release objectDb uuid id => (cache.release objectDb uuid id).1
  | .acquire objectDb uuid => (cache.acquire objectDb uuid).2.1
  | .freeAllNode objectDb => (cache.freeAllNode objectDb).1

/-- A node that `acquire` hands out when it finds it in the node cache. -/
def usable (objectDb : ObjectDB) (id : ObjectID) : Bool :=
  (objectDb.getInstance id).any fun node => !node.queuedForDeletion

/-- The node cache has a node that `acquire` hands out. -/
def offersNode (cache : ObjectSceneCache) (objectDb : ObjectDB) (uuid : Uuid) : Bool :=
  (cache.nodeCache.peek uuid).any (usable objectDb)

/-- A finished request stores its scene. -/
def loadedCall (status : LoadingEntry → ThreadLoadStatus) (entry : LoadingEntry) :
    Option (CacheCall Uuid PackedScene) :=
  match status entry with
  | .loaded (some scene) => some (.put entry.uuid scene)
  | _ => none

/-- The calls to the scene cache. -/
def sceneCalls (cache : ObjectSceneCache) : Operation → List (CacheCall Uuid PackedScene)
  | .storeScene uuid scene => [.put uuid scene]
  | .getScene uuid => [.tryGet uuid]
  | .requestScene uuid _ _ => if uuid ∈ cache.removeLoadingSet then [] else [.tryGet uuid]
  | .removeScene uuid => [.remove uuid]
  | .update status => cache.loadingRequests.filterMap (loadedCall status)
  | .release .. => []
  | .acquire objectDb uuid => if cache.offersNode objectDb uuid then [] else [.tryGet uuid]
  | .freeAllNode _ => [.clear]

/-- The calls to the node cache. -/
def nodeCalls : Operation → List (CacheCall Uuid ObjectID)
  | .release _ uuid id => [.put uuid id]
  | .acquire _ uuid => [.pop uuid]
  | .freeAllNode _ => [.clear]
  | .storeScene .. | .getScene _ | .requestScene .. | .removeScene _ | .update _ => []

theorem sceneCache_foldl_pollRequest (status : LoadingEntry → ThreadLoadStatus)
    (entries : List LoadingEntry) (cache : ObjectSceneCache) :
    (entries.foldl (pollRequest status) cache).sceneCache =
      cache.sceneCache.callAll (entries.filterMap (loadedCall status)) := by
  induction entries generalizing cache with
  | nil => rfl
  | cons entry rest ih =>
      rw [List.foldl_cons, ih, List.filterMap_cons, pollRequest, loadedCall]
      cases status entry with
      | loaded scene => cases scene <;> rfl
      | invalidResource | inProgress | failed => rfl

/-- `acquire` hands out a usable node, and otherwise makes an instance of the cached scene. -/
theorem acquire_eq (cache : ObjectSceneCache) (objectDb : ObjectDB) (uuid : Uuid) :
    cache.acquire objectDb uuid =
      match (cache.nodeCache.peek uuid).filter (usable objectDb) with
      | some id =>
          (some (.object id), { cache with nodeCache := (cache.nodeCache.pop uuid).2 }, objectDb)
      | none =>
          acquireInstance { cache with nodeCache := (cache.nodeCache.pop uuid).2 } objectDb
            uuid := by
  rcases popped : cache.nodeCache.pop uuid with ⟨taken, nodeCache⟩
  have held : cache.nodeCache.peek uuid = taken := by
    rw [← FixedSizedCache.pop_fst, popped]
  simp only [acquire, popped, held]
  cases taken with
  | none => rfl
  | some id =>
      cases found : objectDb.getInstance id with
      | none => simp [Option.filter, usable, found]
      | some node =>
          cases queued : node.queuedForDeletion <;> simp [Option.filter, usable, found, queued]

theorem sceneCache_acquire (cache : ObjectSceneCache) (objectDb : ObjectDB) (uuid : Uuid) :
    (cache.acquire objectDb uuid).2.1.sceneCache =
      if cache.offersNode objectDb uuid then cache.sceneCache
      else (cache.sceneCache.tryGet uuid).2 := by
  have made (nodeCache : FixedSizedCache Uuid ObjectID) :
      (acquireInstance { cache with nodeCache } objectDb uuid).2.1.sceneCache =
        (cache.sceneCache.tryGet uuid).2 := by
    simp only [acquireInstance, getScene]
    cases (cache.sceneCache.tryGet uuid).1 <;> rfl
  rw [acquire_eq, offersNode]
  cases cache.nodeCache.peek uuid with
  | none => simpa using made _
  | some id =>
      cases isUsable : usable objectDb id with
      | true => simp [Option.filter, isUsable]
      | false => simpa [Option.filter, isUsable] using made _

theorem acquire_fst (cache : ObjectSceneCache) (objectDb : ObjectDB) (uuid : Uuid) :
    (cache.acquire objectDb uuid).1 =
      (((cache.nodeCache.peek uuid).filter (usable objectDb)).map Instance.object).or
        ((cache.sceneCache.peek uuid).map fun scene => (scene.instantiate objectDb).1) := by
  have made (nodeCache : FixedSizedCache Uuid ObjectID) :
      (acquireInstance { cache with nodeCache } objectDb uuid).1 =
        (cache.sceneCache.peek uuid).map fun scene => (scene.instantiate objectDb).1 := by
    rw [← FixedSizedCache.tryGet_fst]
    simp only [acquireInstance, getScene]
    cases (cache.sceneCache.tryGet uuid).1 <;> rfl
  rw [acquire_eq]
  cases (cache.nodeCache.peek uuid).filter (usable objectDb) with
  | none => exact made _
  | some id => rfl

theorem requestScene_fst (cache : ObjectSceneCache) (uuid : Uuid) (path : ScenePath)
    (accepts : Bool) :
    (cache.requestScene uuid path accepts).1 = true ↔ uuid ∉ cache.removeLoadingSet ∧
      ((cache.sceneCache.peek uuid).isSome ∨ uuid ∈ cache.loadingSet ∨ accepts = true) := by
  have sameSet : (cache.getScene uuid).2.loadingSet = cache.loadingSet := rfl
  simp only [requestScene, getScene_fst, sameSet, ← or_assoc]
  split
  case isTrue damaged => simp [damaged]
  case isFalse intact =>
    split
    case isTrue waits => simp [intact, waits]
    case isFalse fresh =>
      rw [or_iff_right fresh]
      cases accepts <;> simp [intact]

/-- A release frees exactly the node that it displaces. -/
theorem release_snd (cache : ObjectSceneCache) (objectDb : ObjectDB) (uuid : Uuid)
    (id : ObjectID) :
    (cache.release objectDb uuid id).2 =
      (cache.nodeCache.put uuid id).2.elim objectDb fun evicted => objectDb.free evicted.2 := by
  rcases stored : cache.nodeCache.put uuid id with ⟨nodeCache, evicted⟩
  simp only [release, stored]
  cases evicted <;> rfl

theorem sceneCache_perform (cache : ObjectSceneCache) (operation : Operation) :
    (cache.perform operation).sceneCache =
      cache.sceneCache.callAll (cache.sceneCalls operation) := by
  cases operation with
  | storeScene | getScene | removeScene | freeAllNode => rfl
  | requestScene uuid path accepts =>
      simp only [perform, requestScene, sceneCalls]
      split
      · rfl
      · split
        · rfl
        · split <;> rfl
  | update status =>
      simp only [perform, update, sceneCalls]
      rw [sceneCache_foldl_pollRequest]
  | release objectDb uuid id =>
      rw [perform, release_fst]
      rfl
  | acquire objectDb uuid =>
      rw [perform, sceneCache_acquire, sceneCalls]
      split <;> rfl

theorem nodeCache_perform (cache : ObjectSceneCache) (operation : Operation) :
    (cache.perform operation).nodeCache = cache.nodeCache.callAll (nodeCalls operation) := by
  cases operation with
  | storeScene | getScene | removeScene | freeAllNode => rfl
  | requestScene uuid path accepts => exact nodeCache_requestScene cache uuid path accepts
  | update status => exact nodeCache_update cache status
  | release objectDb uuid id => exact nodeCache_release cache objectDb uuid id
  | acquire objectDb uuid => exact (acquire_caches cache objectDb uuid).1

end ObjectSceneCache

/-- A scene cache beside the lists that its caches stand for, and beside the caches with iterators,
which are gone once an iterator was missing. -/
structure ShadowedCache where
  cache : ObjectSceneCache
  scenes : RecencyList Uuid PackedScene
  nodes : RecencyList Uuid ObjectID
  sceneIterators : Option (IteratorCache Uuid PackedScene)
  nodeIterators : Option (IteratorCache Uuid ObjectID)

namespace ShadowedCache

open ObjectSceneCache

def make (sceneCap nodeCap : ℕ) : ShadowedCache :=
  { cache := .make sceneCap nodeCap
    scenes := .empty sceneCap
    nodes := .empty nodeCap
    sceneIterators := some (.make sceneCap)
    nodeIterators := some (.make nodeCap) }

/-- One operation, with its calls on both sides. -/
def step (shadowed : ShadowedCache) (operation : Operation) : ShadowedCache :=
  let sceneRequests := shadowed.cache.sceneCalls operation
  let nodeRequests := nodeCalls operation
  { cache := shadowed.cache.perform operation
    scenes := shadowed.scenes.callAll sceneRequests
    nodes := shadowed.nodes.callAll nodeRequests
    sceneIterators := shadowed.sceneIterators.bind fun iterators =>
      sceneRequests.foldlM IteratorCache.call iterators
    nodeIterators := shadowed.nodeIterators.bind fun iterators =>
      nodeRequests.foldlM IteratorCache.call iterators }

/-- Both caches stand for their lists. -/
structure Agrees (shadowed : ShadowedCache) (sceneCap nodeCap : ℕ) : Prop where
  scenes : StandsFor shadowed.cache.sceneCache shadowed.scenes shadowed.sceneIterators sceneCap
  nodes : StandsFor shadowed.cache.nodeCache shadowed.nodes shadowed.nodeIterators nodeCap

/-- What the operations return, as the lists have it: the scene that is listed, the listed node
while it is usable, and the nodes that are destroyed. -/
structure Answers (shadowed : ShadowedCache) : Prop where
  getScene : ∀ uuid, (shadowed.cache.getScene uuid).1 = shadowed.scenes.find? uuid
  requestScene : ∀ uuid path accepts, (shadowed.cache.requestScene uuid path accepts).1 = true ↔
    uuid ∉ shadowed.cache.removeLoadingSet ∧
      ((shadowed.scenes.find? uuid).isSome ∨ uuid ∈ shadowed.cache.loadingSet ∨ accepts = true)
  acquire : ∀ objectDb uuid, (shadowed.cache.acquire objectDb uuid).1 =
    (((shadowed.nodes.find? uuid).filter (usable objectDb)).map Instance.object).or
      ((shadowed.scenes.find? uuid).map fun scene => (scene.instantiate objectDb).1)
  release : ∀ objectDb uuid id, (shadowed.cache.release objectDb uuid id).2 =
    (shadowed.nodes.displaced uuid).elim objectDb fun evicted => objectDb.free evicted.2
  freeAllNode : ∀ objectDb, ∃ freed : List (Uuid × ObjectID),
    freed.Perm shadowed.nodes.recent.entries ∧ (shadowed.cache.freeAllNode objectDb).2 =
      freed.foldl (fun objectDb entry => objectDb.free entry.2) objectDb

theorem Agrees.answers {shadowed : ShadowedCache} {sceneCap nodeCap : ℕ}
    (agrees : shadowed.Agrees sceneCap nodeCap) : shadowed.Answers := by
  have scenes := agrees.scenes.refines
  have nodes := agrees.nodes.refines
  refine ⟨?_, ?_, ?_, ?_, ?_⟩
  · intro uuid
    rw [getScene_fst, scenes.peek_eq]
  · intro uuid path accepts
    rw [requestScene_fst, scenes.peek_eq]
  · intro objectDb uuid
    rw [acquire_fst, nodes.peek_eq, scenes.peek_eq]
  · intro objectDb uuid id
    rw [release_snd, (nodes.put uuid id).2]
  · exact fun objectDb => ⟨_, (nodes.call .clear).2.2, rfl⟩

theorem Agrees.step {shadowed : ShadowedCache} {sceneCap nodeCap : ℕ}
    (agrees : shadowed.Agrees sceneCap nodeCap) (operation : Operation) :
    (shadowed.step operation).Agrees sceneCap nodeCap := by
  refine ⟨?_, ?_⟩
  · rw [ShadowedCache.step, sceneCache_perform]
    exact agrees.scenes.callAll _
  · rw [ShadowedCache.step, nodeCache_perform]
    exact agrees.nodes.callAll _

/-- After every sequence of operations on caches of any capacities, each of the two caches stands
for the list that the same calls leave, no call has followed a missing iterator, and the next
operation returns what the lists have. -/
theorem agrees_foldl_step (sceneCap nodeCap : ℕ) (operations : List Operation) :
    (operations.foldl step (make sceneCap nodeCap)).cache =
        operations.foldl perform (.make sceneCap nodeCap) ∧
      (operations.foldl step (make sceneCap nodeCap)).Agrees sceneCap nodeCap ∧
      (operations.foldl step (make sceneCap nodeCap)).Answers := by
  have start : (make sceneCap nodeCap).Agrees sceneCap nodeCap :=
    ⟨standsFor_make sceneCap, standsFor_make nodeCap⟩
  have run (shadowed : ShadowedCache) (agrees : shadowed.Agrees sceneCap nodeCap) :
      (operations.foldl step shadowed).cache = operations.foldl perform shadowed.cache ∧
        (operations.foldl step shadowed).Agrees sceneCap nodeCap := by
    induction operations generalizing shadowed with
    | nil => exact ⟨rfl, agrees⟩
    | cons operation rest ih => exact ih (shadowed.step operation) (agrees.step operation)
  rcases run _ start with ⟨same, agrees⟩
  exact ⟨same, agrees, agrees.answers⟩

end ShadowedCache

end GodotStream
