import GodotStream.Lib.Run
import GodotStream.ObjectSceneCache

/-!
# Conservation of cached nodes

A ledger of what happens to the nodes that are released to the scene cache: which of them
`acquire` hands back, which go to the eviction callback, and which are still held. The
callback frees the memory of a node and runs no destructor, so the engine keeps its id.
Others may destroy a node or queue it for deletion at any time. The cache keeps pointers,
which `acquire`, the evictions and `free_all_node` follow, so a node must not be destroyed
while it is held. A valid node is lost when another one is released under the same uuid:
`Put` then overwrites it without the callback.
-/

namespace GodotStream

open Storage Run

structure NodeLedger where
  cache : ObjectSceneCache
  objectDb : ObjectDB
  released : List ObjectID
  handedBack : List ObjectID
  evicted : List ObjectID
  /-- Freed or queued for deletion by others. -/
  invalidated : List ObjectID

inductive CacheOp where
  | release (uuid : Uuid) (id : ObjectID)
  | acquire (uuid : Uuid)
  | storeScene (uuid : Uuid) (scene : PackedScene)
  | getScene (uuid : Uuid)
  | removeScene (uuid : Uuid)
  | requestScene (uuid : Uuid) (path : ScenePath) (accepts : Bool)
  | update (status : LoadingEntry → ThreadLoadStatus)
  | freeAllNode
  /-- Others make a node. -/
  | create (uuid parentUuid : Uuid) (aabb : AABB)
  /-- Others destroy a node. -/
  | free (id : ObjectID)
  | queueFree (id : ObjectID)

namespace NodeLedger

/-- The node that `acquire` returns, if it is not a new instance. -/
def old (objectDb : ObjectDB) : Option Instance → List ObjectID
  | some (.object id) => if (objectDb.getInstance id).isSome then [id] else []
  | _ => []

/-- The node is alive and its memory is not freed. -/
def Readable (ledger : NodeLedger) (id : ObjectID) : Prop :=
  (ledger.objectDb.getInstance id).isSome = true ∧ id ∉ ledger.evicted

instance (ledger : NodeLedger) (id : ObjectID) : Decidable (ledger.Readable id) :=
  inferInstanceAs (Decidable (_ ∧ _))

def release (ledger : NodeLedger) (uuid : Uuid) (id : ObjectID) : NodeLedger :=
  { ledger with
    cache := (ledger.cache.release ledger.objectDb uuid id).1
    released := id :: ledger.released
    evicted := (ledger.cache.nodeCache.put uuid id).2.toList.map Prod.snd ++ ledger.evicted }

def acquire (ledger : NodeLedger) (uuid : Uuid) : NodeLedger :=
  let acquired := ledger.cache.acquire ledger.objectDb uuid
  { ledger with
    cache := acquired.2.1
    objectDb := acquired.2.2
    handedBack := old ledger.objectDb acquired.1 ++ ledger.handedBack }

def freeAllNode (ledger : NodeLedger) : NodeLedger :=
  { ledger with
    cache := (ledger.cache.freeAllNode ledger.objectDb).1
    evicted := ledger.cache.nodeCache.clearWithCallback.2.map Prod.snd ++ ledger.evicted }

def step (ledger : NodeLedger) : CacheOp → Option NodeLedger
  | .release uuid id => if ledger.Readable id then some (ledger.release uuid id) else none
  | .acquire uuid => some (ledger.acquire uuid)
  | .storeScene uuid scene => some { ledger with cache := ledger.cache.storeScene uuid scene }
  | .getScene uuid => some { ledger with cache := (ledger.cache.getScene uuid).2 }
  | .removeScene uuid => some { ledger with cache := ledger.cache.removeScene uuid }
  | .requestScene uuid path accepts =>
      some { ledger with cache := (ledger.cache.requestScene uuid path accepts).2 }
  | .update status => some { ledger with cache := ledger.cache.update status }
  | .freeAllNode => some ledger.freeAllNode
  | .create uuid parentUuid aabb =>
      some { ledger with objectDb := ledger.objectDb.create { uuid, parentUuid, aabb } }
  | .free id =>
      if ledger.Readable id then
        some { ledger with
          objectDb := ledger.objectDb.free id
          invalidated := id :: ledger.invalidated }
      else none
  | .queueFree id =>
      if ledger.Readable id then
        some { ledger with
          objectDb := ledger.objectDb.modify id fun node => { node with queuedForDeletion := true }
          invalidated := id :: ledger.invalidated }
      else none

def make (sceneCap nodeCap : ℕ) : NodeLedger :=
  { cache := .make sceneCap nodeCap
    objectDb := .empty
    released := []
    handedBack := []
    evicted := []
    invalidated := [] }

/-- The nodes in the node cache. -/
def held (ledger : NodeLedger) : List ObjectID :=
  ledger.cache.nodeCache.values

/-- A node is released only while it is out of the cache. -/
def Proper (ledger : NodeLedger) : CacheOp → Prop
  | .release _ id => id ∉ ledger.held
  | _ => True

instance decidableProper (ledger : NodeLedger) : ∀ op, Decidable (Proper ledger op)
  | .release _ _ => inferInstanceAs (Decidable (_ ∉ _))
  | .acquire _ | .storeScene .. | .getScene _ | .removeScene _ | .requestScene .. | .update _
  | .freeAllNode | .create .. | .free _ | .queueFree _ => isTrue trivial

/-- A node is released only under a uuid under which no valid node is held, and no held node is
destroyed. -/
def Careful (ledger : NodeLedger) (op : CacheOp) : Prop :=
  Proper ledger op ∧
    match op with
    | .release uuid _ => ∀ other, ¬ ledger.cache.HoldsUsable ledger.objectDb uuid other
    | .free id => id ∉ ledger.held
    | _ => True

/-- Each release of a node that others have not invalidated is matched by handing it back, by
passing it to the callback, or by holding it; every held pointer can be followed; and nothing is
held once the cache is cleared. -/
structure Conserves (ledger : NodeLedger) : Prop where
  settled : ∀ id ∉ ledger.invalidated, ledger.released.count id =
    ledger.handedBack.count id + ledger.evicted.count id + ledger.held.count id
  readable : ∀ id ∈ ledger.held, ledger.Readable id
  cleared : ledger.freeAllNode.held = []

/-- The invariant of the ledger. -/
structure Balanced (ledger : NodeLedger) : Prop where
  once : ledger.held.Nodup
  readable : ∀ id ∈ ledger.held, ledger.Readable id
  queued : ∀ id node, ledger.objectDb.getInstance id = some node →
    node.queuedForDeletion = true → id ∈ ledger.invalidated
  settled : ∀ id ∉ ledger.invalidated, ledger.released.count id =
    ledger.handedBack.count id + ledger.evicted.count id + ledger.held.count id

variable {ledger : NodeLedger}

section Release

theorem held_release (ledger : NodeLedger) (uuid : Uuid) (id : ObjectID) :
    (ledger.release uuid id).held = (ledger.cache.nodeCache.put uuid id).1.values := by
  simp only [held, release, ObjectSceneCache.nodeCache_release]

/-- A node that is held, but not usable, has been invalidated. -/
theorem Balanced.invalidated_of_not_usable (balanced : ledger.Balanced) {uuid : Uuid}
    {id : ObjectID} (found : ledger.cache.nodeCache.peek uuid = some id)
    (unusable : ¬ ledger.cache.HoldsUsable ledger.objectDb uuid id) :
    id ∈ ledger.invalidated := by
  have listed : id ∈ ledger.held :=
    (FixedSizedCache.values_perm_of_peek found).mem_iff.mpr List.mem_cons_self
  rcases Option.isSome_iff_exists.mp (balanced.readable id listed).1 with ⟨node, nodeFound⟩
  apply balanced.queued id node nodeFound
  by_contra notQueued
  exact unusable ⟨found, node, nodeFound, by simpa using notQueued⟩

/-- A release under a uuid whose node is no longer valid overwrites that node. -/
theorem Balanced.release_over (balanced : ledger.Balanced) {uuid : Uuid} {id old : ObjectID}
    (readable : ledger.Readable id) (out : id ∉ ledger.held)
    (found : ledger.cache.nodeCache.peek uuid = some old) (invalid : old ∈ ledger.invalidated) :
    (ledger.release uuid id).Balanced := by
  rcases FixedSizedCache.values_put_of_peek found id with ⟨kept, others, before, after⟩
  have invalidated : (ledger.release uuid id).invalidated = ledger.invalidated := rfl
  have sameEvicted : (ledger.release uuid id).evicted = ledger.evicted := by
    simp only [NodeLedger.release, kept, Option.toList_none, List.map_nil, List.nil_append]
  have othersHeld : ∀ other ∈ others, other ∈ ledger.held := fun other listed =>
    before.mem_iff.mpr (List.mem_cons_of_mem _ listed)
  have distinct : others.Nodup := (List.nodup_cons.mp (before.nodup_iff.mp balanced.once)).2
  refine ⟨?_, ?_, balanced.queued, ?_⟩
  · rw [held_release, after.nodup_iff, List.nodup_cons]
    exact ⟨fun listed => out (othersHeld id listed), distinct⟩
  · intro other listed
    rw [held_release, after.mem_iff, List.mem_cons] at listed
    have before : ledger.Readable other := by
      rcases listed with own | wasHeld
      · exact own ▸ readable
      · exact balanced.readable other (othersHeld other wasHeld)
    exact ⟨before.1, sameEvicted ▸ before.2⟩
  · intro other valid
    rw [invalidated] at valid
    have distinctOld : old ≠ other := fun same => valid (same ▸ invalid)
    have settled := balanced.settled other valid
    have heldBefore : ledger.held.count other = others.count other := by
      rw [held, before.count_eq, List.count_cons_of_ne distinctOld]
    rw [held_release, after.count_eq]
    simp only [NodeLedger.release, kept, Option.toList_none, List.map_nil, List.nil_append,
      List.count_cons]
    omega

/-- A release under a new uuid evicts at most what goes to the callback. -/
theorem Balanced.release_beside (balanced : ledger.Balanced) {uuid : Uuid} {id : ObjectID}
    (readable : ledger.Readable id) (out : id ∉ ledger.held)
    (absent : ledger.cache.nodeCache.peek uuid = none) : (ledger.release uuid id).Balanced := by
  have moved := FixedSizedCache.values_put_of_not_mem absent id
  have invalidated : (ledger.release uuid id).invalidated = ledger.invalidated := rfl
  have distinct : ((ledger.cache.nodeCache.put uuid id).2.toList.map Prod.snd ++
      (ledger.cache.nodeCache.put uuid id).1.values).Nodup := by
    rw [← moved.nodup_iff, List.nodup_cons]
    exact ⟨out, balanced.once⟩
  have fromHeld : ∀ other ∈ (ledger.cache.nodeCache.put uuid id).1.values,
      other = id ∨ other ∈ ledger.held := by
    intro other listed
    exact List.mem_cons.mp (moved.mem_iff.mpr (List.mem_append_right _ listed))
  refine ⟨?_, ?_, balanced.queued, ?_⟩
  · rw [held_release]
    exact (List.nodup_append.mp distinct).2.1
  · intro other listed
    rw [held_release] at listed
    have before : ledger.Readable other := by
      rcases fromHeld other listed with own | wasHeld
      · exact own ▸ readable
      · exact balanced.readable other wasHeld
    refine ⟨before.1, ?_⟩
    simp only [NodeLedger.release, List.mem_append, not_or]
    exact ⟨fun displaced => (List.nodup_append.mp distinct).2.2 other displaced other listed rfl,
      before.2⟩
  · intro other valid
    rw [invalidated] at valid
    have settled := balanced.settled other valid
    have counts := moved.count_eq other
    rw [List.count_cons, List.count_append] at counts
    rw [held_release]
    simp only [NodeLedger.release, List.count_cons, List.count_append]
    simp only [held] at settled
    omega

theorem Balanced.release (balanced : ledger.Balanced) {uuid : Uuid} {id : ObjectID}
    (readable : ledger.Readable id) (careful : Careful ledger (.release uuid id)) :
    (ledger.release uuid id).Balanced := by
  rcases careful with ⟨out, unusable⟩
  cases found : ledger.cache.nodeCache.peek uuid with
  | none => exact balanced.release_beside readable out found
  | some old =>
      exact balanced.release_over readable out found
        (balanced.invalidated_of_not_usable found (unusable old))

end Release

section Acquire

theorem held_acquire (ledger : NodeLedger) (uuid : Uuid) :
    ledger.held.Perm ((ledger.cache.nodeCache.peek uuid).toList ++ (ledger.acquire uuid).held) := by
  simp only [held, acquire, (ObjectSceneCache.acquire_caches _ _ _).1]
  exact FixedSizedCache.values_pop

/-- The valid node that is held under the uuid is handed back. -/
theorem Balanced.acquire_usable (balanced : ledger.Balanced) {uuid : Uuid} {id : ObjectID}
    (usable : ledger.cache.HoldsUsable ledger.objectDb uuid id) :
    (ledger.acquire uuid).Balanced := by
  rcases ObjectSceneCache.acquire_of_usable usable with ⟨made, nodes⟩
  rcases usable with ⟨found, node, live, _⟩
  have taken := held_acquire ledger uuid
  rw [found, Option.toList_some] at taken
  have sameNodes : (ledger.acquire uuid).objectDb = ledger.objectDb := nodes
  have handed : (ledger.acquire uuid).handedBack = id :: ledger.handedBack := by
    simp only [NodeLedger.acquire, made, old, live, Option.isSome_some, if_true,
      List.singleton_append]
  refine ⟨?_, ?_, ?_, ?_⟩
  · exact (List.nodup_cons.mp (taken.nodup_iff.mp balanced.once)).2
  · intro other listed
    have before := balanced.readable other (taken.mem_iff.mpr (List.mem_cons_of_mem _ listed))
    exact ⟨sameNodes ▸ before.1, before.2⟩
  · rw [sameNodes]
    exact balanced.queued
  · intro other valid
    have settled := balanced.settled other valid
    have counts := taken.count_eq other
    have released : (ledger.acquire uuid).released = ledger.released := rfl
    have evicted : (ledger.acquire uuid).evicted = ledger.evicted := rfl
    rw [handed, released, evicted]
    simp only [List.singleton_append, List.count_cons] at counts ⊢
    omega

/-- An acquired instance is new, and not queued for deletion. -/
theorem nodes_acquire {uuid : Uuid}
    (unusable : ∀ id, ¬ ledger.cache.HoldsUsable ledger.objectDb uuid id) :
    (ledger.acquire uuid).handedBack = ledger.handedBack ∧
      (∀ id, (ledger.objectDb.getInstance id).isSome →
        ((ledger.acquire uuid).objectDb.getInstance id).isSome) ∧
      ∀ id node, (ledger.acquire uuid).objectDb.getInstance id = some node →
        node.queuedForDeletion = true → ledger.objectDb.getInstance id = some node := by
  rcases ObjectSceneCache.acquire_of_not_usable unusable with
    ⟨_, nothing, same⟩ | ⟨scene, _, made, nodes⟩
  · simp only [NodeLedger.acquire, nothing, same, old, List.nil_append]
    exact ⟨trivial, fun _ present => present, fun _ _ found _ => found⟩
  · simp only [NodeLedger.acquire, made, nodes, PackedScene.instantiate]
    split
    · exact ⟨rfl, fun _ present => present, fun _ _ found _ => found⟩
    · have unborn : ledger.objectDb.getInstance ledger.objectDb.nextId = none := by
        rw [Option.eq_none_iff_forall_ne_some]
        intro node found
        exact Nat.lt_irrefl _ (ObjectDB.issued_of_getInstance found).2
      refine ⟨?_, ?_, ?_⟩
      · simp only [ObjectDB.instantiate, old, unborn, Option.isSome_none, Bool.false_eq_true,
          if_false, List.nil_append]
      · intro id present
        simp only [ObjectDB.instantiate, ObjectDB.getInstance_create]
        split
        · rfl
        · exact present
      · intro id node found isQueued
        simp only [ObjectDB.instantiate, ObjectDB.getInstance_create] at found
        split at found
        · rw [← Option.some.inj found] at isQueued
          simp at isQueued
        · exact found

theorem Balanced.acquire (balanced : ledger.Balanced) (uuid : Uuid) :
    (ledger.acquire uuid).Balanced := by
  by_cases usable : ∃ id, ledger.cache.HoldsUsable ledger.objectDb uuid id
  · rcases usable with ⟨id, usable⟩
    exact balanced.acquire_usable usable
  · have unusable := not_exists.mp usable
    rcases nodes_acquire unusable with ⟨handed, present, queued⟩
    have taken := held_acquire ledger uuid
    have dropped : ∀ id ∈ (ledger.cache.nodeCache.peek uuid).toList, id ∈ ledger.invalidated := by
      intro id listed
      exact balanced.invalidated_of_not_usable (Option.mem_toList.mp listed) (unusable id)
    refine ⟨?_, ?_, ?_, ?_⟩
    · exact (List.nodup_append.mp (taken.nodup_iff.mp balanced.once)).2.1
    · intro other listed
      have before := balanced.readable other (taken.mem_iff.mpr (List.mem_append_right _ listed))
      exact ⟨present other before.1, before.2⟩
    · exact fun other node found isQueued =>
        balanced.queued other node (queued other node found isQueued) isQueued
    · intro other valid
      have settled := balanced.settled other valid
      have counts := taken.count_eq other
      have noneDropped : (ledger.cache.nodeCache.peek uuid).toList.count other = 0 :=
        List.count_eq_zero.mpr fun listed => valid (dropped other listed)
      have released : (ledger.acquire uuid).released = ledger.released := rfl
      have evicted : (ledger.acquire uuid).evicted = ledger.evicted := rfl
      rw [handed, released, evicted]
      rw [List.count_append, noneDropped] at counts
      omega

end Acquire

section Clearing

theorem held_freeAllNode (ledger : NodeLedger) : ledger.freeAllNode.held = [] :=
  (FixedSizedCache.clearWithCallback_spec ledger.cache.nodeCache).1

theorem Balanced.freeAllNode (balanced : ledger.Balanced) : ledger.freeAllNode.Balanced := by
  have moved := (FixedSizedCache.clearWithCallback_spec ledger.cache.nodeCache).2
  refine ⟨?_, ?_, balanced.queued, ?_⟩
  · rw [held_freeAllNode]
    exact List.nodup_nil
  · intro id listed
    rw [held_freeAllNode] at listed
    exact absurd listed List.not_mem_nil
  · intro id valid
    have settled := balanced.settled id valid
    have counts := moved.count_eq id
    rw [held_freeAllNode]
    simp only [NodeLedger.freeAllNode, List.count_append, List.count_nil]
    simp only [held] at settled
    omega

end Clearing

section Runs

/-- Steps that leave the node cache, the nodes and the ledger alone. -/
theorem Balanced.withCache (balanced : ledger.Balanced) {cache : ObjectSceneCache}
    (same : cache.nodeCache = ledger.cache.nodeCache) : Balanced { ledger with cache } := by
  have held : NodeLedger.held { ledger with cache } = ledger.held := by
    simp only [NodeLedger.held, same]
  refine ⟨?_, ?_, balanced.queued, ?_⟩
  · rw [held]
    exact balanced.once
  · rw [held]
    exact balanced.readable
  · rw [held]
    exact balanced.settled

/-- What others do to a node invalidates it and nothing else. -/
theorem Balanced.withObjectDb (balanced : ledger.Balanced) {objectDb : ObjectDB} {id : ObjectID}
    (present : ∀ other ∈ ledger.held, (ledger.objectDb.getInstance other).isSome →
      (objectDb.getInstance other).isSome)
    (queued : ∀ other node, other ≠ id → objectDb.getInstance other = some node →
      node.queuedForDeletion = true →
      ∃ old, ledger.objectDb.getInstance other = some old ∧ old.queuedForDeletion = true) :
    Balanced { ledger with objectDb, invalidated := id :: ledger.invalidated } := by
  refine ⟨balanced.once, ?_, ?_, ?_⟩
  · intro other listed
    have before := balanced.readable other listed
    exact ⟨present other listed before.1, before.2⟩
  · intro other node found isQueued
    by_cases own : other = id
    · exact List.mem_cons.mpr (Or.inl own)
    · rcases queued other node own found isQueued with ⟨old, oldFound, oldQueued⟩
      exact List.mem_cons_of_mem _ (balanced.queued other old oldFound oldQueued)
  · exact fun other valid =>
      balanced.settled other fun invalid => valid (List.mem_cons_of_mem _ invalid)

theorem Balanced.create (balanced : ledger.Balanced) {made : StreamObjectNode}
    (unqueued : made.queuedForDeletion = false) :
    Balanced { ledger with objectDb := ledger.objectDb.create made } := by
  refine ⟨balanced.once, ?_, ?_, balanced.settled⟩
  · intro id listed
    rcases balanced.readable id listed with ⟨live, allocated⟩
    refine ⟨?_, allocated⟩
    rw [ObjectDB.getInstance_create]
    split
    · rfl
    · exact live
  · intro id node found isQueued
    rw [ObjectDB.getInstance_create] at found
    split at found
    · rw [← Option.some.inj found, unqueued] at isQueued
      simp at isQueued
    · exact balanced.queued id node found isQueued

theorem Balanced.step (balanced : ledger.Balanced) {op : CacheOp} {next : NodeLedger}
    (careful : Careful ledger op) (stepped : ledger.step op = some next) : next.Balanced := by
  cases op with
  | release uuid id =>
      simp only [NodeLedger.step] at stepped
      split at stepped
      case isTrue readable =>
        rw [← Option.some.inj stepped]
        exact balanced.release readable careful
      case isFalse => simp at stepped
  | acquire uuid =>
      rw [← Option.some.inj stepped]
      exact balanced.acquire uuid
  | storeScene uuid scene =>
      rw [← Option.some.inj stepped]
      exact balanced.withCache rfl
  | getScene uuid =>
      rw [← Option.some.inj stepped]
      exact balanced.withCache rfl
  | removeScene uuid =>
      rw [← Option.some.inj stepped]
      exact balanced.withCache rfl
  | requestScene uuid path accepts =>
      rw [← Option.some.inj stepped]
      exact balanced.withCache (ObjectSceneCache.nodeCache_requestScene _ _ _ _)
  | update status =>
      rw [← Option.some.inj stepped]
      exact balanced.withCache (ObjectSceneCache.nodeCache_update _ _)
  | freeAllNode =>
      rw [← Option.some.inj stepped]
      exact balanced.freeAllNode
  | create uuid parentUuid aabb =>
      rw [← Option.some.inj stepped]
      exact balanced.create rfl
  | free id =>
      simp only [NodeLedger.step] at stepped
      split at stepped
      case isFalse => simp at stepped
      case isTrue =>
        rw [← Option.some.inj stepped]
        apply balanced.withObjectDb
        · intro other listed present
          have distinct : other ≠ id := fun same => careful.2 (same ▸ listed)
          rw [ObjectDB.getInstance_free, if_neg distinct]
          exact present
        · intro other node distinct found isQueued
          rw [ObjectDB.getInstance_free, if_neg distinct] at found
          exact ⟨node, found, isQueued⟩
  | queueFree id =>
      simp only [NodeLedger.step] at stepped
      split at stepped
      case isFalse => simp at stepped
      case isTrue =>
        rw [← Option.some.inj stepped]
        apply balanced.withObjectDb
        · intro other _ present
          rw [ObjectDB.getInstance_modify]
          split
          case isTrue same => simpa [← same] using present
          case isFalse => exact present
        · intro other node distinct found isQueued
          rw [ObjectDB.getInstance_modify, if_neg distinct] at found
          exact ⟨node, found, isQueued⟩

theorem balanced_make (sceneCap nodeCap : ℕ) : (make sceneCap nodeCap).Balanced := by
  refine ⟨List.nodup_nil, ?_, ?_, fun _ _ => rfl⟩
  · exact fun id listed => absurd listed List.not_mem_nil
  · intro id node found
    simp [make, ObjectDB.empty, ObjectDB.getInstance] at found

/-- While no node is released under the uuid of a valid one that is held, and none is destroyed
while it is held, every released node is handed back, evicted or held. -/
theorem conserves_of_reaches {sceneCap nodeCap : ℕ}
    (reached : Reaches step Careful (make sceneCap nodeCap) ledger) : ledger.Conserves := by
  have balanced : ledger.Balanced :=
    reached.invariant (balanced_make sceneCap nodeCap)
      fun _ _ _ before careful stepped => before.step careful stepped
  exact ⟨balanced.settled, balanced.readable, held_freeAllNode ledger⟩

/-- A node that is released and acquired again. -/
def keptAndTaken : List CacheOp :=
  [.create 5 Uuid.nil ⟨⟨0, 0, 0⟩, ⟨1, 1, 1⟩⟩, .release 5 1, .acquire 5]

theorem conserves_keptAndTaken : (runAll step keptAndTaken (make 2 2)).Conserves := by
  let created : NodeLedger := runAll step (keptAndTaken.take 1) (make 2 2)
  have careful : Careful created (.release 5 1) := by
    refine ⟨by decide +kernel, ?_⟩
    rintro other ⟨held, _⟩
    have nothing : created.cache.nodeCache.peek 5 = none := rfl
    rw [nothing] at held
    simp at held
  have creates : Careful (make 2 2) (.create 5 Uuid.nil ⟨⟨0, 0, 0⟩, ⟨1, 1, 1⟩⟩) :=
    ⟨trivial, trivial⟩
  have reached : Reaches step Careful (make 2 2) created := Reaches.refl.tail creates rfl
  have released : Reaches step Careful (make 2 2) (created.release 5 1) :=
    reached.tail careful rfl
  have acquires : Careful (created.release 5 1) (.acquire 5) := ⟨trivial, trivial⟩
  have taken : Reaches step Careful (make 2 2) ((created.release 5 1).acquire 5) :=
    released.tail acquires rfl
  exact conserves_of_reaches taken

/-- Two nodes that are released under one uuid. -/
def sharedUuid : List CacheOp :=
  [.create 5 Uuid.nil ⟨⟨0, 0, 0⟩, ⟨1, 1, 1⟩⟩, .create 5 Uuid.nil ⟨⟨0, 0, 0⟩, ⟨1, 1, 1⟩⟩,
    .release 5 1, .release 5 2]

/-- The first node is held no longer, and neither handed back nor evicted. -/
theorem not_conserves_sharedUuid :
    Reaches step Proper (make 2 2) (runAll step sharedUuid (make 2 2)) ∧
      ¬ (runAll step sharedUuid (make 2 2)).Conserves := by
  refine ⟨reaches_runAll (by decide +kernel) (by decide +kernel), ?_⟩
  intro conserves
  have unknown : 1 ∉ (runAll step sharedUuid (make 2 2)).invalidated := by decide +kernel
  exact absurd (conserves.settled 1 unknown) (by decide +kernel)

end Runs

end NodeLedger

end GodotStream
