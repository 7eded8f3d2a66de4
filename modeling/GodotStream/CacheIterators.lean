import GodotStream.CacheRefinement

/-!
# The iterators of the policy

The index of `LRUCachePolicy` maps a key to an iterator, the address of a node of the
queue. Touching or erasing a key follows its iterator, which is undefined when there is
none or when its node has left the queue; here such a step has no result. As long as a
cache refines a list, every iterator that it follows points to the node of its key.
-/

namespace GodotStream

open Storage

universe u v

/-- `caches::LRUCachePolicy` with the addresses of the nodes of its queue. -/
structure IteratorPolicy (κ : Type u) where
  lruQueue : List (ℕ × κ)
  keyFinder : Table κ ℕ
  nextNode : ℕ

/-- `caches::fixed_sized_cache` with the policy above. -/
structure IteratorCache (κ : Type u) (ν : Type v) where
  cacheItemsMap : Table κ ν
  cachePolicy : IteratorPolicy κ
  maxCacheSize : ℕ

section Definitions

variable {κ : Type u} {ν : Type v} [DecidableEq κ]

namespace IteratorPolicy

def insert (policy : IteratorPolicy κ) (key : κ) : IteratorPolicy κ :=
  { lruQueue := (policy.nextNode, key) :: policy.lruQueue
    keyFinder := policy.keyFinder.insert key policy.nextNode
    nextNode := policy.nextNode + 1 }

/-- The node that the iterator of a key points to, with its key. -/
def node? (policy : IteratorPolicy κ) (key : κ) : Option (ℕ × κ) :=
  match policy.keyFinder.get? key with
  | none => none
  | some node => (policy.lruQueue.lookup node).map fun held => (node, held)

/-- The queue without a node. -/
def unlinked (policy : IteratorPolicy κ) (node : ℕ) : List (ℕ × κ) :=
  policy.lruQueue.filter fun entry => entry.1 ≠ node

def touch (policy : IteratorPolicy κ) (key : κ) : Option (IteratorPolicy κ) :=
  (policy.node? key).map fun entry =>
    { policy with lruQueue := entry :: policy.unlinked entry.1 }

def erase (policy : IteratorPolicy κ) (key : κ) : Option (IteratorPolicy κ) :=
  (policy.node? key).map fun entry =>
    { policy with
      lruQueue := policy.unlinked entry.1
      keyFinder := policy.keyFinder.erase key }

omit [DecidableEq κ] in
/-- The key in the back, of which an empty queue has none. -/
def replCandidate (policy : IteratorPolicy κ) : Option κ :=
  policy.lruQueue.getLast?.map Prod.snd

end IteratorPolicy

namespace IteratorCache

def make (maxSize : ℕ) : IteratorCache κ ν :=
  { cacheItemsMap := ∅
    cachePolicy := ⟨[], ∅, 0⟩
    maxCacheSize := if maxSize = 0 then 1 else maxSize }

def eraseElem (cache : IteratorCache κ ν) (key : κ) : Option (IteratorCache κ ν) :=
  match cache.cacheItemsMap.get? key with
  | none => some cache
  | some _ =>
      (cache.cachePolicy.erase key).map fun cachePolicy =>
        { cache with cachePolicy, cacheItemsMap := cache.cacheItemsMap.erase key }

def makeRoom (cache : IteratorCache κ ν) : Option (IteratorCache κ ν) :=
  if cache.cacheItemsMap.entries.length + 1 > cache.maxCacheSize then
    match cache.cachePolicy.replCandidate with
    | none => none
    | some candidate => cache.eraseElem candidate
  else some cache

def put (cache : IteratorCache κ ν) (key : κ) (value : ν) : Option (IteratorCache κ ν) :=
  if key ∈ cache.cacheItemsMap then
    (cache.cachePolicy.touch key).map fun cachePolicy =>
      { cache with cachePolicy, cacheItemsMap := cache.cacheItemsMap.insert key value }
  else
    cache.makeRoom.map fun room =>
      { room with
        cachePolicy := room.cachePolicy.insert key
        cacheItemsMap := room.cacheItemsMap.insert key value }

def tryGet (cache : IteratorCache κ ν) (key : κ) : Option (IteratorCache κ ν) :=
  match cache.cacheItemsMap.get? key with
  | none => some cache
  | some _ =>
      (cache.cachePolicy.touch key).map fun cachePolicy => { cache with cachePolicy }

def clearRounds : ℕ → IteratorCache κ ν → Option (IteratorCache κ ν)
  | 0, cache => some cache
  | rounds + 1, cache =>
      match cache.cacheItemsMap.entries with
      | [] => some cache
      | entry :: _ => (cache.eraseElem entry.1).bind (clearRounds rounds)

def clearWithCallback (cache : IteratorCache κ ν) : Option (IteratorCache κ ν) :=
  clearRounds cache.cacheItemsMap.entries.length cache

/-- The cache after a call; `Pop` and `Remove` differ only in the erase callback. -/
def call (cache : IteratorCache κ ν) : CacheCall κ ν → Option (IteratorCache κ ν)
  | .put key value => cache.put key value
  | .tryGet key => cache.tryGet key
  | .pop key => cache.eraseElem key
  | .remove key => cache.eraseElem key
  | .clear => cache.clearWithCallback

end IteratorCache

end Definitions

namespace IteratorPolicy

variable {κ : Type u} [DecidableEq κ] {iterators : IteratorPolicy κ} {policy : LRUCachePolicy κ}

/-- The nodes hold the keys of the queue, and every iterator points to the node of its key. -/
structure PointsInto (iterators : IteratorPolicy κ) (policy : LRUCachePolicy κ) : Prop where
  queue : iterators.lruQueue.map Prod.snd = policy.lruQueue
  once : policy.lruQueue.Nodup
  nodes : (iterators.lruQueue.map Prod.fst).Nodup
  made : ∀ entry ∈ iterators.lruQueue, entry.1 < iterators.nextNode
  points : ∀ key node, iterators.keyFinder.get? key = some node → (node, key) ∈ iterators.lruQueue
  indexed : ∀ key, key ∈ iterators.keyFinder ↔ key ∈ policy.keyFinder

namespace PointsInto

theorem exists_node (into : iterators.PointsInto policy) {key : κ}
    (indexed : key ∈ policy.keyFinder) :
    ∃ node, (node, key) ∈ iterators.lruQueue ∧ iterators.node? key = some (node, key) := by
  rcases Table.mem_iff_get?.mp ((into.indexed key).mpr indexed) with ⟨node, found⟩
  have listed := into.points key node found
  refine ⟨node, listed, ?_⟩
  have held : iterators.lruQueue.lookup node = some key :=
    Table.lookup_eq_some_of_mem into.nodes listed
  simp only [node?, found, held, Option.map_some]

/-- A node and its key identify each other. -/
theorem node_eq_iff (into : iterators.PointsInto policy) {node : ℕ} {key : κ} {entry : ℕ × κ}
    (listed : (node, key) ∈ iterators.lruQueue) (other : entry ∈ iterators.lruQueue) :
    entry.1 = node ↔ entry.2 = key := by
  have keys : (iterators.lruQueue.map Prod.snd).Nodup := by
    rw [into.queue]
    exact into.once
  constructor
  · intro same
    rw [List.inj_on_of_nodup_map into.nodes other listed same]
  · intro same
    rw [List.inj_on_of_nodup_map keys other listed same]

theorem unlinked (into : iterators.PointsInto policy) {node : ℕ} {key : κ}
    (listed : (node, key) ∈ iterators.lruQueue) :
    (iterators.unlinked node).map Prod.snd = policy.lruQueue.erase key := by
  rw [into.once.erase_eq_filter, ← into.queue, List.filter_map]
  congr 1
  apply List.filter_congr
  intro entry other
  simp only [Function.comp_apply, bne, beq_eq_decide, ne_eq, decide_not,
    into.node_eq_iff listed other]

theorem insert (into : iterators.PointsInto policy) {key : κ} (new : key ∉ policy.lruQueue) :
    (iterators.insert key).PointsInto (policy.insert key) := by
  refine ⟨?_, List.nodup_cons.mpr ⟨new, into.once⟩, ?_, ?_, ?_, ?_⟩
  · simp only [IteratorPolicy.insert, LRUCachePolicy.insert, List.map_cons, into.queue]
  · apply List.nodup_cons.mpr
    refine ⟨?_, into.nodes⟩
    intro again
    rcases List.mem_map.mp again with ⟨entry, listed, same⟩
    have older := into.made entry listed
    omega
  · intro entry listed
    rcases List.mem_cons.mp listed with rfl | old
    · exact Nat.lt_succ_self _
    · exact Nat.lt_succ_of_lt (into.made entry old)
  · intro other node found
    simp only [IteratorPolicy.insert, Table.get?_insert] at found
    split at found
    case isTrue same =>
      rw [same, ← Option.some.inj found]
      exact List.mem_cons_self
    case isFalse => exact List.mem_cons_of_mem _ (into.points other node found)
  · intro other
    simp only [IteratorPolicy.insert, LRUCachePolicy.insert, Table.mem_insert, into.indexed]

theorem touch (into : iterators.PointsInto policy) {key : κ} (indexed : key ∈ policy.keyFinder) :
    ∃ after, iterators.touch key = some after ∧ after.PointsInto (policy.touch key) := by
  rcases into.exists_node indexed with ⟨node, listed, found⟩
  have queued : key ∈ policy.lruQueue := by
    rw [← into.queue]
    exact List.mem_map_of_mem listed
  refine ⟨_, by rw [IteratorPolicy.touch, found, Option.map_some], ?_⟩
  simp only [LRUCachePolicy.touch, indexed, if_true]
  refine ⟨?_, ?_, ?_, ?_, ?_, into.indexed⟩
  · rw [List.map_cons, into.unlinked listed]
  · exact List.nodup_cons.mpr ⟨into.once.not_mem_erase, into.once.erase key⟩
  · apply List.nodup_cons.mpr
    refine ⟨?_, into.nodes.sublist (List.filter_sublist.map Prod.fst)⟩
    intro again
    rcases List.mem_map.mp again with ⟨entry, kept, same⟩
    exact absurd same (by simpa using (List.mem_filter.mp kept).2)
  · intro entry moved
    rcases List.mem_cons.mp moved with rfl | kept
    · exact into.made _ listed
    · exact into.made entry (List.mem_filter.mp kept).1
  · intro other otherNode otherFound
    have otherListed := into.points other otherNode otherFound
    by_cases same : otherNode = node
    · have sameKey := (into.node_eq_iff listed otherListed).mp same
      simp only at sameKey
      rw [same, sameKey]
      exact List.mem_cons_self
    · apply List.mem_cons_of_mem
      exact List.mem_filter.mpr ⟨otherListed, decide_eq_true same⟩

theorem erase (into : iterators.PointsInto policy) {key : κ} (indexed : key ∈ policy.keyFinder) :
    ∃ after, iterators.erase key = some after ∧ after.PointsInto (policy.erase key) := by
  rcases into.exists_node indexed with ⟨node, listed, found⟩
  refine ⟨_, by rw [IteratorPolicy.erase, found, Option.map_some], ?_⟩
  refine ⟨into.unlinked listed, into.once.erase key, ?_, ?_, ?_, ?_⟩
  · exact into.nodes.sublist (List.filter_sublist.map Prod.fst)
  · exact fun entry kept => into.made entry (List.mem_filter.mp kept).1
  · intro other otherNode otherFound
    simp only [Table.get?_erase] at otherFound
    split at otherFound
    · simp at otherFound
    case isFalse different =>
      have otherListed := into.points other otherNode otherFound
      apply List.mem_filter.mpr
      refine ⟨otherListed, decide_eq_true ?_⟩
      exact fun same => different ((into.node_eq_iff listed otherListed).mp same)
  · intro other
    simp only [LRUCachePolicy.erase, Table.mem_erase, into.indexed]

theorem replCandidate_eq (into : iterators.PointsInto policy) :
    iterators.replCandidate = policy.replCandidate := by
  rw [LRUCachePolicy.replCandidate, ← into.queue, List.getLast?_map, replCandidate]

end PointsInto

end IteratorPolicy

namespace IteratorCache

variable {κ : Type u} {ν : Type v} [DecidableEq κ] {iterators : IteratorCache κ ν}
  {cache : FixedSizedCache κ ν} {list : RecencyList κ ν}

/-- The same items, under a policy whose iterators point into the queue of the cache. -/
structure Represents (iterators : IteratorCache κ ν) (cache : FixedSizedCache κ ν) : Prop where
  items : iterators.cacheItemsMap = cache.cacheItemsMap
  size : iterators.maxCacheSize = cache.maxCacheSize
  into : iterators.cachePolicy.PointsInto cache.cachePolicy

/-- A step of the caches that follows no missing iterator. -/
def Follows (after : Option (IteratorCache κ ν)) (cache : FixedSizedCache κ ν) : Prop :=
  ∃ iterators, after = some iterators ∧ iterators.Represents cache

theorem represents_make (maxSize : ℕ) :
    (make maxSize : IteratorCache κ ν).Represents (.make maxSize) := by
  refine ⟨rfl, rfl, rfl, List.nodup_nil, List.nodup_nil, ?_, ?_, fun _ => Iff.rfl⟩
  · exact fun entry listed => absurd listed List.not_mem_nil
  · intro key node found
    simp [make] at found

namespace Represents

theorem eraseElem (represents : iterators.Represents cache) (refines : cache.Refines list)
    (key : κ) : Follows (iterators.eraseElem key) (cache.eraseElem key).1 := by
  simp only [IteratorCache.eraseElem, FixedSizedCache.eraseElem, represents.items]
  cases found : cache.cacheItemsMap.get? key with
  | none => exact ⟨iterators, rfl, represents⟩
  | some value =>
      have indexed : key ∈ cache.cachePolicy.keyFinder :=
        (refines.inStep.indexed key).mpr (Table.mem_of_get? found)
      rcases represents.into.erase indexed with ⟨policy, erased, into⟩
      simp only [erased, Option.map_some]
      exact ⟨_, rfl, rfl, represents.size, into⟩

theorem pop (represents : iterators.Represents cache) (refines : cache.Refines list)
    (key : κ) : Follows (iterators.eraseElem key) (cache.pop key).2 := by
  have erased := represents.eraseElem refines key
  simp only [FixedSizedCache.eraseElem] at erased
  simp only [FixedSizedCache.pop]
  cases found : cache.cacheItemsMap.get? key <;> simpa only [found] using erased

theorem tryGet (represents : iterators.Represents cache) (refines : cache.Refines list)
    (key : κ) : Follows (iterators.tryGet key) (cache.tryGet key).2 := by
  simp only [IteratorCache.tryGet, FixedSizedCache.tryGet, represents.items]
  cases found : cache.cacheItemsMap.get? key with
  | none => exact ⟨iterators, rfl, represents⟩
  | some value =>
      have indexed : key ∈ cache.cachePolicy.keyFinder :=
        (refines.inStep.indexed key).mpr (Table.mem_of_get? found)
      rcases represents.into.touch indexed with ⟨policy, touched, into⟩
      simp only [touched, Option.map_some]
      exact ⟨_, rfl, rfl, represents.size, into⟩

/-- A full cache has a candidate, whose iterator is in the index. -/
theorem makeRoom (represents : iterators.Represents cache) (refines : cache.Refines list) :
    Follows iterators.makeRoom cache.makeRoom.1 := by
  simp only [IteratorCache.makeRoom, FixedSizedCache.makeRoom, represents.items, represents.size,
    represents.into.replCandidate_eq]
  split
  case isFalse => exact ⟨iterators, rfl, represents⟩
  case isTrue full =>
    have listFull : ¬ list.recent.entries.length < list.capacity := by
      rw [refines.length_eq, refines.size] at full
      omega
    rcases RecencyList.exists_back listFull with ⟨entry, back⟩
    rw [refines.replCandidate_eq, back, Option.map_some]
    exact represents.eraseElem refines entry.1

theorem put (represents : iterators.Represents cache) (refines : cache.Refines list)
    (key : κ) (value : ν) : Follows (iterators.put key value) (cache.put key value).1 := by
  simp only [IteratorCache.put, FixedSizedCache.put, represents.items]
  split
  case isTrue present =>
    have indexed : key ∈ cache.cachePolicy.keyFinder := (refines.inStep.indexed key).mpr present
    rcases represents.into.touch indexed with ⟨policy, touched, into⟩
    simp only [touched, Option.map_some]
    exact ⟨_, rfl, rfl, represents.size, into⟩
  case isFalse absent =>
    rcases represents.makeRoom refines with ⟨room, made, roomRepresents⟩
    have unqueued : key ∉ cache.makeRoom.1.cachePolicy.lruQueue :=
      refines.not_mem_queue_makeRoom absent
    simp only [made, Option.map_some, roomRepresents.items]
    exact ⟨_, rfl, rfl, roomRepresents.size, roomRepresents.into.insert unqueued⟩

theorem clearRounds {rounds : ℕ} (represents : iterators.Represents cache)
    (refines : cache.Refines list) :
    Follows (clearRounds rounds iterators) (FixedSizedCache.clearRounds rounds cache).1 := by
  induction rounds generalizing iterators cache list with
  | zero => exact ⟨iterators, rfl, represents⟩
  | succ rounds ih =>
      simp only [IteratorCache.clearRounds, FixedSizedCache.clearRounds, represents.items]
      cases cache.cacheItemsMap.entries with
      | nil => exact ⟨iterators, rfl, represents⟩
      | cons entry rest =>
          rcases represents.eraseElem refines entry.1 with ⟨middle, erased, middleRepresents⟩
          simp only [erased, Option.bind_some]
          exact ih middleRepresents (refines.eraseElem entry.1).1

/-- No call to a cache that refines a list follows a missing iterator. -/
theorem call (represents : iterators.Represents cache) (refines : cache.Refines list)
    (request : CacheCall κ ν) : Follows (iterators.call request) (cache.call request).after := by
  cases request with
  | put key value => exact represents.put refines key value
  | tryGet key => exact represents.tryGet refines key
  | pop key => exact represents.pop refines key
  | remove key => exact represents.eraseElem refines key
  | clear =>
      simp only [IteratorCache.call, IteratorCache.clearWithCallback, represents.items]
      exact represents.clearRounds refines

end Represents

end IteratorCache

end GodotStream
