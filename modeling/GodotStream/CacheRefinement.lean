import GodotStream.Lib.RecencyList
import GodotStream.ObjectSceneCache

/-!
# The caches as lists in the order of last use

`fixed_sized_cache` keeps the item map, the queue of the policy and the index of its
iterators in step by hand. As long as it does, the cache is a bounded map whose queue is
the order of last use: each call to it is the same call to a `RecencyList`.
-/

namespace GodotStream

open Storage

universe u v

namespace FixedSizedCache

variable {κ : Type u} {ν : Type v}

/-- The queue and the index of the policy hold exactly the keys of the item map, the queue each
of them once. -/
structure InStep [DecidableEq κ] (cache : FixedSizedCache κ ν) : Prop where
  once : cache.cachePolicy.lruQueue.Nodup
  queued : ∀ key, key ∈ cache.cachePolicy.lruQueue ↔ key ∈ cache.cacheItemsMap
  indexed : ∀ key, key ∈ cache.cachePolicy.keyFinder ↔ key ∈ cache.cacheItemsMap

/-- The cache holds the entries of the list and queues them in the same order. -/
structure Refines (cache : FixedSizedCache κ ν) (list : RecencyList κ ν) : Prop where
  queue : cache.cachePolicy.lruQueue = list.keys
  indexed : ∀ key, key ∈ cache.cachePolicy.keyFinder ↔ key ∈ list.recent
  items : ∀ entry, entry ∈ cache.cacheItemsMap.entries ↔ entry ∈ list.recent.entries
  size : cache.maxCacheSize = list.capacity

theorem refines_make (maxSize : ℕ) :
    (make maxSize : FixedSizedCache κ ν).Refines (.empty maxSize) := by
  refine ⟨rfl, fun key => Iff.rfl, fun entry => Iff.rfl, ?_⟩
  simp only [make, RecencyList.empty]
  split <;> omega

variable [DecidableEq κ] {cache : FixedSizedCache κ ν} {list : RecencyList κ ν}

/-- A call to the cache; what is dropped goes to the erase callback. -/
def call (cache : FixedSizedCache κ ν) :
    CacheCall κ ν → CacheAnswer (FixedSizedCache κ ν) κ ν
  | .put key value =>
      let put := cache.put key value
      { after := put.1, dropped := put.2.toList }
  | .tryGet key =>
      let got := cache.tryGet key
      { after := got.2, found := got.1 }
  | .pop key =>
      let popped := cache.pop key
      { after := popped.2, found := popped.1 }
  | .remove key =>
      let removed := cache.remove key
      { after := removed.1, dropped := removed.2.toList }
  | .clear =>
      let cleared := cache.clearWithCallback
      { after := cleared.1, dropped := cleared.2 }

namespace Refines

omit [DecidableEq κ] in
theorem mem_iff (refines : cache.Refines list) {key : κ} :
    key ∈ cache.cacheItemsMap ↔ key ∈ list.recent := by
  simp only [Table.mem_def, Table.keys, List.mem_map, refines.items]

theorem peek_eq (refines : cache.Refines list) (key : κ) : cache.peek key = list.find? key := by
  ext value
  rw [peek, RecencyList.find?, Table.get?_eq_some, Table.get?_eq_some, refines.items]

omit [DecidableEq κ] in
theorem length_eq (refines : cache.Refines list) :
    cache.cacheItemsMap.entries.length = list.recent.entries.length := by
  apply List.Perm.length_eq
  exact (List.perm_ext_iff_of_nodup cache.cacheItemsMap.entries_nodup
    list.recent.entries_nodup).mpr refines.items

theorem inStep (refines : cache.Refines list) : cache.InStep := by
  refine ⟨?_, ?_, ?_⟩
  · rw [refines.queue]
    exact list.keys_nodup
  · intro key
    rw [refines.queue, refines.mem_iff]
    rfl
  · intro key
    rw [refines.indexed, refines.mem_iff]

/-- Erasing an element takes its key out of the list. -/
theorem erased (refines : cache.Refines list) (key : κ) :
    Refines { cache with
      cachePolicy := cache.cachePolicy.erase key
      cacheItemsMap := cache.cacheItemsMap.erase key } (list.without key) := by
  refine ⟨?_, ?_, ?_, refines.size⟩
  · rw [RecencyList.keys_without, ← refines.queue]
    rfl
  · intro other
    simp only [LRUCachePolicy.erase, RecencyList.without, Table.mem_erase, Table.mem_filterKeys,
      refines.indexed, ne_eq, decide_not, Bool.not_eq_eq_eq_not, Bool.not_true,
      decide_eq_false_iff_not]
  · intro entry
    rw [RecencyList.mem_without, Table.mem_entries_erase, refines.items]

/-- Taking out a key that the list does not hold changes nothing. -/
theorem without_of_not_mem (refines : cache.Refines list) {key : κ}
    (absent : key ∉ cache.cacheItemsMap) : cache.Refines (list.without key) := by
  rwa [RecencyList.without_of_not_mem (refines.mem_iff.not.mp absent)]

theorem eraseElem (refines : cache.Refines list) (key : κ) :
    (cache.eraseElem key).1.Refines (list.without key) ∧
      (cache.eraseElem key).2 = (list.find? key).map fun value => (key, value) := by
  have found := refines.peek_eq key
  rw [← found, peek, FixedSizedCache.eraseElem]
  cases stored : cache.cacheItemsMap.get? key with
  | none => exact ⟨refines.without_of_not_mem (Table.get?_eq_none.mp stored), rfl⟩
  | some value => exact ⟨refines.erased key, rfl⟩

theorem pop (refines : cache.Refines list) (key : κ) :
    (cache.pop key).2.Refines (list.without key) ∧ (cache.pop key).1 = list.find? key := by
  have found := refines.peek_eq key
  rw [← found, peek, FixedSizedCache.pop]
  cases stored : cache.cacheItemsMap.get? key with
  | none => exact ⟨refines.without_of_not_mem (Table.get?_eq_none.mp stored), rfl⟩
  | some value => exact ⟨refines.erased key, rfl⟩

/-- Storing under a key that displaces nothing puts the key in front of the queue. -/
theorem stored (refines : cache.Refines list) {key : κ}
    (spared : key ∈ list.recent ∨ list.recent.entries.length < list.capacity)
    {policy : LRUCachePolicy κ}
    (queue : policy.lruQueue = key :: cache.cachePolicy.lruQueue.erase key)
    (indexed : ∀ other, other ∈ policy.keyFinder ↔
      other = key ∨ other ∈ cache.cachePolicy.keyFinder) (value : ν) :
    Refines { cache with
      cachePolicy := policy
      cacheItemsMap := cache.cacheItemsMap.insert key value } (list.put key value) := by
  refine ⟨?_, ?_, ?_, ?_⟩
  · rw [RecencyList.keys_put spared, ← refines.queue]
    exact queue
  · intro other
    rw [RecencyList.mem_put spared, ← refines.indexed]
    exact indexed other
  · intro entry
    rw [RecencyList.mem_entries_put spared, Table.mem_entries_insert, refines.items]
  · rw [RecencyList.capacity_put]
    exact refines.size

/-- A present key is moved to the front of the queue. -/
theorem touched (refines : cache.Refines list) {key : κ} (present : key ∈ list.recent)
    (value : ν) :
    Refines { cache with
      cachePolicy := cache.cachePolicy.touch key
      cacheItemsMap := cache.cacheItemsMap.insert key value } (list.put key value) := by
  have indexed : key ∈ cache.cachePolicy.keyFinder := (refines.indexed key).mpr present
  rw [LRUCachePolicy.touch, if_pos indexed]
  apply refines.stored (Or.inl present) rfl
  intro other
  constructor
  · exact Or.inr
  · rintro (rfl | before)
    · exact indexed
    · exact before

/-- A new key is queued in front. -/
theorem inserted (refines : cache.Refines list) {key : κ} (absent : key ∉ list.recent)
    (room : list.recent.entries.length < list.capacity) (value : ν) :
    Refines { cache with
      cachePolicy := cache.cachePolicy.insert key
      cacheItemsMap := cache.cacheItemsMap.insert key value } (list.put key value) := by
  have unqueued : key ∉ cache.cachePolicy.lruQueue := by
    rw [refines.queue]
    exact absent
  apply refines.stored (Or.inr room)
  · rw [List.erase_of_not_mem unqueued]
    rfl
  · exact fun other => Table.mem_insert

omit [DecidableEq κ] in
theorem replCandidate_eq (refines : cache.Refines list) :
    cache.cachePolicy.replCandidate = list.back?.map Prod.fst := by
  rw [LRUCachePolicy.replCandidate, refines.queue, RecencyList.keys, Table.keys,
    List.getLast?_map]
  rfl

/-- A full cache evicts the back of the list. -/
theorem makeRoom_of_full (refines : cache.Refines list)
    (full : ¬ list.recent.entries.length < list.capacity) :
    cache.makeRoom.1.Refines list.dropBack ∧ cache.makeRoom.2 = list.back? := by
  rcases RecencyList.exists_back full with ⟨entry, back⟩
  have isFull : cache.cacheItemsMap.entries.length + 1 > cache.maxCacheSize := by
    rw [refines.length_eq, refines.size]
    omega
  have held : list.find? entry.1 = some entry.2 :=
    Table.get?_eq_some.mpr (List.mem_of_getLast? back)
  rcases refines.eraseElem entry.1 with ⟨erased, dropped⟩
  simp only [makeRoom, isFull, if_true, refines.replCandidate_eq, back, Option.map_some]
  refine ⟨?_, ?_⟩
  · rw [RecencyList.dropBack_eq_without back]
    exact erased
  · rw [dropped, held]
    rfl

theorem makeRoom_of_room (refines : cache.Refines list)
    (room : list.recent.entries.length < list.capacity) : cache.makeRoom = (cache, none) := by
  have notFull : ¬ cache.cacheItemsMap.entries.length + 1 > cache.maxCacheSize := by
    rw [refines.length_eq, refines.size]
    omega
  rw [makeRoom, if_neg notFull]

/-- A new key is not queued when room is made for it. -/
theorem not_mem_queue_makeRoom (refines : cache.Refines list) {key : κ}
    (absent : key ∉ cache.cacheItemsMap) : key ∉ cache.makeRoom.1.cachePolicy.lruQueue := by
  have unlisted : key ∉ list.recent := refines.mem_iff.not.mp absent
  by_cases room : list.recent.entries.length < list.capacity
  · rw [refines.makeRoom_of_room room, refines.queue]
    exact unlisted
  · rw [(refines.makeRoom_of_full room).1.queue]
    exact RecencyList.not_mem_dropBack unlisted

theorem put (refines : cache.Refines list) (key : κ) (value : ν) :
    (cache.put key value).1.Refines (list.put key value) ∧
      (cache.put key value).2 = list.displaced key := by
  by_cases present : key ∈ list.recent
  · have stored : key ∈ cache.cacheItemsMap := refines.mem_iff.mpr present
    simp only [FixedSizedCache.put, stored, if_true, RecencyList.displaced, present, true_or]
    exact ⟨refines.touched present value, trivial⟩
  · have missing : key ∉ cache.cacheItemsMap := refines.mem_iff.not.mpr present
    simp only [FixedSizedCache.put, missing, if_false, RecencyList.displaced, present, false_or]
    split
    case isTrue room =>
      rw [refines.makeRoom_of_room room]
      exact ⟨refines.inserted present room value, rfl⟩
    case isFalse full =>
      rcases refines.makeRoom_of_full full with ⟨evicted, dropped⟩
      rw [RecencyList.put_of_full present full]
      exact ⟨evicted.inserted (RecencyList.not_mem_dropBack present) list.length_dropBack_lt value,
        dropped⟩

theorem tryGet (refines : cache.Refines list) (key : κ) :
    (cache.tryGet key).2.Refines (list.use key) ∧ (cache.tryGet key).1 = list.find? key := by
  have found := refines.peek_eq key
  rw [RecencyList.use, ← found, peek, FixedSizedCache.tryGet]
  cases stored : cache.cacheItemsMap.get? key with
  | none => exact ⟨refines, rfl⟩
  | some value =>
      have present : key ∈ list.recent := refines.mem_iff.mp (Table.mem_of_get? stored)
      have touched := refines.touched present value
      rw [Table.insert_eq_self stored] at touched
      exact ⟨touched, rfl⟩

/-- After enough rounds the list is empty, and its entries were dropped. -/
theorem clearRounds {rounds : ℕ} (refines : cache.Refines list)
    (enough : list.recent.entries.length ≤ rounds) :
    (clearRounds rounds cache).1.Refines list.cleared ∧
      (clearRounds rounds cache).2.Perm list.recent.entries := by
  have ended {cache : FixedSizedCache κ ν} {list : RecencyList κ ν} (refines : cache.Refines list)
      (empty : list.recent.entries = []) : cache.Refines list.cleared := by
    have same : list.cleared = list := by
      rw [RecencyList.cleared_of_empty empty]
    rwa [same]
  induction rounds generalizing cache list with
  | zero =>
      have empty : list.recent.entries = [] := List.length_eq_zero_iff.mp (Nat.le_zero.mp enough)
      simp only [FixedSizedCache.clearRounds, empty]
      exact ⟨ended refines empty, List.Perm.refl _⟩
  | succ rounds ih =>
      simp only [FixedSizedCache.clearRounds]
      split
      case h_1 stored =>
        have empty : list.recent.entries = [] := by
          apply List.length_eq_zero_iff.mp
          rw [← refines.length_eq, stored, List.length_nil]
        rw [empty]
        exact ⟨ended refines empty, List.Perm.refl _⟩
      case h_2 entry rest stored =>
        have found : list.find? entry.1 = some entry.2 := by
          apply Table.get?_eq_some.mpr
          apply (refines.items _).mp
          rw [stored]
          exact List.mem_cons_self
        have split := RecencyList.entries_perm_of_find found
        rcases refines.eraseElem entry.1 with ⟨erased, dropped⟩
        have fewer : (list.without entry.1).recent.entries.length ≤ rounds := by
          have lengths := split.length_eq
          rw [List.length_cons] at lengths
          omega
        rcases ih erased fewer with ⟨emptied, others⟩
        refine ⟨emptied, ?_⟩
        rw [dropped, found]
        exact (others.cons entry).trans split.symm

/-- A call to the cache is the same call to the list, with the same answer. -/
theorem call (refines : cache.Refines list) (request : CacheCall κ ν) :
    (cache.call request).after.Refines (list.call request).after ∧
      (cache.call request).found = (list.call request).found ∧
      (cache.call request).dropped.Perm (list.call request).dropped := by
  cases request with
  | put key value =>
      rcases refines.put key value with ⟨stored, dropped⟩
      simp only [FixedSizedCache.call, RecencyList.call, dropped]
      exact ⟨stored, trivial, List.Perm.refl _⟩
  | tryGet key =>
      rcases refines.tryGet key with ⟨used, found⟩
      exact ⟨used, found, List.Perm.refl _⟩
  | pop key =>
      rcases refines.pop key with ⟨taken, found⟩
      exact ⟨taken, found, List.Perm.refl _⟩
  | remove key =>
      rcases refines.eraseElem key with ⟨erased, dropped⟩
      simp only [FixedSizedCache.call, FixedSizedCache.remove, RecencyList.call, dropped]
      refine ⟨erased, trivial, ?_⟩
      cases list.find? key <;> exact List.Perm.refl _
  | clear =>
      have cleared := refines.clearRounds refines.length_eq.ge
      exact ⟨cleared.1, rfl, cleared.2⟩

end Refines

end FixedSizedCache

end GodotStream
