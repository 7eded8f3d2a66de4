import GodotStream.CacheIterators
import GodotStream.DenseRefinement

/-!
# The caches on the dense hash table

`fixed_sized_cache` as it is instantiated by `lru_cache_t`: the items lie in a dense hash
table and are reached through its iterators, which are indices into the dense array, and
the policy follows the addresses of its queue. Eviction and removal move the last item
into the hole, and `ClearWithCallback` erases the first item until none is left.

Any run of calls on such a cache, whatever the hash, answers like a bounded map in the
order of last use. The dense hash table, the iterators of the policy and the bookkeeping
of the cache are thereby put together.
-/

namespace GodotStream

open Storage

universe u v

/-- `caches::fixed_sized_cache` over the dense hash table. -/
structure DenseCache (κ : Type u) (ν : Type v) where
  cacheItemsMap : DenseTable κ ν
  cachePolicy : IteratorPolicy κ
  maxCacheSize : ℕ

/-- What a call returns, and what it hands to the erase callback. -/
abbrev DenseCache.Answer (κ : Type u) (ν : Type v) :=
  CacheAnswer (DenseCache κ ν) κ ν

namespace DenseCache

variable {κ : Type u} {ν : Type v}

def make (maxSize : ℕ) : DenseCache κ ν :=
  { cacheItemsMap := .create
    cachePolicy := ⟨[], ∅, 0⟩
    maxCacheSize := if maxSize = 0 then 1 else maxSize }

section Definitions

variable [DecidableEq κ] (mixedHash : κ → BitVec 64)

/-- `FindElem`; `none` within is `end()`. -/
def findElem (cache : DenseCache κ ν) (key : κ) : Option (Option ℕ) :=
  cache.cacheItemsMap.doFind mixedHash key

/-- `Erase` of an iterator, with the entry it points to. -/
def eraseElem (cache : DenseCache κ ν) (elem : ℕ) : Option (DenseCache κ ν × (κ × ν)) :=
  cache.cacheItemsMap.values[elem]?.bind fun entry =>
    (cache.cachePolicy.erase entry.1).bind fun cachePolicy =>
      (cache.cacheItemsMap.eraseIterator mixedHash elem).map fun cacheItemsMap =>
        ({ cache with cachePolicy, cacheItemsMap }, entry)

/-- `Erase` of a key, and `Remove`. -/
def eraseKey (cache : DenseCache κ ν) (key : κ) : Option (Answer κ ν) :=
  (cache.findElem mixedHash key).bind fun
    | none => some { after := cache }
    | some elem => (cache.eraseElem mixedHash elem).map fun erased =>
        { after := erased.1, dropped := [erased.2] }

/-- The first step of `Put` for a new key. -/
def makeRoom (cache : DenseCache κ ν) : Option (Answer κ ν) :=
  if cache.cacheItemsMap.values.length + 1 > cache.maxCacheSize then
    cache.cachePolicy.replCandidate.bind (cache.eraseKey mixedHash)
  else some { after := cache }

def put [Inhabited ν] (cache : DenseCache κ ν) (key : κ) (value : ν) : Option (Answer κ ν) :=
  (cache.findElem mixedHash key).bind fun
    | none =>
        (cache.makeRoom mixedHash).bind fun room =>
          (room.after.cacheItemsMap.emplace mixedHash key value).map fun placed =>
            { after := { room.after with
                cachePolicy := room.after.cachePolicy.insert key
                cacheItemsMap := placed.1 }
              dropped := room.dropped }
    | some _ =>
        (cache.cachePolicy.touch key).bind fun cachePolicy =>
          (cache.cacheItemsMap.subscript mixedHash key fun _ => value).map fun cacheItemsMap =>
            { after := { cache with cachePolicy, cacheItemsMap } }

def tryGet (cache : DenseCache κ ν) (key : κ) : Option (Answer κ ν) :=
  (cache.findElem mixedHash key).bind fun
    | none => some { after := cache }
    | some elem =>
        cache.cacheItemsMap.values[elem]?.bind fun entry =>
          (cache.cachePolicy.touch key).map fun cachePolicy =>
            { after := { cache with cachePolicy }, found := some entry.2 }

/-- `Pop`: as `Remove`, but the value is returned and no callback runs. -/
def pop (cache : DenseCache κ ν) (key : κ) : Option (Answer κ ν) :=
  (cache.findElem mixedHash key).bind fun
    | none => some { after := cache }
    | some elem => (cache.eraseElem mixedHash elem).map fun erased =>
        { after := erased.1, found := some erased.2.2 }

/-- Erase the first item, for a number of rounds. -/
def clearRounds : ℕ → DenseCache κ ν → Option (Answer κ ν)
  | 0, cache => some { after := cache }
  | rounds + 1, cache =>
      if cache.cacheItemsMap.values.isEmpty then some { after := cache }
      else (cache.eraseElem mixedHash 0).bind fun erased =>
        (clearRounds rounds erased.1).map fun rest =>
          { rest with dropped := erased.2 :: rest.dropped }

def clearWithCallback (cache : DenseCache κ ν) : Option (Answer κ ν) :=
  clearRounds mixedHash cache.cacheItemsMap.values.length cache

def call [Inhabited ν] (cache : DenseCache κ ν) : CacheCall κ ν → Option (Answer κ ν)
  | .put key value => cache.put mixedHash key value
  | .tryGet key => cache.tryGet mixedHash key
  | .pop key => cache.pop mixedHash key
  | .remove key => cache.eraseKey mixedHash key
  | .clear => cache.clearWithCallback mixedHash

/-- The cache after calls, with what each of them found and dropped. -/
def callAll [Inhabited ν] :
    List (CacheCall κ ν) → DenseCache κ ν →
      Option (DenseCache κ ν × List (Option ν × List (κ × ν)))
  | [], cache => some (cache, [])
  | request :: rest, cache =>
      (cache.call mixedHash request).bind fun answer =>
        (callAll rest answer.after).map fun final =>
          (final.1, (answer.found, answer.dropped) :: final.2)

end Definitions

variable [DecidableEq κ] {mixedHash : κ → BitVec 64} {dense : DenseCache κ ν}
  {cache : FixedSizedCache κ ν} {list : RecencyList κ ν} {key : κ}

/-- The dense table holds the items of the cache, the iterators point into its queue, and there is
room in the dense table for one item more. -/
structure Represents (mixedHash : κ → BitVec 64) (dense : DenseCache κ ν)
    (cache : FixedSizedCache κ ν) (list : RecencyList κ ν) : Prop where
  items : dense.cacheItemsMap.Represents mixedHash cache.cacheItemsMap
  into : dense.cachePolicy.PointsInto cache.cachePolicy
  size : dense.maxCacheSize = cache.maxCacheSize
  refines : cache.Refines list
  small : list.capacity < DenseTable.sizeLimit

namespace Represents

theorem room (represents : Represents mixedHash dense cache list) :
    cache.cacheItemsMap.entries.length < DenseTable.sizeLimit := by
  rw [represents.refines.length_eq]
  exact list.bounded.trans_lt represents.small

theorem findElem (represents : Represents mixedHash dense cache list) (key : κ) :
    dense.findElem mixedHash key =
      some (if key ∈ cache.cacheItemsMap then some (cache.cacheItemsMap.keys.idxOf key)
        else none) :=
  represents.items.doFind represents.room key

/-- The iterator of a present key points to its entry. -/
theorem getElem?_idxOf (represents : Represents mixedHash dense cache list) {value : ν}
    (found : cache.cacheItemsMap.get? key = some value) :
    cache.cacheItemsMap.entries[cache.cacheItemsMap.keys.idxOf key]? = some (key, value) := by
  have present : key ∈ cache.cacheItemsMap := Table.mem_of_get? found
  have holds := represents.items.holdsKey present
  rw [DenseTable.holdsKey_iff, represents.items.values, List.getElem?_map] at holds
  rcases Option.map_eq_some_iff.mp holds with ⟨entry, listed, rfl⟩
  have stored := Table.get?_eq_some.mpr (List.mem_of_getElem? listed)
  rw [found, Option.some.injEq] at stored
  rw [listed, stored]

theorem eraseElem (represents : Represents mixedHash dense cache list) {elem : ℕ} {value : ν}
    (listed : cache.cacheItemsMap.entries[elem]? = some (key, value)) :
    ∃ after, dense.eraseElem mixedHash elem = some (after, (key, value)) ∧
      Represents mixedHash after { cache with
        cachePolicy := cache.cachePolicy.erase key
        cacheItemsMap := cache.cacheItemsMap.erase key } (list.without key) := by
  have present : key ∈ cache.cacheItemsMap :=
    Table.mem_of_get? (Table.get?_eq_some.mpr (List.mem_of_getElem? listed))
  have below : elem < cache.cacheItemsMap.entries.length :=
    (List.getElem?_eq_some_iff.mp listed).1
  rcases represents.into.erase ((represents.refines.inStep.indexed key).mpr present) with
    ⟨policy, unlinked, into⟩
  rcases represents.items.eraseIterator represents.room below with ⟨items, ran, agrees, -⟩
  have named : cache.cacheItemsMap.keys[elem]? = some key := by
    rw [Table.keys, List.getElem?_map, listed, Option.map_some]
  rw [named, Option.elim_some] at agrees
  refine ⟨{ dense with cachePolicy := policy, cacheItemsMap := items }, ?_,
    ⟨agrees, into, represents.size, represents.refines.erased key, represents.small⟩⟩
  rw [DenseCache.eraseElem, represents.items.values, listed, Option.bind_some, unlinked,
    Option.bind_some, ran, Option.map_some]

theorem eraseKey (represents : Represents mixedHash dense cache list) (key : κ) :
    ∃ after, dense.eraseKey mixedHash key =
        some { after, dropped := (cache.eraseElem key).2.toList } ∧
      Represents mixedHash after (cache.eraseElem key).1 (list.without key) := by
  rw [DenseCache.eraseKey, represents.findElem, Option.bind_some, FixedSizedCache.eraseElem]
  cases found : cache.cacheItemsMap.get? key with
  | none =>
      have absent : key ∉ cache.cacheItemsMap := Table.get?_eq_none.mp found
      rw [if_neg absent]
      exact ⟨dense, rfl,
        { represents with refines := represents.refines.without_of_not_mem absent }⟩
  | some value =>
      rcases represents.eraseElem (represents.getElem?_idxOf found) with ⟨after, ran, agrees⟩
      rw [if_pos (Table.mem_of_get? found)]
      exact ⟨after, by simp only [ran, Option.map_some, Option.toList_some], agrees⟩

theorem pop (represents : Represents mixedHash dense cache list) (key : κ) :
    ∃ after, dense.pop mixedHash key = some { after, found := (cache.pop key).1 } ∧
      Represents mixedHash after (cache.pop key).2 (list.without key) := by
  rw [DenseCache.pop, represents.findElem, Option.bind_some, FixedSizedCache.pop]
  cases found : cache.cacheItemsMap.get? key with
  | none =>
      have absent : key ∉ cache.cacheItemsMap := Table.get?_eq_none.mp found
      rw [if_neg absent]
      exact ⟨dense, rfl,
        { represents with refines := represents.refines.without_of_not_mem absent }⟩
  | some value =>
      rcases represents.eraseElem (represents.getElem?_idxOf found) with ⟨after, ran, agrees⟩
      rw [if_pos (Table.mem_of_get? found)]
      exact ⟨after, by simp only [ran, Option.map_some], agrees⟩

theorem tryGet (represents : Represents mixedHash dense cache list) (key : κ) :
    ∃ after, dense.tryGet mixedHash key = some { after, found := (cache.tryGet key).1 } ∧
      Represents mixedHash after (cache.tryGet key).2 (list.use key) := by
  have used := (represents.refines.tryGet key).1
  have small : (list.use key).capacity < DenseTable.sizeLimit :=
    (list.capacity_call (.tryGet key)).trans_lt represents.small
  rw [FixedSizedCache.tryGet] at used ⊢
  rw [DenseCache.tryGet, represents.findElem, Option.bind_some]
  cases found : cache.cacheItemsMap.get? key with
  | none =>
      simp only [found] at used
      rw [if_neg (Table.get?_eq_none.mp found)]
      exact ⟨dense, rfl, ⟨represents.items, represents.into, represents.size, used, small⟩⟩
  | some value =>
      simp only [found] at used
      have present := Table.mem_of_get? found
      rcases represents.into.touch ((represents.refines.inStep.indexed key).mpr present) with
        ⟨policy, touched, into⟩
      rw [if_pos present]
      refine ⟨{ dense with cachePolicy := policy }, ?_,
        ⟨represents.items, into, represents.size, used, small⟩⟩
      simp only [represents.items.values, represents.getElem?_idxOf found, touched,
        Option.bind_some, Option.map_some]

/-- A full cache erases the candidate of its policy. -/
theorem makeRoom (represents : Represents mixedHash dense cache list) :
    ∃ after rest, dense.makeRoom mixedHash =
        some { after, dropped := cache.makeRoom.2.toList } ∧
      Represents mixedHash after cache.makeRoom.1 rest := by
  rw [DenseCache.makeRoom, FixedSizedCache.makeRoom, represents.items.values, represents.size,
    represents.into.replCandidate_eq]
  split
  case isFalse => exact ⟨dense, list, rfl, represents⟩
  case isTrue full =>
    have listFull : ¬ list.recent.entries.length < list.capacity := by
      rw [represents.refines.length_eq, represents.refines.size] at full
      omega
    rcases RecencyList.exists_back listFull with ⟨entry, back⟩
    rw [represents.refines.replCandidate_eq, back, Option.map_some, Option.bind_some]
    rcases represents.eraseKey entry.1 with ⟨after, ran, agrees⟩
    exact ⟨after, _, ran, agrees⟩

theorem put [Inhabited ν] (represents : Represents mixedHash dense cache list) (key : κ)
    (value : ν) :
    ∃ after, dense.put mixedHash key value =
        some { after, dropped := (cache.put key value).2.toList } ∧
      Represents mixedHash after (cache.put key value).1 (list.put key value) := by
  have stored := (represents.refines.put key value).1
  have small : (list.put key value).capacity < DenseTable.sizeLimit :=
    (list.capacity_put key value).trans_lt represents.small
  rw [DenseCache.put, represents.findElem, Option.bind_some]
  by_cases present : key ∈ cache.cacheItemsMap
  · rcases represents.into.touch ((represents.refines.inStep.indexed key).mpr present) with
      ⟨policy, touched, into⟩
    rcases represents.items.subscript represents.room key (fun _ => value) with
      ⟨items, written, agrees⟩
    rw [FixedSizedCache.put, if_pos present] at stored ⊢
    rw [if_pos present]
    refine ⟨{ dense with cachePolicy := policy, cacheItemsMap := items }, ?_,
      ⟨agrees, into, represents.size, stored, small⟩⟩
    simp only [touched, written, Option.bind_some, Option.map_some, Option.toList_none]
  · rcases represents.makeRoom with ⟨room, rest, made, roomRepresents⟩
    have unqueued := represents.refines.not_mem_queue_makeRoom present
    have unstored : key ∉ cache.makeRoom.1.cacheItemsMap :=
      fun again => unqueued ((roomRepresents.refines.inStep.queued key).mpr again)
    rcases roomRepresents.items.emplace roomRepresents.room unstored value with
      ⟨placed, ran, agrees⟩
    rw [FixedSizedCache.put, if_neg present] at stored ⊢
    rw [if_neg present]
    refine ⟨{ room with
        cachePolicy := room.cachePolicy.insert key
        cacheItemsMap := placed.1 }, ?_,
      ⟨agrees, roomRepresents.into.insert unqueued, roomRepresents.size, stored, small⟩⟩
    simp only [made, ran, Option.bind_some, Option.map_some]

theorem clearRounds {rounds : ℕ} (represents : Represents mixedHash dense cache list) :
    ∃ after rest, DenseCache.clearRounds mixedHash rounds dense =
        some { after, dropped := (cache.clearRounds rounds).2 } ∧
      Represents mixedHash after (cache.clearRounds rounds).1 rest := by
  induction rounds generalizing dense cache list with
  | zero => exact ⟨dense, list, rfl, represents⟩
  | succ rounds ih =>
      rw [DenseCache.clearRounds, FixedSizedCache.clearRounds, represents.items.values]
      cases stored : cache.cacheItemsMap.entries with
      | nil => exact ⟨dense, list, rfl, represents⟩
      | cons entry others =>
          have listed : cache.cacheItemsMap.entries[0]? = some (entry.1, entry.2) := by
            rw [stored]
            rfl
          have found : cache.cacheItemsMap.get? entry.1 = some entry.2 :=
            Table.get?_eq_some.mpr (List.mem_of_getElem? listed)
          rcases represents.eraseElem listed with ⟨erased, ran, agrees⟩
          rcases ih agrees with ⟨after, rest, restRan, restAgrees⟩
          simp only [FixedSizedCache.eraseElem, found, List.isEmpty_cons, Bool.false_eq_true,
            if_false, ran, Option.bind_some, restRan, Option.map_some, Option.toList_some,
            List.singleton_append]
          exact ⟨after, rest, rfl, restAgrees⟩

/-- Every call agrees with the cache in storage order. -/
theorem call [Inhabited ν] (represents : Represents mixedHash dense cache list)
    (request : CacheCall κ ν) :
    ∃ after, dense.call mixedHash request =
        some { after
               found := (cache.call request).found
               dropped := (cache.call request).dropped } ∧
      Represents mixedHash after (cache.call request).after (list.call request).after := by
  have refines := (represents.refines.call request).1
  have small := (list.capacity_call request).trans_lt represents.small
  have settle {after : DenseCache κ ν} {rest : RecencyList κ ν}
      (agrees : Represents mixedHash after (cache.call request).after rest) :
      Represents mixedHash after (cache.call request).after (list.call request).after :=
    { agrees with refines, small }
  cases request with
  | put key value =>
      rcases represents.put key value with ⟨after, ran, agrees⟩
      exact ⟨after, ran, settle agrees⟩
  | tryGet key =>
      rcases represents.tryGet key with ⟨after, ran, agrees⟩
      exact ⟨after, ran, settle agrees⟩
  | pop key =>
      rcases represents.pop key with ⟨after, ran, agrees⟩
      exact ⟨after, ran, settle agrees⟩
  | remove key =>
      rcases represents.eraseKey key with ⟨after, ran, agrees⟩
      exact ⟨after, ran, settle agrees⟩
  | clear =>
      rcases represents.clearRounds with ⟨after, rest, ran, agrees⟩
      rw [DenseCache.call, clearWithCallback, represents.items.values]
      exact ⟨after, ran, settle agrees⟩

end Represents

theorem represents_make {maxSize : ℕ} (small : max maxSize 1 < DenseTable.sizeLimit) :
    Represents mixedHash (make maxSize : DenseCache κ ν) (.make maxSize) (.empty maxSize) where
  items := DenseTable.represents_create mixedHash
  into := (IteratorCache.represents_make maxSize).into
  size := rfl
  refines := FixedSizedCache.refines_make maxSize
  small := small

/-- The same value is found and the same entries are dropped, in any order. -/
def SameAnswer (answer expected : Option ν × List (κ × ν)) : Prop :=
  answer.1 = expected.1 ∧ answer.2.Perm expected.2

theorem Represents.callAll [Inhabited ν] (represents : Represents mixedHash dense cache list)
    (calls : List (CacheCall κ ν)) :
    ∃ after answers, DenseCache.callAll mixedHash calls dense = some (after, answers) ∧
      List.Forall₂ SameAnswer answers (list.answers calls) ∧
      ∃ final, Represents mixedHash after final (list.callAll calls) := by
  induction calls generalizing dense cache list with
  | nil => exact ⟨dense, [], rfl, .nil, cache, represents⟩
  | cons request rest ih =>
      rcases represents.call request with ⟨next, ran, agrees⟩
      rcases ih agrees with ⟨after, answers, restRan, restSame, final, restAgrees⟩
      rcases represents.refines.call request with ⟨-, found, dropped⟩
      refine ⟨after, ((cache.call request).found, (cache.call request).dropped) :: answers, ?_,
        .cons ⟨found, dropped⟩ restSame, final, restAgrees⟩
      rw [DenseCache.callAll, ran, Option.bind_some, restRan, Option.map_some]

/-- Any run of calls on a cache on the dense hash table, whatever the hash, answers like a bounded
map in the order of last use, and leaves the entries of that map. -/
theorem callAll_recency [Inhabited ν] (mixedHash : κ → BitVec 64) {maxSize : ℕ}
    (small : max maxSize 1 < DenseTable.sizeLimit) (calls : List (CacheCall κ ν)) :
    ∃ dense answers, DenseCache.callAll mixedHash calls (.make maxSize) = some (dense, answers) ∧
      List.Forall₂ SameAnswer answers ((RecencyList.empty maxSize).answers calls) ∧
      dense.cacheItemsMap.values.Perm ((RecencyList.empty maxSize).callAll calls).recent.entries ∧
      dense.cachePolicy.lruQueue.map Prod.snd =
        ((RecencyList.empty maxSize).callAll calls).keys := by
  rcases (represents_make small).callAll calls with ⟨dense, answers, ran, same, final, agrees⟩
  refine ⟨dense, answers, ran, same, ?_, agrees.into.queue.trans agrees.refines.queue⟩
  rw [agrees.items.values]
  exact (List.perm_ext_iff_of_nodup final.cacheItemsMap.entries_nodup
    (RecencyList.callAll _ calls).recent.entries_nodup).mpr agrees.refines.items

/-- The third key displaces the second one, which was used before the first. -/
theorem callAll_recency_displaced :
    ∃ dense answers, DenseCache.callAll Uuid.mixedHash
        [.put 1 10, .put 2 20, .tryGet 1, .put 3 30, .tryGet 2, .clear] (.make 2) =
        some (dense, answers) ∧
      List.Forall₂ SameAnswer answers ((RecencyList.empty 2).answers
        [.put 1 10, .put 2 20, .tryGet 1, .put 3 30, .tryGet 2, .clear]) ∧
      dense.cacheItemsMap.values.Perm ((RecencyList.empty 2).callAll
        [.put (1 : Uuid) 10, .put 2 20, .tryGet 1, .put 3 30, .tryGet 2, .clear]).recent.entries ∧
      dense.cachePolicy.lruQueue.map Prod.snd = ((RecencyList.empty 2).callAll
        [.put (1 : Uuid) (10 : ℕ), .put 2 20, .tryGet 1, .put 3 30, .tryGet 2, .clear]).keys :=
  callAll_recency Uuid.mixedHash (by decide) _

end DenseCache

end GodotStream
