import GodotStream.Lib.Table

/-!
# The bounded cache with least-recently-used replacement

Model of `cpp_caches/cache.hpp` with the policy of `lru_cache_policy.hpp`. The
policy keeps a queue of keys, most recently used first, and an index of the keys
that have an iterator into the queue. Using the iterator of a key that has none
is undefined in the source; here such an access leaves the queue alone.

`put` reports the entry handed to the erase callback, so that the owner of the
cache can run the callback on it.
-/

namespace GodotStream

open Storage

universe u v

/-- `caches::LRUCachePolicy`. -/
structure LRUCachePolicy (κ : Type u) where
  lruQueue : List κ
  keyFinder : Table κ Unit

namespace LRUCachePolicy

variable {κ : Type u} [DecidableEq κ]

def insert (policy : LRUCachePolicy κ) (key : κ) : LRUCachePolicy κ :=
  { lruQueue := key :: policy.lruQueue
    keyFinder := policy.keyFinder.insert key () }

/-- Move the touched key to the front of the queue. -/
def touch (policy : LRUCachePolicy κ) (key : κ) : LRUCachePolicy κ :=
  if key ∈ policy.keyFinder then
    { policy with lruQueue := key :: policy.lruQueue.erase key }
  else policy

def erase (policy : LRUCachePolicy κ) (key : κ) : LRUCachePolicy κ :=
  { lruQueue := policy.lruQueue.erase key
    keyFinder := policy.keyFinder.erase key }

/-- The least recently used key. -/
def replCandidate (policy : LRUCachePolicy κ) : Option κ :=
  policy.lruQueue.getLast?

end LRUCachePolicy

/-- `caches::fixed_sized_cache` with the policy above. -/
structure FixedSizedCache (κ : Type u) (ν : Type v) where
  cacheItemsMap : Table κ ν
  cachePolicy : LRUCachePolicy κ
  maxCacheSize : ℕ

namespace FixedSizedCache

variable {κ : Type u} {ν : Type v}

/-- A fresh cache; capacity zero is forced to one. -/
def make (maxSize : ℕ) : FixedSizedCache κ ν :=
  { cacheItemsMap := ∅
    cachePolicy := ⟨[], ∅⟩
    maxCacheSize := if maxSize = 0 then 1 else maxSize }

variable [DecidableEq κ]

/-- What the cache holds under a key, without touching the policy. -/
def peek (cache : FixedSizedCache κ ν) (key : κ) : Option ν :=
  cache.cacheItemsMap.get? key

/-- `Erase` of a present element; the second component goes to the erase callback. -/
def eraseElem (cache : FixedSizedCache κ ν) (key : κ) :
    FixedSizedCache κ ν × Option (κ × ν) :=
  match cache.cacheItemsMap.get? key with
  | none => (cache, none)
  | some value =>
      ({ cache with
          cachePolicy := cache.cachePolicy.erase key
          cacheItemsMap := cache.cacheItemsMap.erase key }, some (key, value))

/-- Make room for one more element. -/
def makeRoom (cache : FixedSizedCache κ ν) : FixedSizedCache κ ν × Option (κ × ν) :=
  if cache.cacheItemsMap.entries.length + 1 > cache.maxCacheSize then
    match cache.cachePolicy.replCandidate with
    | none => (cache, none)
    | some candidate => cache.eraseElem candidate
  else (cache, none)

/-- `Put`: overwrite a present key, otherwise evict if necessary and insert. -/
def put (cache : FixedSizedCache κ ν) (key : κ) (value : ν) :
    FixedSizedCache κ ν × Option (κ × ν) :=
  if key ∈ cache.cacheItemsMap then
    ({ cache with
        cachePolicy := cache.cachePolicy.touch key
        cacheItemsMap := cache.cacheItemsMap.insert key value }, none)
  else
    let room := cache.makeRoom
    ({ room.1 with
        cachePolicy := room.1.cachePolicy.insert key
        cacheItemsMap := room.1.cacheItemsMap.insert key value }, room.2)

/-- `TryGet`: a hit counts as a use. -/
def tryGet (cache : FixedSizedCache κ ν) (key : κ) : Option ν × FixedSizedCache κ ν :=
  match cache.cacheItemsMap.get? key with
  | none => (none, cache)
  | some value => (some value, { cache with cachePolicy := cache.cachePolicy.touch key })

/-- `Pop`: take the element out without running the erase callback. -/
def pop (cache : FixedSizedCache κ ν) (key : κ) : Option ν × FixedSizedCache κ ν :=
  match cache.cacheItemsMap.get? key with
  | none => (none, cache)
  | some value =>
      (some value,
        { cache with
          cachePolicy := cache.cachePolicy.erase key
          cacheItemsMap := cache.cacheItemsMap.erase key })

/-- `Remove`: erase the element if it is present. -/
def remove (cache : FixedSizedCache κ ν) (key : κ) : FixedSizedCache κ ν × Option (κ × ν) :=
  cache.eraseElem key

/-- Erase the first element, for a number of rounds. -/
def clearRounds : ℕ → FixedSizedCache κ ν → FixedSizedCache κ ν × List (κ × ν)
  | 0, cache => (cache, [])
  | rounds + 1, cache =>
      match cache.cacheItemsMap.entries with
      | [] => (cache, [])
      | entry :: _ =>
          let erased := cache.eraseElem entry.1
          let rest := clearRounds rounds erased.1
          (rest.1, erased.2.toList ++ rest.2)

/-- `ClearWithCallback`: erase the first element until none is left; the second component goes to
the erase callback. -/
def clearWithCallback (cache : FixedSizedCache κ ν) : FixedSizedCache κ ν × List (κ × ν) :=
  clearRounds cache.cacheItemsMap.entries.length cache

@[simp]
theorem peek_make (maxSize : ℕ) (key : κ) : (make maxSize : FixedSizedCache κ ν).peek key = none :=
  rfl

theorem peek_eraseElem (cache : FixedSizedCache κ ν) (key other : κ) :
    (cache.eraseElem key).1.peek other = if other = key then none else cache.peek other := by
  simp only [eraseElem, peek]
  cases found : cache.cacheItemsMap.get? key with
  | none => by_cases same : other = key <;> simp [same, found]
  | some value => simp only [Table.get?_erase]

/-- The callback receives an entry of the cache. -/
theorem peek_of_eraseElem {cache : FixedSizedCache κ ν} {key : κ} {entry : κ × ν}
    (erased : (cache.eraseElem key).2 = some entry) :
    entry.1 = key ∧ cache.peek entry.1 = some entry.2 := by
  simp only [eraseElem] at erased
  cases found : cache.cacheItemsMap.get? key with
  | none => simp [found] at erased
  | some value =>
      simp only [found, Option.some.injEq] at erased
      subst erased
      exact ⟨rfl, found⟩

theorem peek_makeRoom {cache : FixedSizedCache κ ν} {key : κ} {value : ν}
    (kept : cache.makeRoom.1.peek key = some value) : cache.peek key = some value := by
  simp only [makeRoom] at kept
  split at kept
  · split at kept
    · exact kept
    · rw [peek_eraseElem] at kept
      split at kept
      · simp at kept
      · exact kept
  · exact kept

theorem peek_of_makeRoom {cache : FixedSizedCache κ ν} {entry : κ × ν}
    (erased : cache.makeRoom.2 = some entry) : cache.peek entry.1 = some entry.2 := by
  simp only [makeRoom] at erased
  split at erased
  · split at erased
    · simp at erased
    · exact (peek_of_eraseElem erased).2
  · simp at erased

@[simp]
theorem peek_put_self (cache : FixedSizedCache κ ν) (key : κ) (value : ν) :
    (cache.put key value).1.peek key = some value := by
  simp only [put, peek]
  split <;> simp

/-- Storing one key never invents or changes the value of another. -/
theorem peek_put_of_ne {cache : FixedSizedCache κ ν} {key other : κ} {value found : ν}
    (distinctKeys : other ≠ key) (kept : (cache.put key value).1.peek other = some found) :
    cache.peek other = some found := by
  simp only [put] at kept
  split at kept
  · simpa [peek, Table.get?_insert, distinctKeys] using kept
  · simp only [peek, Table.get?_insert, distinctKeys, if_false] at kept
    exact peek_makeRoom kept

theorem peek_of_put {cache : FixedSizedCache κ ν} {key : κ} {value : ν} {entry : κ × ν}
    (erased : (cache.put key value).2 = some entry) : cache.peek entry.1 = some entry.2 := by
  simp only [put] at erased
  split at erased
  · simp at erased
  · exact peek_of_makeRoom erased

/-- The displaced entry is another one. -/
theorem ne_of_put {cache : FixedSizedCache κ ν} {key : κ} {value : ν} {entry : κ × ν}
    (erased : (cache.put key value).2 = some entry) : entry.1 ≠ key := by
  have held := peek_of_put erased
  rintro rfl
  simp only [put, Table.mem_of_get? held, if_true] at erased
  simp at erased

@[simp]
theorem tryGet_fst (cache : FixedSizedCache κ ν) (key : κ) :
    (cache.tryGet key).1 = cache.peek key := by
  simp only [tryGet, peek]
  split <;> simp_all

@[simp]
theorem cacheItemsMap_tryGet (cache : FixedSizedCache κ ν) (key : κ) :
    (cache.tryGet key).2.cacheItemsMap = cache.cacheItemsMap := by
  simp only [tryGet]
  split <;> rfl

@[simp]
theorem peek_tryGet (cache : FixedSizedCache κ ν) (key other : κ) :
    (cache.tryGet key).2.peek other = cache.peek other := by
  simp only [peek, cacheItemsMap_tryGet]

@[simp]
theorem pop_fst (cache : FixedSizedCache κ ν) (key : κ) :
    (cache.pop key).1 = cache.peek key := by
  simp only [pop, peek]
  split <;> simp_all

theorem peek_pop (cache : FixedSizedCache κ ν) (key other : κ) :
    (cache.pop key).2.peek other = if other = key then none else cache.peek other := by
  simp only [pop, peek]
  cases found : cache.cacheItemsMap.get? key with
  | none => by_cases same : other = key <;> simp [same, found]
  | some value => simp only [Table.get?_erase]

theorem peek_remove (cache : FixedSizedCache κ ν) (key other : κ) :
    (cache.remove key).1.peek other = if other = key then none else cache.peek other :=
  peek_eraseElem cache key other

/-- The held values. -/
def values (cache : FixedSizedCache κ ν) : List ν :=
  cache.cacheItemsMap.values

theorem values_perm_of_peek {cache : FixedSizedCache κ ν} {key : κ} {value : ν}
    (held : cache.peek key = some value) :
    cache.values.Perm (value :: (cache.cacheItemsMap.erase key).values) :=
  Table.values_perm_of_get? held

/-- `pop` takes out the value of a present key and nothing else. -/
theorem values_pop {cache : FixedSizedCache κ ν} {key : κ} :
    cache.values.Perm ((cache.peek key).toList ++ (cache.pop key).2.values) := by
  simp only [pop, peek]
  cases found : cache.cacheItemsMap.get? key with
  | none => exact List.Perm.refl _
  | some value => exact values_perm_of_peek found

/-- What is erased goes to the callback. -/
theorem values_eraseElem (cache : FixedSizedCache κ ν) (key : κ) :
    cache.values.Perm ((cache.eraseElem key).2.toList.map Prod.snd ++
      (cache.eraseElem key).1.values) := by
  simp only [eraseElem]
  cases found : cache.cacheItemsMap.get? key with
  | none => exact List.Perm.refl _
  | some value => exact values_perm_of_peek found

theorem values_makeRoom (cache : FixedSizedCache κ ν) :
    cache.values.Perm (cache.makeRoom.2.toList.map Prod.snd ++ cache.makeRoom.1.values) := by
  simp only [makeRoom]
  split
  · split
    · exact List.Perm.refl _
    · exact values_eraseElem cache _
  · exact List.Perm.refl _

/-- A value that is stored under a present key displaces the one that was there, without the
callback. -/
theorem values_put_of_peek {cache : FixedSizedCache κ ν} {key : κ} {old : ν}
    (held : cache.peek key = some old) (value : ν) :
    (cache.put key value).2 = none ∧ ∃ others, cache.values.Perm (old :: others) ∧
      (cache.put key value).1.values.Perm (value :: others) := by
  have present : key ∈ cache.cacheItemsMap := Table.mem_of_get? held
  simp only [put, present, if_true, true_and]
  exact ⟨_, values_perm_of_peek held, Table.values_insert_perm _ key value⟩

/-- A value that is stored under a new key displaces at most what goes to the callback. -/
theorem values_put_of_not_mem {cache : FixedSizedCache κ ν} {key : κ}
    (absent : cache.peek key = none) (value : ν) :
    (value :: cache.values).Perm ((cache.put key value).2.toList.map Prod.snd ++
      (cache.put key value).1.values) := by
  have missing : key ∉ cache.cacheItemsMap := Table.get?_eq_none.mp absent
  have stillMissing : key ∉ cache.makeRoom.1.cacheItemsMap := by
    intro present
    rcases Table.mem_iff_get?.mp present with ⟨found, foundEq⟩
    have before := peek_makeRoom foundEq
    rw [absent] at before
    simp at before
  simp only [put, missing, if_false, values]
  have inserted := (Table.values_insert_perm cache.makeRoom.1.cacheItemsMap key value).trans
    ((Table.values_erase_perm stillMissing).cons value)
  have room := (values_makeRoom cache).cons value
  refine room.trans ?_
  refine List.Perm.trans ?_ (inserted.symm.append_left _)
  exact List.perm_middle.symm

/-- After enough rounds everything has gone to the callback. -/
theorem clearRounds_spec {rounds : ℕ} {cache : FixedSizedCache κ ν}
    (enough : cache.cacheItemsMap.entries.length ≤ rounds) :
    (clearRounds rounds cache).1.values = [] ∧
      cache.values.Perm ((clearRounds rounds cache).2.map Prod.snd) := by
  induction rounds generalizing cache with
  | zero =>
      have empty : cache.cacheItemsMap.entries = [] :=
        List.length_eq_zero_iff.mp (Nat.le_zero.mp enough)
      simp only [clearRounds, values, Table.values_eq_nil empty, List.map_nil, true_and]
      exact List.Perm.refl _
  | succ rounds ih =>
      simp only [clearRounds]
      split
      case h_1 empty =>
        simp only [values, Table.values_eq_nil empty, List.map_nil, true_and]
        exact List.Perm.refl _
      case h_2 entry rest entriesEq =>
        have found : cache.cacheItemsMap.get? entry.1 = some entry.2 := by
          rw [Table.get?_eq_some, entriesEq]
          exact List.mem_cons_self
        have erased : cache.eraseElem entry.1 =
            ({ cache with
                cachePolicy := cache.cachePolicy.erase entry.1
                cacheItemsMap := cache.cacheItemsMap.erase entry.1 },
              some (entry.1, entry.2)) := by
          simp only [eraseElem, found]
        have taken := values_eraseElem cache entry.1
        rw [erased] at taken ⊢
        have shorter : (cache.cacheItemsMap.erase entry.1).entries.length ≤ rounds := by
          have lengths := (Table.values_perm_of_get? found).length_eq
          simp only [Table.values, List.length_map, List.length_cons] at lengths
          omega
        let left : FixedSizedCache κ ν := { cache with
          cachePolicy := cache.cachePolicy.erase entry.1
          cacheItemsMap := cache.cacheItemsMap.erase entry.1 }
        have fewer : left.cacheItemsMap.entries.length ≤ rounds := shorter
        rcases ih fewer with ⟨empty, rest⟩
        refine ⟨empty, taken.trans ?_⟩
        rw [List.map_append]
        exact rest.append_left _

/-- A cleared cache is empty, and everything that it held has gone to the callback. -/
theorem clearWithCallback_spec (cache : FixedSizedCache κ ν) :
    cache.clearWithCallback.1.values = [] ∧
      cache.values.Perm (cache.clearWithCallback.2.map Prod.snd) :=
  clearRounds_spec (Nat.le_refl _)

end FixedSizedCache

end GodotStream
