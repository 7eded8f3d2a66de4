import GodotStream.Lib.Table

/-!
# Bounded maps in the order of last use

A `RecencyList` is a finite map that holds at most `capacity` entries, one at least. Its
table stores them in the order of their last use, the most recent one in front. Finding a
key and overwriting it count as uses. A new key that finds the list full displaces the
entry in the back.

`CacheCall` is what a client asks of such a map. `call` answers with the value found and
with the entries that the call drops on its own account.
-/

namespace Storage

universe u v

/-- A bounded map whose table is in the order of last use. -/
structure RecencyList (κ : Type u) (ν : Type v) where
  recent : Table κ ν
  capacity : ℕ
  positive : 0 < capacity
  bounded : recent.entries.length ≤ capacity

/-- The requests to a bounded map. -/
inductive CacheCall (κ : Type u) (ν : Type v) where
  | put (key : κ) (value : ν)
  | tryGet (key : κ)
  | pop (key : κ)
  | remove (key : κ)
  | clear

/-- A map after a call, with the value found and the entries dropped. -/
structure CacheAnswer (σ : Type*) (κ : Type u) (ν : Type v) where
  after : σ
  found : Option ν := none
  dropped : List (κ × ν) := []

namespace RecencyList

variable {κ : Type u} {ν : Type v}

/-- The list without entries; capacity zero counts as one. -/
def empty (capacity : ℕ) : RecencyList κ ν :=
  { recent := ∅
    capacity := max capacity 1
    positive := Nat.lt_of_lt_of_le Nat.zero_lt_one (Nat.le_max_right capacity 1)
    bounded := Nat.zero_le _ }

/-- The entry that was not used for the longest time. -/
def back? (list : RecencyList κ ν) : Option (κ × ν) :=
  list.recent.entries.getLast?

def dropBack (list : RecencyList κ ν) : RecencyList κ ν :=
  { list with
    recent :=
      { entries := list.recent.entries.dropLast
        distinct := list.recent.distinct.sublist ((List.dropLast_sublist _).map Prod.fst) }
    bounded := by
      rw [List.length_dropLast]
      exact Nat.le_trans (Nat.sub_le _ 1) list.bounded }

variable [DecidableEq κ]

def find? (list : RecencyList κ ν) (key : κ) : Option ν :=
  list.recent.get? key

def without (list : RecencyList κ ν) (key : κ) : RecencyList κ ν :=
  { list with
    recent := list.recent.filterKeys (· ≠ key)
    bounded := Nat.le_trans (List.length_filter_le _ _) list.bounded }

/-- A new entry in front of a list that has room for it. -/
def pushFront (list : RecencyList κ ν) (key : κ) (value : ν) (absent : key ∉ list.recent)
    (room : list.recent.entries.length < list.capacity) : RecencyList κ ν :=
  { list with
    recent :=
      { entries := (key, value) :: list.recent.entries
        distinct := List.nodup_cons.mpr ⟨absent, list.recent.distinct⟩ }
    bounded := room }

theorem not_mem_without (list : RecencyList κ ν) (key : κ) : key ∉ (list.without key).recent := by
  simp [without]

theorem length_without_lt {list : RecencyList κ ν} {key : κ} (present : key ∈ list.recent) :
    (list.without key).recent.entries.length < list.capacity := by
  rcases List.mem_map.mp present with ⟨entry, listed, rfl⟩
  apply Nat.lt_of_lt_of_le _ list.bounded
  apply List.length_filter_lt_length_iff_exists.mpr
  exact ⟨entry, listed, by simp⟩

omit [DecidableEq κ] in
theorem length_dropBack_lt (list : RecencyList κ ν) :
    list.dropBack.recent.entries.length < list.capacity := by
  have bounded := list.bounded
  have positive := list.positive
  simp only [dropBack, List.length_dropLast]
  omega

omit [DecidableEq κ] in
theorem not_mem_dropBack {list : RecencyList κ ν} {key : κ} (absent : key ∉ list.recent) :
    key ∉ list.dropBack.recent :=
  fun present => absent (((List.dropLast_sublist _).map Prod.fst).subset present)

/-- Store a value under a key and move the key to the front; a new key on a full list displaces
the entry in the back. -/
def put (list : RecencyList κ ν) (key : κ) (value : ν) : RecencyList κ ν :=
  if present : key ∈ list.recent then
    (list.without key).pushFront key value (list.not_mem_without key) (length_without_lt present)
  else if room : list.recent.entries.length < list.capacity then
    list.pushFront key value present room
  else
    list.dropBack.pushFront key value (not_mem_dropBack present) list.length_dropBack_lt

/-- The entry that storing under a key displaces. -/
def displaced (list : RecencyList κ ν) (key : κ) : Option (κ × ν) :=
  if key ∈ list.recent ∨ list.recent.entries.length < list.capacity then none else list.back?

/-- Move a present key to the front. -/
def use (list : RecencyList κ ν) (key : κ) : RecencyList κ ν :=
  match list.find? key with
  | none => list
  | some value => list.put key value

def cleared (list : RecencyList κ ν) : RecencyList κ ν :=
  { list with
    recent := ∅
    bounded := Nat.zero_le _ }

omit [DecidableEq κ] in
theorem cleared_of_empty {list : RecencyList κ ν} (empty : list.recent.entries = []) :
    list.cleared = list := by
  rcases list with ⟨⟨entries, distinct⟩, capacity, positive, bounded⟩
  simp only at empty
  subst empty
  rfl

/-- The list after a call. -/
def call (list : RecencyList κ ν) : CacheCall κ ν → CacheAnswer (RecencyList κ ν) κ ν
  | .put key value => { after := list.put key value, dropped := (list.displaced key).toList }
  | .tryGet key => { after := list.use key, found := list.find? key }
  | .pop key => { after := list.without key, found := list.find? key }
  | .remove key =>
      { after := list.without key
        dropped := (list.find? key).toList.map fun value => (key, value) }
  | .clear => { after := list.cleared, dropped := list.recent.entries }

def callAll (list : RecencyList κ ν) (requests : List (CacheCall κ ν)) : RecencyList κ ν :=
  requests.foldl (fun list request => (list.call request).after) list

/-- What each of the requests finds and drops. -/
def answers (list : RecencyList κ ν) : List (CacheCall κ ν) → List (Option ν × List (κ × ν))
  | [] => []
  | request :: rest =>
      let answer := list.call request
      (answer.found, answer.dropped) :: answer.after.answers rest

/-- The keys, the one that was used last in front. -/
def keys (list : RecencyList κ ν) : List κ :=
  list.recent.keys

omit [DecidableEq κ] in
theorem keys_nodup (list : RecencyList κ ν) : list.keys.Nodup :=
  list.recent.distinct

theorem mem_without {list : RecencyList κ ν} {key : κ} {entry : κ × ν} :
    entry ∈ (list.without key).recent.entries ↔ entry.1 ≠ key ∧ entry ∈ list.recent.entries := by
  simp only [without, Table.filterKeys, List.mem_filter, decide_eq_true_eq]
  exact And.comm

theorem without_of_not_mem {list : RecencyList κ ν} {key : κ} (absent : key ∉ list.recent) :
    list.without key = list := by
  have kept : list.recent.filterKeys (· ≠ key) = list.recent := by
    apply Table.filterKeys_eq_self
    intro other present
    simpa using fun same : other = key => absent (same ▸ present)
  simp only [without, kept]

theorem keys_without (list : RecencyList κ ν) (key : κ) :
    (list.without key).keys = list.keys.erase key := by
  rw [list.keys_nodup.erase_eq_filter, keys, keys, Table.keys, Table.keys, List.filter_map]
  congr 1
  apply List.filter_congr
  intro entry _
  simp only [ne_eq, decide_not, Function.comp_apply, bne, beq_eq_decide]

/-- Dropping the back takes out its key. -/
theorem dropBack_eq_without {list : RecencyList κ ν} {entry : κ × ν}
    (back : list.back? = some entry) : list.dropBack = list.without entry.1 := by
  rcases List.getLast?_eq_some_iff.mp back with ⟨others, split⟩
  have distinct := list.recent.distinct
  rw [split, List.map_append, List.nodup_append] at distinct
  have kept : others.filter (fun other => decide (other.1 ≠ entry.1)) = others := by
    apply List.filter_eq_self.mpr
    intro other listed
    have different := distinct.2.2 other.1 (List.mem_map_of_mem listed) entry.1 (by simp)
    exact decide_eq_true different
  simp only [dropBack, without, Table.filterKeys, split, List.dropLast_concat, List.filter_append,
    kept, List.filter_cons, List.filter_nil, ne_eq, not_true_eq_false, decide_false,
    Bool.false_eq_true, if_false, List.append_nil]

omit [DecidableEq κ] in
theorem exists_back {list : RecencyList κ ν}
    (full : ¬ list.recent.entries.length < list.capacity) : ∃ entry, list.back? = some entry := by
  have positive := list.positive
  have filled : list.recent.entries ≠ [] := by
    intro empty
    rw [empty, List.length_nil] at full
    exact full positive
  exact ⟨_, List.getLast?_eq_some_getLast filled⟩

/-- A new key on a full list displaces exactly the key in the back. -/
theorem put_of_full {list : RecencyList κ ν} {key : κ} (absent : key ∉ list.recent)
    (full : ¬ list.recent.entries.length < list.capacity) (value : ν) :
    list.put key value = list.dropBack.put key value := by
  have room : list.dropBack.recent.entries.length < list.dropBack.capacity :=
    list.length_dropBack_lt
  simp only [put, absent, full, not_mem_dropBack absent, room, dif_neg, dif_pos, not_false_eq_true]

/-- The key that is looked up stays, and the other one is displaced. -/
example : (callAll (empty 2) [.put 1 'a', .put 2 'b', .tryGet 1, .put 3 'c']).keys = [3, 1] := by
  decide

section Spared

variable {list : RecencyList κ ν} {key : κ}
  (spared : key ∈ list.recent ∨ list.recent.entries.length < list.capacity)

include spared

theorem mem_entries_put {value : ν} {entry : κ × ν} :
    entry ∈ (list.put key value).recent.entries ↔
      entry = (key, value) ∨ entry.1 ≠ key ∧ entry ∈ list.recent.entries := by
  by_cases present : key ∈ list.recent
  · simp only [put, present, dif_pos, pushFront, List.mem_cons, mem_without]
  · have room := spared.resolve_left present
    have other (listed : entry ∈ list.recent.entries) : entry.1 ≠ key := by
      rintro rfl
      exact present (Table.mem_of_entry listed)
    simp only [put, present, room, dif_pos, dif_neg, not_false_eq_true, pushFront, List.mem_cons]
    exact or_congr_right ⟨fun listed => ⟨other listed, listed⟩, And.right⟩

theorem mem_put {value : ν} {other : κ} :
    other ∈ (list.put key value).recent ↔ other = key ∨ other ∈ list.recent := by
  simp only [Table.mem_def, Table.keys, List.mem_map, mem_entries_put spared]
  constructor
  · rintro ⟨entry, rfl | ⟨_, listed⟩, rfl⟩
    · exact Or.inl rfl
    · exact Or.inr ⟨entry, listed, rfl⟩
  · rintro (rfl | ⟨entry, listed, rfl⟩)
    · exact ⟨(other, value), Or.inl rfl, rfl⟩
    · by_cases same : entry.1 = key
      · exact ⟨(key, value), Or.inl rfl, same.symm⟩
      · exact ⟨entry, Or.inr ⟨same, listed⟩, rfl⟩

/-- The key moves to the front. -/
theorem keys_put (value : ν) : (list.put key value).keys = key :: list.keys.erase key := by
  by_cases present : key ∈ list.recent
  · simp only [put, present, dif_pos, ← keys_without]
    rfl
  · have room := spared.resolve_left present
    have unlisted : key ∉ list.keys := present
    rw [List.erase_of_not_mem unlisted]
    simp only [put, present, room, dif_pos, dif_neg, not_false_eq_true]
    rfl

end Spared

theorem capacity_put (list : RecencyList κ ν) (key : κ) (value : ν) :
    (list.put key value).capacity = list.capacity := by
  simp only [put]
  split
  · rfl
  · split <;> rfl

/-- No call changes the capacity. -/
theorem capacity_call (list : RecencyList κ ν) (request : CacheCall κ ν) :
    (list.call request).after.capacity = list.capacity := by
  cases request with
  | put key value => exact list.capacity_put key value
  | tryGet key =>
      simp only [call, use]
      split
      · rfl
      · exact list.capacity_put key _
  | pop | remove | clear => rfl

/-- The entry of a key and the others. -/
theorem entries_perm_of_find {list : RecencyList κ ν} {key : κ} {value : ν}
    (found : list.find? key = some value) :
    list.recent.entries.Perm ((key, value) :: (list.without key).recent.entries) := by
  have listed := Table.get?_eq_some.mp found
  apply (List.perm_ext_iff_of_nodup list.recent.entries_nodup _).mpr
  · intro entry
    rw [List.mem_cons, mem_without]
    constructor
    · intro present
      by_cases same : entry.1 = key
      · have stored := Table.get?_eq_some.mpr present
        rw [same] at stored
        have sameValue := Option.some.inj (stored.symm.trans found)
        exact Or.inl (Prod.ext same sameValue)
      · exact Or.inr ⟨same, present⟩
    · rintro (rfl | ⟨_, present⟩)
      · exact listed
      · exact present
  · apply List.nodup_cons.mpr
    refine ⟨?_, (list.without key).recent.entries_nodup⟩
    intro again
    exact (mem_without.mp again).1 rfl

end RecencyList

end Storage
