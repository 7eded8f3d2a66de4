import Mathlib.Data.List.Nodup
import Mathlib.Data.List.Perm.Basic
import Mathlib.Data.Option.Basic

/-!
# Tables with distinct keys in storage order

A `Table` is a finite map whose entries lie one after another in a dense array,
in the order in which an iteration visits them. Distinctness of the keys is a
field, so no operation can build a table that stores a key twice.

`insert` appends a new key and overwrites a present one in place. `erase` moves
the last entry into the freed slot, as dense hash tables do, and `filterKeys`
drops entries without moving the others, as a relational table does. Clients
reason with `get?` and key membership; only iteration sees the order.
-/

namespace Storage

universe u v

/-- A finite map with its entries in storage order. -/
structure Table (κ : Type u) (ν : Type v) where
  entries : List (κ × ν)
  distinct : (entries.map Prod.fst).Nodup

namespace Table

variable {κ : Type u} {ν : Type v}

/-- The keys in storage order. -/
def keys (table : Table κ ν) : List κ :=
  table.entries.map Prod.fst

theorem length_keys (table : Table κ ν) : table.keys.length = table.entries.length :=
  List.length_map _

instance : Membership κ (Table κ ν) :=
  ⟨fun table key => key ∈ table.keys⟩

theorem mem_def {table : Table κ ν} {key : κ} : key ∈ table ↔ key ∈ table.keys :=
  Iff.rfl

theorem mem_of_entry {table : Table κ ν} {entry : κ × ν} (present : entry ∈ table.entries) :
    entry.1 ∈ table :=
  List.mem_map_of_mem present

/-- The table without entries. -/
def empty : Table κ ν :=
  ⟨[], List.nodup_nil⟩

instance : EmptyCollection (Table κ ν) :=
  ⟨empty⟩

instance : Inhabited (Table κ ν) :=
  ⟨∅⟩

@[simp]
theorem not_mem_empty (key : κ) : key ∉ (∅ : Table κ ν) :=
  List.not_mem_nil

@[simp]
theorem entries_empty : (∅ : Table κ ν).entries = [] :=
  rfl

variable [DecidableEq κ]

instance (key : κ) (table : Table κ ν) : Decidable (key ∈ table) :=
  inferInstanceAs (Decidable (key ∈ table.keys))

/-- The value stored under a key. -/
def get? (table : Table κ ν) (key : κ) : Option ν :=
  table.entries.lookup key

theorem lookup_eq_some_of_mem {entries : List (κ × ν)}
    (distinct : (entries.map Prod.fst).Nodup) {key : κ} {value : ν}
    (present : (key, value) ∈ entries) : entries.lookup key = some value := by
  induction entries with
  | nil => simp at present
  | cons entry rest ih =>
      simp only [List.map_cons, List.nodup_cons] at distinct
      rcases List.mem_cons.mp present with rfl | later
      · simp
      · have other : key ≠ entry.1 := by
          rintro rfl
          exact distinct.1 (List.mem_map.mpr ⟨_, later, rfl⟩)
        rw [List.lookup_cons]
        simp only [beq_eq_false_iff_ne.mpr other]
        exact ih distinct.2 later

theorem mem_of_lookup_eq_some {entries : List (κ × ν)} {key : κ} {value : ν}
    (found : entries.lookup key = some value) : (key, value) ∈ entries := by
  induction entries with
  | nil => simp at found
  | cons entry rest ih =>
      rw [List.lookup_cons] at found
      by_cases same : key = entry.1
      · subst same
        simp only [BEq.rfl, Option.some.injEq] at found
        subst found
        exact List.mem_cons_self
      · simp only [beq_eq_false_iff_ne.mpr same] at found
        exact List.mem_cons_of_mem _ (ih found)

/-- Looking a key up and finding its entry in the array are the same thing. -/
theorem get?_eq_some {table : Table κ ν} {key : κ} {value : ν} :
    table.get? key = some value ↔ (key, value) ∈ table.entries :=
  ⟨mem_of_lookup_eq_some, lookup_eq_some_of_mem table.distinct⟩

theorem mem_iff_get? {table : Table κ ν} {key : κ} :
    key ∈ table ↔ ∃ value, table.get? key = some value := by
  simp only [get?_eq_some, mem_def, keys, List.mem_map, Prod.exists, exists_and_right,
    exists_eq_right]

theorem get?_eq_none {table : Table κ ν} {key : κ} :
    table.get? key = none ↔ key ∉ table := by
  rw [mem_iff_get?, Option.eq_none_iff_forall_ne_some]
  simp

theorem mem_of_get? {table : Table κ ν} {key : κ} {value : ν}
    (found : table.get? key = some value) : key ∈ table :=
  mem_iff_get?.mpr ⟨value, found⟩

@[simp]
theorem get?_empty (key : κ) : (∅ : Table κ ν).get? key = none :=
  rfl

/-- Overwrite the entry of `key` in place. -/
def overwrite (entries : List (κ × ν)) (key : κ) (value : ν) : List (κ × ν) :=
  entries.map fun entry => if entry.1 = key then (key, value) else entry

theorem keys_overwrite (entries : List (κ × ν)) (key : κ) (value : ν) :
    (overwrite entries key value).map Prod.fst = entries.map Prod.fst := by
  simp only [overwrite, List.map_map]
  apply List.map_congr_left
  intro entry _
  by_cases same : entry.1 = key <;> simp [same]

/-- Store a value under a key: a present key keeps its slot, a new one goes last. -/
def insert (table : Table κ ν) (key : κ) (value : ν) : Table κ ν :=
  if present : key ∈ table then
    ⟨overwrite table.entries key value, by rw [keys_overwrite]; exact table.distinct⟩
  else
    ⟨table.entries ++ [(key, value)], by
      simp only [List.map_append, List.map_cons, List.map_nil]
      exact table.distinct.append (by simp) (by simpa [mem_def, keys] using present)⟩

theorem mem_entries_insert {table : Table κ ν} {key : κ} {value : ν} {entry : κ × ν} :
    entry ∈ (table.insert key value).entries ↔
      entry = (key, value) ∨ (entry.1 ≠ key ∧ entry ∈ table.entries) := by
  unfold insert
  split
  case isTrue present =>
    simp only [overwrite, List.mem_map]
    constructor
    · rintro ⟨old, oldMem, rfl⟩
      by_cases same : old.1 = key <;> simp [same, oldMem]
    · rintro (rfl | ⟨other, oldMem⟩)
      · rcases List.mem_map.mp present with ⟨old, oldMem, rfl⟩
        exact ⟨old, oldMem, by simp⟩
      · exact ⟨entry, oldMem, by simp [other]⟩
  case isFalse absent =>
    have ne_of_mem (mem : entry ∈ table.entries) : entry.1 ≠ key := by
      rintro rfl
      exact absent (mem_of_entry mem)
    simp only [List.mem_append, List.mem_singleton]
    grind

@[simp]
theorem get?_insert_self (table : Table κ ν) (key : κ) (value : ν) :
    (table.insert key value).get? key = some value := by
  rw [get?_eq_some, mem_entries_insert]
  exact Or.inl rfl

theorem get?_insert_of_ne {table : Table κ ν} {key other : κ} (value : ν)
    (distinctKeys : other ≠ key) : (table.insert key value).get? other = table.get? other := by
  ext found
  rw [get?_eq_some, get?_eq_some, mem_entries_insert]
  simp [distinctKeys]

theorem get?_insert (table : Table κ ν) (key other : κ) (value : ν) :
    (table.insert key value).get? other = if other = key then some value else table.get? other := by
  split
  case isTrue same => rw [same, get?_insert_self]
  case isFalse distinctKeys => exact get?_insert_of_ne value distinctKeys

@[simp]
theorem mem_insert {table : Table κ ν} {key other : κ} {value : ν} :
    other ∈ table.insert key value ↔ other = key ∨ other ∈ table := by
  simp only [mem_iff_get?, get?_insert]
  by_cases same : other = key <;> simp [same]

theorem insert_eq_self {table : Table κ ν} {key : κ} {value : ν}
    (found : table.get? key = some value) : table.insert key value = table := by
  have same : overwrite table.entries key value = table.entries := by
    conv_rhs => rw [← List.map_id table.entries]
    apply List.map_congr_left
    intro entry listed
    split
    case isTrue own =>
      have stored : table.get? entry.1 = some entry.2 := get?_eq_some.mpr listed
      rw [own, found, Option.some.injEq] at stored
      rw [stored, ← own, id]
    case isFalse => rfl
  simp only [insert, mem_of_get? found, dif_pos, same]

theorem overwrite_eq_self {entries : List (κ × ν)} {key : κ} (value : ν)
    (absent : key ∉ entries.map Prod.fst) : overwrite entries key value = entries := by
  conv_rhs => rw [← List.map_id entries]
  apply List.map_congr_left
  intro entry listed
  rw [if_neg, id]
  rintro rfl
  exact absent (List.mem_map_of_mem listed)

theorem keys_insert_of_absent {table : Table κ ν} {key : κ} (value : ν) (absent : key ∉ table) :
    (table.insert key value).keys = table.keys ++ [key] := by
  rw [insert, dif_neg absent, keys, keys, List.map_append, List.map_singleton]

theorem keys_insert_of_mem {table : Table κ ν} {key : κ} (value : ν) (present : key ∈ table) :
    (table.insert key value).keys = table.keys := by
  rw [insert, dif_pos present, keys, keys, keys_overwrite]

/-- The later of two values stored under a new key stays. -/
theorem insert_insert_of_absent {table : Table κ ν} {key : κ} (first second : ν)
    (absent : key ∉ table) :
    (table.insert key first).insert key second = table.insert key second := by
  have listed : key ∈ table.insert key first := mem_insert.mpr (Or.inl rfl)
  rw [insert, dif_pos listed]
  simp only [insert, dif_neg absent, overwrite, List.map_append, List.map_cons, List.map_nil,
    if_true]
  congr 2
  exact overwrite_eq_self second absent

/-- Drop the entries whose key does not satisfy the predicate. -/
def filterKeys (table : Table κ ν) (keep : κ → Bool) : Table κ ν :=
  ⟨table.entries.filter fun entry => keep entry.1,
    table.distinct.sublist (List.filter_sublist.map Prod.fst)⟩

omit [DecidableEq κ] in
theorem filterKeys_eq_self {table : Table κ ν} {keep : κ → Bool}
    (all : ∀ key ∈ table, keep key = true) : table.filterKeys keep = table := by
  have same : (table.entries.filter fun entry => keep entry.1) = table.entries :=
    List.filter_eq_self.mpr fun entry listed => all entry.1 (mem_of_entry listed)
  simp only [filterKeys, same]

theorem get?_filterKeys (table : Table κ ν) (keep : κ → Bool) (key : κ) :
    (table.filterKeys keep).get? key = if keep key then table.get? key else none := by
  ext found
  rw [get?_eq_some]
  simp only [filterKeys, List.mem_filter]
  split
  case isTrue kept => simp [kept, get?_eq_some]
  case isFalse dropped => simp [dropped]

@[simp]
theorem mem_filterKeys {table : Table κ ν} {keep : κ → Bool} {key : κ} :
    key ∈ table.filterKeys keep ↔ keep key = true ∧ key ∈ table := by
  simp only [mem_iff_get?, get?_filterKeys]
  by_cases kept : keep key = true <;> simp [kept]

/-- Overwrite the first entry of `key` by another entry. -/
def refill (key : κ) (entry : κ × ν) : List (κ × ν) → List (κ × ν)
  | [] => []
  | first :: rest => if first.1 = key then entry :: rest else first :: refill key entry rest

/-- Erase `key`: the last entry fills the freed slot and the array shrinks by one. -/
def swapErase (key : κ) (entries : List (κ × ν)) : List (κ × ν) :=
  match entries.getLast? with
  | none => []
  | some last =>
      if last.1 = key then entries.dropLast
      else if key ∈ entries.map Prod.fst then refill key last entries.dropLast
      else entries

theorem filter_ne_eq_self {key : κ} {entries : List (κ × ν)}
    (absent : key ∉ entries.map Prod.fst) :
    (entries.filter fun entry => entry.1 ≠ key) = entries := by
  apply List.filter_eq_self.mpr
  intro entry entryMem
  simp only [ne_eq, decide_not, Bool.not_eq_eq_eq_not, Bool.not_true, decide_eq_false_iff_not]
  rintro rfl
  exact absent (List.mem_map_of_mem entryMem)

theorem refill_perm {key : κ} {entry : κ × ν} {entries : List (κ × ν)}
    (distinct : (entries.map Prod.fst).Nodup) (present : key ∈ entries.map Prod.fst) :
    (refill key entry entries).Perm (entry :: entries.filter fun old => old.1 ≠ key) := by
  induction entries with
  | nil => simp at present
  | cons first rest ih =>
      simp only [List.map_cons, List.nodup_cons] at distinct
      by_cases same : first.1 = key
      · subst same
        rw [List.filter_cons_of_neg (by simp), filter_ne_eq_self distinct.1]
        simp [refill]
      · have later : key ∈ rest.map Prod.fst := by
          rcases List.mem_cons.mp present with clash | later
          · exact absurd clash.symm same
          · exact later
        have step := (ih distinct.2 later).cons first
        simp only [refill, same, if_false]
        refine step.trans ?_
        simp [same, List.Perm.swap]

/-- Erasing by moving the last entry keeps exactly the entries of the other keys. -/
theorem swapErase_perm {key : κ} {entries : List (κ × ν)}
    (distinct : (entries.map Prod.fst).Nodup) :
    (swapErase key entries).Perm (entries.filter fun entry => entry.1 ≠ key) := by
  rcases List.eq_nil_or_concat entries with rfl | ⟨front, last, rfl⟩
  · simp [swapErase]
  rw [List.concat_eq_append] at distinct ⊢
  have frontDistinct : (front.map Prod.fst).Nodup :=
    distinct.sublist ((List.sublist_append_left front [last]).map Prod.fst)
  have lastFresh : last.1 ∉ front.map Prod.fst := by
    simp only [List.map_append, List.map_cons, List.map_nil] at distinct
    intro clash
    exact (List.nodup_append.mp distinct).2.2 _ clash _ (List.mem_singleton.mpr rfl) rfl
  simp only [swapErase, List.getLast?_append, List.getLast?_singleton, Option.some_or,
    List.dropLast_concat]
  by_cases lastKey : last.1 = key
  · subst lastKey
    rw [if_pos rfl, List.filter_append, filter_ne_eq_self lastFresh]
    simp
  · simp only [lastKey, if_false, List.map_append, List.mem_append, List.map_cons, List.map_nil,
      List.mem_singleton, Ne.symm lastKey, or_false]
    by_cases present : key ∈ front.map Prod.fst
    · rw [if_pos present]
      refine (refill_perm frontDistinct present).trans ?_
      rw [List.filter_append]
      simp only [ne_eq, lastKey, not_false_eq_true, decide_true, List.filter_cons_of_pos,
        List.filter_nil]
      exact (List.perm_append_singleton last _).symm
    · rw [if_neg present, filter_ne_eq_self]
      simpa [Ne.symm lastKey] using present

theorem refill_eq_set {entries : List (κ × ν)} {slot : ℕ} {old entry : κ × ν}
    (distinct : (entries.map Prod.fst).Nodup) (found : entries[slot]? = some old) :
    refill old.1 entry entries = entries.set slot entry := by
  induction entries generalizing slot with
  | nil => simp at found
  | cons first rest ih =>
      simp only [List.map_cons, List.nodup_cons] at distinct
      cases slot with
      | zero =>
          simp only [List.getElem?_cons_zero, Option.some.injEq] at found
          simp [refill, found]
      | succ slot =>
          rw [List.getElem?_cons_succ] at found
          have other : first.1 ≠ old.1 := by
            intro same
            exact distinct.1 (same ▸ List.mem_map_of_mem (List.mem_of_getElem? found))
          rw [refill, if_neg other, List.set_cons_succ, ih distinct.2 found]

/-- Erasing the key of a slot writes the last entry there and drops the last slot. -/
theorem swapErase_eq_set {entries : List (κ × ν)} {slot : ℕ} {old back : κ × ν}
    (distinct : (entries.map Prod.fst).Nodup) (found : entries[slot]? = some old)
    (last : entries.getLast? = some back) :
    swapErase old.1 entries =
      if slot = entries.length - 1 then entries.dropLast
      else (entries.set slot back).dropLast := by
  rcases List.eq_nil_or_concat entries with rfl | ⟨front, final, rfl⟩
  · simp at found
  rw [List.concat_eq_append] at *
  obtain rfl : final = back := by simpa using last
  have below := (List.getElem?_eq_some_iff.mp found).1
  simp only [List.length_append, List.length_singleton] at below
  simp only [swapErase, last, List.length_append, List.length_singleton, Nat.add_sub_cancel,
    List.dropLast_concat]
  by_cases isLast : slot = front.length
  · rw [isLast, List.getElem?_append_right (Nat.le_refl _), Nat.sub_self] at found
    obtain rfl : final = old := by simpa using found
    rw [if_pos rfl, if_pos isLast]
  · have inside : slot < front.length := by omega
    rw [List.getElem?_append_left inside] at found
    have listed : old.1 ∈ front.map Prod.fst :=
      List.mem_map_of_mem (List.mem_of_getElem? found)
    simp only [List.map_append, List.map_cons, List.map_nil] at distinct
    have other : final.1 ≠ old.1 := by
      intro same
      exact (List.nodup_append.mp distinct).2.2 _ listed _ (List.mem_singleton.mpr rfl) same.symm
    rw [if_neg other, if_neg isLast, if_pos (by simp [listed]),
      refill_eq_set (List.nodup_append.mp distinct).1 found, List.set_append_left _ _ inside,
      List.dropLast_concat]

/-- Erase a key. -/
def erase (table : Table κ ν) (key : κ) : Table κ ν :=
  ⟨swapErase key table.entries, by
    refine ((swapErase_perm table.distinct).map Prod.fst).nodup_iff.mpr ?_
    exact table.distinct.sublist (List.filter_sublist.map Prod.fst)⟩

/-- Erasing an absent key does nothing. -/
theorem erase_eq_self {table : Table κ ν} {key : κ} (absent : key ∉ table) :
    table.erase key = table := by
  have same : swapErase key table.entries = table.entries := by
    rcases List.eq_nil_or_concat table.entries with empty | ⟨front, last, split⟩
    · rw [empty]
      rfl
    · rw [List.concat_eq_append] at split
      have other : last.1 ≠ key := by
        rintro rfl
        exact absent (mem_of_entry (split ▸ List.mem_append_right _ List.mem_cons_self))
      simp only [swapErase, split, List.getLast?_append, List.getLast?_singleton, Option.some_or,
        if_neg other]
      rw [← split]
      exact if_neg absent
  simp only [erase, same]

theorem mem_entries_erase {table : Table κ ν} {key : κ} {entry : κ × ν} :
    entry ∈ (table.erase key).entries ↔ entry.1 ≠ key ∧ entry ∈ table.entries := by
  simp only [erase, (swapErase_perm table.distinct).mem_iff, List.mem_filter, ne_eq, decide_not,
    Bool.not_eq_eq_eq_not, Bool.not_true, decide_eq_false_iff_not]
  exact And.comm

theorem get?_erase (table : Table κ ν) (key other : κ) :
    (table.erase key).get? other = if other = key then none else table.get? other := by
  ext found
  rw [get?_eq_some, mem_entries_erase]
  by_cases same : other = key <;> simp [same, get?_eq_some]

@[simp]
theorem get?_erase_self (table : Table κ ν) (key : κ) : (table.erase key).get? key = none := by
  simp [get?_erase]

theorem get?_erase_of_ne {table : Table κ ν} {key other : κ} (distinctKeys : other ≠ key) :
    (table.erase key).get? other = table.get? other := by
  simp [get?_erase, distinctKeys]

@[simp]
theorem mem_erase {table : Table κ ν} {key other : κ} :
    other ∈ table.erase key ↔ other ≠ key ∧ other ∈ table := by
  simp only [mem_iff_get?, get?_erase]
  by_cases same : other = key <;> simp [same]

theorem length_erase_le (table : Table κ ν) (key : κ) :
    (table.erase key).entries.length ≤ table.entries.length := by
  rw [erase, (swapErase_perm table.distinct).length_eq]
  exact List.length_filter_le _ _

theorem length_erase_lt {table : Table κ ν} {key : κ} (present : key ∈ table) :
    (table.erase key).entries.length < table.entries.length := by
  rw [erase, (swapErase_perm table.distinct).length_eq,
    List.length_filter_lt_length_iff_exists]
  rcases List.mem_map.mp present with ⟨entry, listed, rfl⟩
  exact ⟨entry, listed, by simp⟩

theorem get?_foldl_erase (table : Table κ ν) (keys : List κ) (key : κ) :
    (keys.foldl erase table).get? key = if key ∈ keys then none else table.get? key := by
  induction keys generalizing table with
  | nil => simp
  | cons first rest ih =>
      rw [List.foldl_cons, ih, get?_erase]
      by_cases same : key = first <;> simp [same]

/-- The values in storage order. -/
def values (table : Table κ ν) : List ν :=
  table.entries.map Prod.snd

omit [DecidableEq κ] in
theorem entries_nodup (table : Table κ ν) : table.entries.Nodup :=
  table.distinct.of_map Prod.fst

theorem values_insert_perm (table : Table κ ν) (key : κ) (value : ν) :
    (table.insert key value).values.Perm (value :: (table.erase key).values) := by
  have absent : (key, value) ∉ (table.erase key).entries := by
    rw [mem_entries_erase]
    exact fun listed => listed.1 rfl
  have entries : (table.insert key value).entries.Perm
      ((key, value) :: (table.erase key).entries) := by
    apply (List.perm_ext_iff_of_nodup (entries_nodup _)
      (List.nodup_cons.mpr ⟨absent, entries_nodup _⟩)).mpr
    intro entry
    rw [mem_entries_insert, List.mem_cons, mem_entries_erase]
  exact entries.map Prod.snd

/-- Erasing a present key takes out its value. -/
theorem values_perm_of_get? {table : Table κ ν} {key : κ} {value : ν}
    (found : table.get? key = some value) :
    table.values.Perm (value :: (table.erase key).values) := by
  have inserted := values_insert_perm table key value
  rw [insert_eq_self found] at inserted
  exact inserted

theorem values_erase_perm {table : Table κ ν} {key : κ} (absent : key ∉ table) :
    (table.erase key).values.Perm table.values := by
  have entries : (table.erase key).entries.Perm table.entries := by
    apply (List.perm_ext_iff_of_nodup (entries_nodup _) (entries_nodup _)).mpr
    intro entry
    rw [mem_entries_erase]
    constructor
    · exact fun listed => listed.2
    · intro listed
      refine ⟨?_, listed⟩
      rintro rfl
      exact absent (mem_of_entry listed)
  exact entries.map Prod.snd

omit [DecidableEq κ] in
theorem values_eq_nil {table : Table κ ν} (empty : table.entries = []) : table.values = [] := by
  rw [values, empty, List.map_nil]

/-- Read a key, creating it with the default value when it is absent. -/
def touch [Inhabited ν] (table : Table κ ν) (key : κ) : Table κ ν :=
  if key ∈ table then table else table.insert key default

theorem get?_touch [Inhabited ν] (table : Table κ ν) (key other : κ) :
    (table.touch key).get? other =
      if other = key then some ((table.get? key).getD default) else table.get? other := by
  unfold touch
  split
  case isTrue present =>
    obtain ⟨value, found⟩ := mem_iff_get?.mp present
    by_cases same : other = key <;> simp [same, found]
  case isFalse absent =>
    rw [get?_insert, get?_eq_none.mpr absent]
    rfl

/-- Apply a function to the value of a key, which is created when it is absent. -/
def modify [Inhabited ν] (table : Table κ ν) (key : κ) (change : ν → ν) : Table κ ν :=
  table.insert key (change ((table.get? key).getD default))

theorem get?_modify [Inhabited ν] (table : Table κ ν) (key other : κ) (change : ν → ν) :
    (table.modify key change).get? other =
      if other = key then some (change ((table.get? key).getD default))
      else table.get? other := by
  rw [modify, get?_insert]

@[simp]
theorem mem_modify [Inhabited ν] {table : Table κ ν} {key other : κ} {change : ν → ν} :
    other ∈ table.modify key change ↔ other = key ∨ other ∈ table :=
  mem_insert

end Table

end Storage
