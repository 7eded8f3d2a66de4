import GodotStream.DenseErasure

/-!
# The dense hash table is a table in storage order

Whatever the hash of the keys, a run of calls on a dense hash table answers like the
same calls on a `Storage.Table` and leaves its entries in the same order: a new key
goes last, a present one keeps its slot, and the last entry fills the slot of an
erased one. The proviso is that no call begins with `sizeLimit` entries, about
sixteen million, from where on a distance could outgrow its 24 bits.
-/

namespace GodotStream

open Ring RobinHood Storage

universe u v

/-- The calls on a map, with the iterators they are given as indices. -/
inductive TableCall (κ : Type u) (ν : Type v) where
  | find (key : κ)
  | count (key : κ)
  | tryEmplace (key : κ) (value : ν)
  | emplace (key : κ) (value : ν)
  | subscript (key : κ) (change : ν → ν)
  | eraseKey (key : κ)
  | eraseIterator (valueIdx : ℕ)
  | clear
  | copy

/-- What a call returns. -/
inductive TableAnswer where
  | found (valueIdx : Option ℕ)
  | placed (valueIdx : ℕ) (inserted : Bool)
  | number (count : ℕ)
  | nothing
deriving DecidableEq

section Definitions

variable {κ : Type u} {ν : Type v} [DecidableEq κ] [Inhabited ν]

/-- A call on the dense hash table. -/
def DenseTable.call (mixedHash : κ → BitVec 64) (table : DenseTable κ ν) :
    TableCall κ ν → Option (DenseTable κ ν × TableAnswer)
  | .find key => (table.doFind mixedHash key).map fun found => (table, .found found)
  | .count key => (table.count mixedHash key).map fun number => (table, .number number)
  | .tryEmplace key value =>
      (table.doTryEmplace mixedHash key value).map fun done =>
        (done.1, .placed done.2.1 done.2.2)
  | .emplace key value =>
      (table.emplace mixedHash key value).map fun done => (done.1, .placed done.2.1 done.2.2)
  | .subscript key change =>
      (table.subscript mixedHash key change).map fun after => (after, .nothing)
  | .eraseKey key =>
      (table.doEraseKey mixedHash key).map fun done => (done.1, .number done.2)
  | .eraseIterator valueIdx =>
      (table.eraseIterator mixedHash valueIdx).map fun after => (after, .nothing)
  | .clear => some (table.clear, .nothing)
  | .copy => some (table.copy, .nothing)

/-- The calls of a list one after another. -/
def DenseTable.callAll (mixedHash : κ → BitVec 64) :
    List (TableCall κ ν) → DenseTable κ ν → Option (DenseTable κ ν × List TableAnswer)
  | [], table => some (table, [])
  | call :: rest, table =>
      (table.call mixedHash call).bind fun done =>
        (DenseTable.callAll mixedHash rest done.1).map fun final =>
          (final.1, done.2 :: final.2)

/-- The same call on a table in storage order. -/
def TableCall.onTable (table : Table κ ν) : TableCall κ ν → Table κ ν × TableAnswer
  | .find key =>
      (table, .found (if key ∈ table then some (table.keys.idxOf key) else none))
  | .count key => (table, .number (if key ∈ table then 1 else 0))
  | .tryEmplace key value | .emplace key value =>
      if key ∈ table then (table, .placed (table.keys.idxOf key) false)
      else (table.insert key value, .placed table.keys.length true)
  | .subscript key change => (table.modify key change, .nothing)
  | .eraseKey key => (table.erase key, .number (if key ∈ table then 1 else 0))
  | .eraseIterator valueIdx =>
      (table.keys[valueIdx]?.elim table table.erase, .nothing)
  | .clear => (∅, .nothing)
  | .copy => (table, .nothing)

/-- The calls of a list on a table in storage order. -/
def TableCall.allOnTable : List (TableCall κ ν) → Table κ ν → Table κ ν × List TableAnswer
  | [], table => (table, [])
  | call :: rest, table =>
      let done := call.onTable table
      let final := TableCall.allOnTable rest done.1
      (final.1, done.2 :: final.2)

/-- The table has room and an iterator that is given to the call points to an entry. -/
def TableCall.Admissible (table : Table κ ν) (call : TableCall κ ν) : Prop :=
  table.entries.length < DenseTable.sizeLimit ∧
    match call with
    | .eraseIterator valueIdx => valueIdx < table.entries.length
    | _ => True

instance (table : Table κ ν) : ∀ call : TableCall κ ν, Decidable (call.Admissible table)
  | .eraseIterator _ => inferInstanceAs (Decidable (_ ∧ _))
  | .find _ | .count _ | .tryEmplace _ _ | .emplace _ _ | .subscript _ _ | .eraseKey _ | .clear
  | .copy => inferInstanceAs (Decidable (_ ∧ True))

/-- Every call of a list is admissible where it happens. -/
def TableCall.AllAdmissible : List (TableCall κ ν) → Table κ ν → Prop
  | [], _ => True
  | call :: rest, table =>
      call.Admissible table ∧ TableCall.AllAdmissible rest (call.onTable table).1

instance TableCall.decidableAllAdmissible :
    ∀ (calls : List (TableCall κ ν)) (table : Table κ ν),
      Decidable (TableCall.AllAdmissible calls table)
  | [], _ => isTrue trivial
  | call :: rest, table =>
      have := TableCall.decidableAllAdmissible rest (call.onTable table).1
      inferInstanceAs (Decidable (_ ∧ _))

/-- The largest number of entries at any time of a run. -/
def TableCall.peak : List (TableCall κ ν) → Table κ ν → ℕ
  | [], table => table.entries.length
  | call :: rest, table =>
      max table.entries.length (TableCall.peak rest (call.onTable table).1)

end Definitions

namespace DenseTable

variable {κ : Type u} {ν : Type v} {mixedHash : κ → BitVec 64} {dense : DenseTable κ ν}

theorem wellFormed_replicate {shifts : ℕ} (low : 32 < shifts) (high : shifts ≤ 62) :
    WellFormed mixedHash (⟨[], List.replicate (2 ^ (64 - shifts)) default,
      bucketCapacity (2 ^ (64 - shifts)), shifts⟩ : DenseTable κ ν) :=
  ⟨List.nodup_nil, by rw [List.length_replicate], Nat.zero_le _, layout_replicate low high _ _⟩

theorem create_eq : (create : DenseTable κ ν) =
    ⟨[], List.replicate (2 ^ (64 - 62)) default, bucketCapacity (2 ^ (64 - 62)), 62⟩ := by
  simp only [create, clearBuckets, allocateBucketsFromShift, bucketCount,
    calcNumBuckets_eq (show 32 ≤ 62 by decide), List.take_nil, List.nil_append, List.length_nil,
    Nat.sub_zero, List.length_replicate]

theorem wellFormed_create : (create : DenseTable κ ν).WellFormed mixedHash := by
  rw [create_eq]
  exact wellFormed_replicate (by decide) (Nat.le_refl _)

theorem WellFormed.clear (wellFormed : dense.WellFormed mixedHash) :
    dense.clear.WellFormed mixedHash ∧ dense.clear.shifts = dense.shifts := by
  have layout := wellFormed.layout
  have cleared : dense.clear = ⟨[], List.replicate (2 ^ (64 - dense.shifts)) default,
      bucketCapacity (2 ^ (64 - dense.shifts)), dense.shifts⟩ := by
    simp only [DenseTable.clear, clearBuckets, bucketCount, layout.count, wellFormed.capacity]
  rw [cleared]
  exact ⟨wellFormed_replicate layout.shiftsLow layout.shiftsHigh, rfl⟩

/-- A copy is the same table, or a new one when there are no entries. -/
theorem WellFormed.copy_eq (wellFormed : dense.WellFormed mixedHash) :
    dense.copy = if dense.values.isEmpty then create else dense := by
  have layout := wellFormed.layout
  have low := layout.shiftsLow
  rw [DenseTable.copy]
  by_cases empty : dense.values.isEmpty = true
  · rw [if_pos empty, if_pos empty, List.isEmpty_iff.mp empty]
    rfl
  · rw [if_neg empty, if_neg empty]
    simp only [allocateBucketsFromShift, calcNumBuckets_eq (show 32 ≤ dense.shifts by omega),
      ← layout.count, ← wellFormed.capacity]

theorem WellFormed.copy (wellFormed : dense.WellFormed mixedHash) :
    dense.copy.WellFormed mixedHash ∧ dense.copy.values = dense.values ∧
      (dense.copy.shifts = 62 ∨ dense.copy.shifts = dense.shifts) := by
  rw [wellFormed.copy_eq]
  by_cases empty : dense.values.isEmpty = true
  · rw [if_pos empty, create_eq]
    exact ⟨create_eq (κ := κ) (ν := ν) ▸ wellFormed_create, (List.isEmpty_iff.mp empty).symm,
      Or.inl rfl⟩
  · rw [if_neg empty]
    exact ⟨wellFormed, rfl, Or.inr rfl⟩

theorem keys_writeSecond (dense : DenseTable κ ν) (valueIdx : ℕ) (change : ν → ν) :
    (dense.writeSecond valueIdx change).values.map Prod.fst = dense.values.map Prod.fst := by
  apply List.ext_getElem?
  intro i
  simp only [writeSecond, List.getElem?_map, List.getElem?_modify]
  cases dense.values[i]? with
  | none => rfl
  | some entry => by_cases same : valueIdx = i <;> simp [same]

/-- A write through a reference leaves the keys and the buckets alone. -/
theorem WellFormed.writeSecond (wellFormed : dense.WellFormed mixedHash) (valueIdx : ℕ)
    (change : ν → ν) : (dense.writeSecond valueIdx change).WellFormed mixedHash := by
  have layout := wellFormed.layout
  have size : (dense.writeSecond valueIdx change).values.length = dense.values.length :=
    List.length_modify ..
  have same (other : ℕ) : (dense.writeSecond valueIdx change).hashAt mixedHash other =
      dense.hashAt mixedHash other := by
    have keys := congrArg (fun keys => keys[other]?) (keys_writeSecond dense valueIdx change)
    simp only [List.getElem?_map] at keys
    have hashes := congrArg (Option.map mixedHash) keys
    rw [Option.map_map, Option.map_map] at hashes
    exact congrArg (fun found => found.getD 0) hashes
  refine ⟨?_, wellFormed.capacity, size ▸ wellFormed.roomy, ?_⟩
  · rw [keys_writeSecond]
    exact wellFormed.distinct
  · rw [size]
    exact {
      shiftsLow := layout.shiftsLow
      shiftsHigh := layout.shiftsHigh
      count := layout.count
      valid := layout.valid.congr fun other _ => by
        rw [homeAt, same]
        exact ⟨rfl, rfl⟩
      spare := layout.spare }

variable [DecidableEq κ] {table : Table κ ν} {key : κ}

/-- A dense hash table that represents a table. -/
structure Represents (mixedHash : κ → BitVec 64) (dense : DenseTable κ ν) (table : Table κ ν) :
    Prop where
  wellFormed : dense.WellFormed mixedHash
  values : dense.values = table.entries

omit [DecidableEq κ] in
theorem represents_create (mixedHash : κ → BitVec 64) :
    Represents mixedHash (create : DenseTable κ ν) ∅ :=
  ⟨wellFormed_create, by rw [create_eq, Table.entries_empty]⟩

theorem Represents.holdsKey (represents : Represents mixedHash dense table)
    (present : key ∈ table) : dense.holdsKey (table.keys.idxOf key) key = true := by
  rw [holdsKey_iff, represents.values]
  exact List.getElem?_idxOf present

omit [DecidableEq κ] in
theorem Represents.absent (represents : Represents mixedHash dense table)
    (absent : key ∉ table) : key ∉ dense.values.map Prod.fst := by
  rw [represents.values]
  exact absent

theorem Represents.doFind (represents : Represents mixedHash dense table)
    (room : table.entries.length < sizeLimit) (key : κ) :
    dense.doFind mixedHash key =
      some (if key ∈ table then some (table.keys.idxOf key) else none) := by
  have few : dense.values.length ≤ sizeLimit := represents.values ▸ room.le
  split
  case isTrue present =>
    exact represents.wellFormed.doFind_present few (represents.holdsKey present)
  case isFalse absent =>
    exact represents.wellFormed.doFind_absent few (represents.absent absent)

/-- A new entry goes last. -/
theorem Represents.inserted (represents : Represents mixedHash dense table)
    (absent : key ∉ table) {value : ν} {after : DenseTable κ ν}
    (inserted : Inserted mixedHash dense (key, value) after) :
    Represents mixedHash after (table.insert key value) :=
  ⟨inserted.wellFormed, by
    rw [inserted.values, represents.values, Table.insert, dif_neg absent]⟩

theorem Represents.erased (represents : Represents mixedHash dense table)
    {after : DenseTable κ ν} (erased : Erased mixedHash dense key after) :
    Represents mixedHash after (table.erase key) :=
  ⟨erased.wellFormed, by rw [erased.values, represents.values, Table.erase]⟩

/-- Writing to a present entry overwrites its value in place. -/
theorem Represents.writeSecond (represents : Represents mixedHash dense table)
    [Inhabited ν] (present : key ∈ table) (change : ν → ν) :
    Represents mixedHash (dense.writeSecond (table.keys.idxOf key) change)
      (table.modify key change) := by
  refine ⟨represents.wellFormed.writeSecond _ _, ?_⟩
  have holds := represents.holdsKey present
  apply List.ext_getElem?
  intro i
  rw [Table.modify, Table.insert, dif_pos present]
  simp only [DenseTable.writeSecond, List.getElem?_modify, Table.overwrite, List.getElem?_map]
  rw [represents.values]
  cases found : table.entries[i]? with
  | none => rfl
  | some entry =>
      simp only [Option.map_eq_map, Option.map_some]
      have here (same : entry.1 = key) : table.keys.idxOf key = i := by
        apply holdsKey_unique represents.wellFormed.distinct holds
        rw [DenseTable.holdsKey, represents.values, found, Option.map_some, same]
        exact decide_eq_true rfl
      by_cases same : entry.1 = key
      · have stored : table.get? key = some entry.2 :=
          Table.get?_eq_some.mpr (same ▸ List.mem_of_getElem? found)
        rw [if_pos same, if_pos (here same), stored, Option.getD_some, same]
      · have elsewhere : table.keys.idxOf key ≠ i := by
          rintro rfl
          rw [DenseTable.holdsKey, represents.values, found, Option.map_some,
            decide_eq_true_iff, Option.some.injEq] at holds
          exact same holds
        rw [if_neg same, if_neg elsewhere]

/-- How far the ring may have grown for a table that held at most `peak` entries. -/
def Tight (dense : DenseTable κ ν) (peak : ℕ) : Prop :=
  dense.shifts = 62 ∨ bucketCapacity (2 ^ (63 - dense.shifts)) < peak

omit [DecidableEq κ] in
theorem Tight.mono {peak later : ℕ} (tight : dense.Tight peak) (le : peak ≤ later) :
    dense.Tight later :=
  tight.imp_right fun small => small.trans_le le

omit [DecidableEq κ] in
theorem Tight.of_shifts {peak : ℕ} {after : DenseTable κ ν} (tight : dense.Tight peak)
    (same : after.shifts = dense.shifts) : after.Tight peak := by
  unfold Tight
  rw [same]
  exact tight

omit [DecidableEq κ] in
/-- The ring grows only for an entry that is more than it may hold. -/
theorem Represents.tight_inserted (represents : Represents mixedHash dense table)
    {peak : ℕ} (tight : dense.Tight peak) {entry : κ × ν} {after : DenseTable κ ν}
    (inserted : Inserted mixedHash dense entry after) :
    after.Tight (max peak (dense.values.length + 1)) := by
  have layout := represents.wellFormed.layout
  have low := layout.shiftsLow
  rcases inserted.grown with same | ⟨full, grown⟩
  · exact (tight.of_shifts same).mono (le_max_left _ _)
  · right
    rw [grown, show 63 - (dense.shifts - 1) = 64 - dense.shifts by omega, ← layout.count,
      ← represents.wellFormed.capacity, ← full]
    exact lt_of_lt_of_le (Nat.lt_succ_self _) (le_max_right _ _)

omit [DecidableEq κ] in
/-- A write through a reference does not make the ring grow. -/
theorem Represents.tight_writeSecond (represents : Represents mixedHash dense table)
    {valueIdx peak : ℕ} {change : ν → ν} {written : Table κ ν}
    (writes : Represents mixedHash (dense.writeSecond valueIdx change) written)
    (tight : dense.Tight (max peak table.entries.length)) :
    (dense.writeSecond valueIdx change).Tight (max peak written.entries.length) := by
  have size : written.entries.length = table.entries.length := by
    rw [← writes.values, ← represents.values]
    exact List.length_modify ..
  rw [size]
  exact tight.of_shifts rfl

/-- What a call on the dense hash table leaves and answers. -/
structure Agrees (mixedHash : κ → BitVec 64) (peak : ℕ)
    (done : Option (DenseTable κ ν × TableAnswer)) (expected : Table κ ν × TableAnswer) : Prop where
  returns : ∃ after, done = some (after, expected.2) ∧ Represents mixedHash after expected.1 ∧
    after.Tight (max peak expected.1.entries.length)

theorem Represents.tryEmplace (represents : Represents mixedHash dense table)
    (room : table.entries.length < sizeLimit) {peak : ℕ} (tight : dense.Tight peak) (key : κ)
    (value : ν) :
    ∃ after, dense.doTryEmplace mixedHash key value = some (after,
        if key ∈ table then (table.keys.idxOf key, false) else (table.keys.length, true)) ∧
      Represents mixedHash after (if key ∈ table then table else table.insert key value) ∧
      after.Tight (max peak
        (if key ∈ table then table else table.insert key value).entries.length) := by
  have few : dense.values.length < sizeLimit := represents.values ▸ room
  by_cases present : key ∈ table
  · rw [if_pos present, if_pos present]
    exact ⟨dense, represents.wellFormed.doTryEmplace_present few.le
      (represents.holdsKey present) value, represents, tight.mono (le_max_left _ _)⟩
  · rcases represents.wellFormed.doTryEmplace_absent few (represents.absent present) value with
      ⟨after, ran, inserted⟩
    have after_represents := represents.inserted present inserted
    rw [if_neg present, if_neg present]
    refine ⟨after, ?_, after_represents, ?_⟩
    · rw [ran, represents.values, Table.length_keys]
    · have grown := represents.tight_inserted tight inserted
      rwa [← List.length_singleton (a := (key, value)), ← List.length_append, ← inserted.values,
        after_represents.values] at grown

theorem Represents.eraseKey (represents : Represents mixedHash dense table)
    (room : table.entries.length < sizeLimit) (key : κ) :
    ∃ after, dense.doEraseKey mixedHash key = some (after, if key ∈ table then 1 else 0) ∧
      Represents mixedHash after (table.erase key) ∧ after.shifts = dense.shifts := by
  have few : dense.values.length ≤ sizeLimit := represents.values ▸ room.le
  by_cases present : key ∈ table
  · rcases represents.wellFormed.doEraseKey_present few (represents.holdsKey present) with
      ⟨after, ran, erased⟩
    rw [if_pos present]
    exact ⟨after, ran, represents.erased erased, erased.shifts⟩
  · rw [if_neg present]
    refine ⟨dense, represents.wellFormed.doEraseKey_absent few (represents.absent present),
      ⟨represents.wellFormed, ?_⟩, rfl⟩
    rw [represents.values, Table.erase_eq_self present]

theorem Represents.eraseIterator (represents : Represents mixedHash dense table)
    (room : table.entries.length < sizeLimit) {valueIdx : ℕ}
    (below : valueIdx < table.entries.length) :
    ∃ after, dense.eraseIterator mixedHash valueIdx = some after ∧
      Represents mixedHash after (table.keys[valueIdx]?.elim table table.erase) ∧
      after.shifts = dense.shifts := by
  have few : dense.values.length ≤ sizeLimit := represents.values ▸ room.le
  have found : dense.values[valueIdx]? = some table.entries[valueIdx] := by
    rw [represents.values, List.getElem?_eq_getElem below]
  rcases represents.wellFormed.eraseIterator few found with ⟨after, ran, erased⟩
  refine ⟨after, ran, ?_, erased.shifts⟩
  have key : table.keys[valueIdx]? = some table.entries[valueIdx].1 := by
    rw [Table.keys, List.getElem?_map, List.getElem?_eq_getElem below, Option.map_some]
  rw [key, Option.elim_some]
  exact represents.erased erased

/-- Every admissible call agrees. -/
theorem Represents.call [Inhabited ν] (represents : Represents mixedHash dense table) {peak : ℕ}
    (tight : dense.Tight peak) {call : TableCall κ ν} (admissible : call.Admissible table) :
    Agrees mixedHash peak (dense.call mixedHash call) (call.onTable table) := by
  have room := admissible.1
  have grows := tight.mono (le_max_left peak table.entries.length)
  constructor
  cases call with
  | find key =>
      rw [DenseTable.call, represents.doFind room key]
      exact ⟨dense, rfl, represents, grows⟩
  | count key =>
      rw [DenseTable.call, DenseTable.count, represents.doFind room key]
      refine ⟨dense, ?_, represents, grows⟩
      by_cases present : key ∈ table <;> simp [TableCall.onTable, present]
  | tryEmplace key value =>
      rcases represents.tryEmplace room tight key value with ⟨after, ran, agrees⟩
      rw [DenseTable.call, ran]
      refine ⟨after, ?_, ?_⟩
      · by_cases present : key ∈ table <;> simp [TableCall.onTable, present]
      · by_cases present : key ∈ table <;> simpa [TableCall.onTable, present] using agrees
  | emplace key value =>
      rcases represents.tryEmplace room tight key value with ⟨after, ran, agrees⟩
      have few : dense.values.length < sizeLimit := represents.values ▸ room
      rw [DenseTable.call, represents.wellFormed.emplace_eq few, ran]
      refine ⟨after, ?_, ?_⟩
      · by_cases present : key ∈ table <;> simp [TableCall.onTable, present]
      · by_cases present : key ∈ table <;> simpa [TableCall.onTable, present] using agrees
  | subscript key change =>
      rcases represents.tryEmplace room tight key default with ⟨after, ran, agrees, tight⟩
      rw [DenseTable.call, DenseTable.subscript, ran]
      by_cases present : key ∈ table
      · simp only [if_pos present] at agrees tight ⊢
        have written := agrees.writeSecond present change
        exact ⟨_, rfl, written, agrees.tight_writeSecond written tight⟩
      · simp only [if_neg present] at agrees tight ⊢
        have listed : key ∈ table.insert key default := Table.mem_insert.mpr (Or.inl rfl)
        have written := agrees.writeSecond listed change
        rw [Table.modify, Table.get?_insert_self, Option.getD_some,
          Table.insert_insert_of_absent _ _ present, Table.keys_insert_of_absent _ present,
          List.idxOf_append_of_notMem present, List.idxOf_cons_self, Nat.add_zero] at written
        refine ⟨after.writeSecond table.keys.length change, rfl, ?_⟩
        rw [TableCall.onTable, Table.modify, Table.get?_eq_none.mpr present, Option.getD_none]
        exact ⟨written, agrees.tight_writeSecond written tight⟩
  | eraseKey key =>
      rcases represents.eraseKey room key with ⟨after, ran, agrees, shifts⟩
      rw [DenseTable.call, ran]
      exact ⟨after, rfl, agrees, (tight.of_shifts shifts).mono (le_max_left _ _)⟩
  | eraseIterator valueIdx =>
      rcases represents.eraseIterator room admissible.2 with ⟨after, ran, agrees, shifts⟩
      rw [DenseTable.call, ran]
      exact ⟨after, rfl, agrees, (tight.of_shifts shifts).mono (le_max_left _ _)⟩
  | clear =>
      have cleared := represents.wellFormed.clear
      exact ⟨dense.clear, rfl, ⟨cleared.1, rfl⟩,
        (tight.of_shifts cleared.2).mono (le_max_left _ _)⟩
  | copy =>
      rcases represents.wellFormed.copy with ⟨wellFormed, values, shifts⟩
      refine ⟨dense.copy, rfl, ⟨wellFormed, values.trans represents.values⟩, ?_⟩
      rcases shifts with fresh | same
      · exact Or.inl fresh
      · exact (tight.of_shifts same).mono (le_max_left _ _)

omit [DecidableEq κ] in
theorem exists_tight (dense : DenseTable κ ν) : ∃ peak, dense.Tight peak :=
  ⟨_, Or.inr (Nat.lt_succ_self _)⟩

theorem Represents.emplace [Inhabited ν] (represents : Represents mixedHash dense table)
    (room : table.entries.length < sizeLimit) (absent : key ∉ table) (value : ν) :
    ∃ placed, dense.emplace mixedHash key value = some placed ∧
      Represents mixedHash placed.1 (table.insert key value) := by
  rcases exists_tight dense with ⟨peak, tight⟩
  have agrees := represents.call tight
    (show (TableCall.emplace key value).Admissible table from ⟨room, trivial⟩)
  rcases agrees.returns with ⟨after, ran, agrees, -⟩
  rcases Option.map_eq_some_iff.mp ran with ⟨placed, ran, same⟩
  refine ⟨placed, ran, ?_⟩
  rw [TableCall.onTable, if_neg absent, Prod.mk.injEq] at same
  rw [TableCall.onTable, if_neg absent] at agrees
  rw [same.1]
  exact agrees

theorem Represents.subscript [Inhabited ν] (represents : Represents mixedHash dense table)
    (room : table.entries.length < sizeLimit) (key : κ) (change : ν → ν) :
    ∃ after, dense.subscript mixedHash key change = some after ∧
      Represents mixedHash after (table.modify key change) := by
  rcases exists_tight dense with ⟨peak, tight⟩
  have agrees := represents.call tight
    (show (TableCall.subscript key change).Admissible table from ⟨room, trivial⟩)
  rcases agrees.returns with ⟨after, ran, agrees, -⟩
  rcases Option.map_eq_some_iff.mp ran with ⟨written, wrote, same⟩
  obtain rfl : written = after := (Prod.mk.inj same).1
  exact ⟨written, wrote, agrees⟩

/-- A run of admissible calls agrees with the same run on the table. -/
theorem Represents.callAll [Inhabited ν] (represents : Represents mixedHash dense table)
    (peak : ℕ) (tight : dense.Tight peak) {calls : List (TableCall κ ν)}
    (admissible : TableCall.AllAdmissible calls table) :
    ∃ after, DenseTable.callAll mixedHash calls dense =
        some (after, (TableCall.allOnTable calls table).2) ∧
      Represents mixedHash after (TableCall.allOnTable calls table).1 ∧
      after.Tight (max peak (TableCall.peak calls table)) := by
  induction calls generalizing dense table peak with
  | nil => exact ⟨dense, rfl, represents, tight.mono (le_max_left _ _)⟩
  | cons call rest ih =>
      rcases (represents.call tight admissible.1).returns with ⟨next, ran, agrees, nextTight⟩
      rcases ih agrees _ nextTight admissible.2 with ⟨after, restRan, restAgrees, restTight⟩
      refine ⟨after, ?_, restAgrees, ?_⟩
      · rw [DenseTable.callAll, ran, Option.bind_some, restRan, Option.map_some]
        rfl
      · apply restTight.mono
        rw [TableCall.peak]
        have later : (call.onTable table).1.entries.length ≤
            TableCall.peak rest (call.onTable table).1 := by
          cases rest with
          | nil => exact Nat.le_refl _
          | cons other rest => exact le_max_left _ _
        omega

/-- No call adds more than one entry. -/
theorem length_onTable_le [Inhabited ν] (call : TableCall κ ν) (table : Table κ ν) :
    (call.onTable table).1.entries.length ≤ table.entries.length + 1 := by
  have insert_le (key : κ) (value : ν) :
      (table.insert key value).entries.length ≤ table.entries.length + 1 := by
    rw [Table.insert]
    split
    · simp only [Table.overwrite, List.length_map]
      exact Nat.le_succ _
    · rw [List.length_append, List.length_singleton]
  cases call with
  | find key => exact Nat.le_succ _
  | count key => exact Nat.le_succ _
  | tryEmplace key value | emplace key value =>
      simp only [TableCall.onTable]
      split
      · exact Nat.le_succ _
      · exact insert_le key value
  | subscript key change => exact insert_le key _
  | eraseKey key => exact (table.length_erase_le key).trans (Nat.le_succ _)
  | eraseIterator valueIdx =>
      simp only [TableCall.onTable]
      cases table.keys[valueIdx]? with
      | none => exact Nat.le_succ _
      | some key => exact (table.length_erase_le key).trans (Nat.le_succ _)
  | clear => exact Nat.zero_le _
  | copy => exact Nat.le_succ _

theorem length_allOnTable_le [Inhabited ν] {calls : List (TableCall κ ν)} {table : Table κ ν}
    (few : table.entries.length ≤ sizeLimit) (admissible : TableCall.AllAdmissible calls table) :
    (TableCall.allOnTable calls table).1.entries.length ≤ sizeLimit := by
  induction calls generalizing table with
  | nil => exact few
  | cons call rest ih =>
      exact ih ((length_onTable_le call table).trans admissible.1.1) admissible.2

/-- The tables that admissible calls make out of an empty one. -/
def Reachable [Inhabited ν] (mixedHash : κ → BitVec 64) (dense : DenseTable κ ν) : Prop :=
  ∃ calls : List (TableCall κ ν), TableCall.AllAdmissible calls ∅ ∧
    ∃ answers, DenseTable.callAll mixedHash calls create = some (dense, answers)

theorem Reachable.wellFormed [Inhabited ν] (reachable : dense.Reachable mixedHash) :
    dense.WellFormed mixedHash ∧ dense.values.length ≤ sizeLimit := by
  rcases reachable with ⟨calls, admissible, answers, ran⟩
  rcases (represents_create mixedHash).callAll 0
    (Or.inl (by rw [create_eq])) admissible with ⟨after, afterRan, agrees, -⟩
  obtain ⟨rfl, -⟩ : after = dense ∧ _ = answers := by
    rw [ran, Option.some.injEq, Prod.mk.injEq] at afterRan
    exact ⟨afterRan.1.symm, afterRan.2.symm⟩
  refine ⟨agrees.wellFormed, ?_⟩
  rw [agrees.values]
  exact length_allOnTable_le (Nat.zero_le _) admissible

/-- Any run of calls answers like a table in storage order and leaves its entries in the same
order, whatever the hash. -/
theorem callAll_refines [Inhabited ν] (mixedHash : κ → BitVec 64) (calls : List (TableCall κ ν))
    (admissible : TableCall.AllAdmissible calls ∅) :
    ∃ dense, DenseTable.callAll mixedHash calls create =
        some (dense, (TableCall.allOnTable calls ∅).2) ∧
      dense.values = (TableCall.allOnTable calls ∅).1.entries := by
  rcases (represents_create mixedHash).callAll 0
    (Or.inl (by rw [create_eq])) admissible with ⟨dense, ran, agrees, -⟩
  exact ⟨dense, ran, agrees.values⟩

/-- Four uuids make the ring grow, one of them is erased and looked up again. -/
theorem callAll_refines_grown :
    ∃ dense, DenseTable.callAll Uuid.mixedHash
        [.tryEmplace 1 10, .emplace 2 20, .subscript 3 (· + 30), .emplace 4 40, .eraseKey 2,
          .find 4, .find 2] create =
        some (dense, (TableCall.allOnTable
          [.tryEmplace 1 10, .emplace 2 20, .subscript 3 (· + 30), .emplace 4 40, .eraseKey 2,
            .find 4, .find 2] (∅ : Table Uuid ℕ)).2) ∧
      dense.values = (TableCall.allOnTable
        [.tryEmplace 1 10, .emplace 2 20, .subscript 3 (· + 30), .emplace 4 40, .eraseKey 2,
          .find 4, .find 2] (∅ : Table Uuid ℕ)).1.entries :=
  callAll_refines Uuid.mixedHash _ (by decide +kernel)

end DenseTable

end GodotStream
