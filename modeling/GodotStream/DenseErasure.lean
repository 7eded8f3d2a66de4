import GodotStream.DenseLookup

/-!
# Erasing from the dense hash table

Erasing frees a bucket and pulls the ones behind it back. The last entry of the array
moves into the freed slot, and the one bucket that named it is found again by its
index alone, before any stale or empty bucket with the same number. Erasing by key and
by iterator leaves the same entries, in the same order.
-/

namespace GodotStream

open Ring RobinHood Storage

universe u v

namespace DenseTable

variable {κ : Type u} {ν : Type v} [DecidableEq κ] {mixedHash : κ → BitVec 64}
  {table : DenseTable κ ν} {stored : Finset ℕ} {key : κ}

omit [DecidableEq κ] in
theorem next_iterate (table : DenseTable κ ν) (offset steps : ℕ) :
    (next table.buckets.length)^[steps] offset = ahead table.buckets.length offset steps := by
  induction steps with
  | zero => rfl
  | succ steps ih => rw [Function.iterate_succ_apply', ih, ahead_succ]

omit [DecidableEq κ] in
/-- The bucket of a stored index is found from its home on. -/
theorem Layout.seekValueIdx_spec (layout : table.Layout mixedHash stored) (valueIdx : ℕ)
    {hash : BitVec 64} (listed : valueIdx ∈ stored)
    (sameHash : table.hashAt mixedHash valueIdx = hash) :
    ∃ offset < table.buckets.length,
      table.seekValueIdx valueIdx (table.bucketIdxFromHash hash) = some offset ∧
      (bucketAt table.buckets offset).distAndFingerprint ≠ 0 ∧
      (bucketAt table.buckets offset).valueIdx = valueIdx := by
  rcases layout.exists_met listed sameHash with ⟨steps, near, here, before⟩
  have there : bucketAt table.buckets (ahead table.buckets.length
      (table.bucketIdxFromHash hash) steps) =
      ⟨weigh 256 (fingerprint hash) steps, valueIdx⟩ := here
  have least := unit_le_weigh 256 (fingerprint hash) steps
  refine ⟨_, ahead_lt (layout.homeLt hash) steps, ?_, ?_, ?_⟩
  · rw [seekValueIdx, bucketCount, Loop.run_whileBody (near.trans layout.spare), next_iterate]
    · intro turn earlier
      rw [next_iterate, bne_iff_ne]
      exact (before turn earlier).2
    · rw [next_iterate, there]
      simp
  · rw [there]
    simp only
    omega
  · rw [there]

/-- How an erasure changes a table. -/
structure Erased (mixedHash : κ → BitVec 64) (before : DenseTable κ ν) (key : κ)
    (after : DenseTable κ ν) : Prop where
  wellFormed : after.WellFormed mixedHash
  values : after.values = Table.swapErase key before.values
  shifts : after.shifts = before.shifts

/-- A bucket was freed, and the array still holds its entry. -/
structure Freed (mixedHash : κ → BitVec 64) (table : DenseTable κ ν) (valueIdx : ℕ) : Prop where
  distinct : (table.values.map Prod.fst).Nodup
  capacity : table.maxBucketCapacity = bucketCapacity table.buckets.length
  roomy : table.values.length ≤ table.maxBucketCapacity
  layout : table.Layout mixedHash ((Finset.range table.values.length).erase valueIdx)

variable {valueIdx : ℕ} {entry back : κ × ν}

theorem Freed.distinct_erased (freed : table.Freed mixedHash valueIdx) (key : κ) :
    ((Table.swapErase key table.values).map Prod.fst).Nodup :=
  (Table.erase ⟨table.values, freed.distinct⟩ key).distinct

/-- The last entry itself was erased. -/
theorem Freed.dropLast (freed : table.Freed mixedHash valueIdx)
    (found : table.values[valueIdx]? = some entry)
    (isLast : valueIdx = table.values.length - 1) :
    Erased mixedHash table entry.1 { table with values := table.values.dropLast } := by
  have below := (List.getElem?_eq_some_iff.mp found).1
  have last : table.values.getLast? = some entry := by
    rw [List.getLast?_eq_getElem?, ← isLast, found]
  have erased := Table.swapErase_eq_set freed.distinct found last
  rw [if_pos isLast] at erased
  have layout := freed.layout
  have rest : (Finset.range table.values.length).erase valueIdx =
      Finset.range table.values.dropLast.length := by
    ext other
    simp only [Finset.mem_erase, Finset.mem_range, List.length_dropLast]
    omega
  rw [rest] at layout
  refine ⟨⟨?_, freed.capacity, ?_, ?_⟩, erased.symm, rfl⟩
  · exact erased ▸ freed.distinct_erased entry.1
  · have roomy := freed.roomy
    simp only [List.length_dropLast]
    omega
  · exact {
      shiftsLow := layout.shiftsLow
      shiftsHigh := layout.shiftsHigh
      count := layout.count
      valid := layout.valid.congr fun other listed => by
        simp only [Finset.mem_range, List.length_dropLast] at listed
        have same : hashAt mixedHash { table with values := table.values.dropLast } other =
            table.hashAt mixedHash other := by
          simp only [hashAt, List.getElem?_dropLast, if_pos listed]
        rw [homeAt, same]
        exact ⟨rfl, rfl⟩
      spare := layout.spare }

/-- The last entry moved to an index, and the bucket at an offset names that index. -/
def refilled (table : DenseTable κ ν) (valueIdx : ℕ) (back : κ × ν) (offset : ℕ) :
    DenseTable κ ν :=
  { table with
    values := (table.values.set valueIdx back).dropLast
    buckets := table.buckets.set offset
      { bucketAt table.buckets offset with valueIdx := valueIdx } }

omit [DecidableEq κ] in
theorem length_refilled (table : DenseTable κ ν) (valueIdx : ℕ) (back : κ × ν) (offset : ℕ) :
    (table.refilled valueIdx back offset).values.length = table.values.length - 1 := by
  simp only [refilled, List.length_dropLast, List.length_set]

omit [DecidableEq κ] in
theorem hashAt_refilled (valueLt : valueIdx < table.values.length) (offset : ℕ) {other : ℕ}
    (otherLt : other < table.values.length - 1) :
    (table.refilled valueIdx back offset).hashAt mixedHash other =
      if other = valueIdx then mixedHash back.1 else table.hashAt mixedHash other := by
  simp only [hashAt, refilled, List.getElem?_dropLast, List.length_set, if_pos otherLt,
    List.getElem?_set, if_pos valueLt]
  by_cases same : other = valueIdx
  · rw [if_pos same.symm, if_pos same]
    rfl
  · rw [if_neg (Ne.symm same), if_neg same]

omit [DecidableEq κ] in
/-- The bucket of the last entry gets the new index. -/
theorem Freed.layout_refilled (freed : table.Freed mixedHash valueIdx)
    (valueLt : valueIdx < table.values.length) (last : table.values.getLast? = some back)
    (inside : valueIdx ≠ table.values.length - 1) {offset : ℕ}
    (below : offset < table.buckets.length)
    (occupied : (bucketAt table.buckets offset).distAndFingerprint ≠ 0)
    (names : (bucketAt table.buckets offset).valueIdx = table.values.length - 1) :
    (table.refilled valueIdx back offset).Layout mixedHash
      (Finset.range (table.values.length - 1)) := by
  have layout := freed.layout
  rw [List.getLast?_eq_getElem?] at last
  have hashAt_back : table.hashAt mixedHash (table.values.length - 1) = mixedHash back.1 :=
    hashAt_of_getElem? last
  have item : (slots table.buckets offset).item = table.values.length - 1 := names
  have rest : insert valueIdx (((Finset.range table.values.length).erase valueIdx).erase
      (slots table.buckets offset).item) = Finset.range (table.values.length - 1) := by
    rw [item]
    ext other
    simp only [Finset.mem_insert, Finset.mem_erase, Finset.mem_range]
    omega
  have moved : (table.refilled valueIdx back offset).hashAt mixedHash valueIdx =
      table.hashAt mixedHash (slots table.buckets offset).item := by
    rw [hashAt_refilled valueLt offset (by omega), if_pos rfl, item, hashAt_back]
  have relabelled := layout.valid.relabelled valueIdx
    ((table.refilled valueIdx back offset).homeAt mixedHash)
    (fun other => fingerprint ((table.refilled valueIdx back offset).hashAt mixedHash other))
    (slots (table.refilled valueIdx back offset).buckets)
    below occupied (by simp)
    (by rw [homeAt, moved]; rfl) (by simp only [moved])
    (by
      intro other listed
      rw [item] at listed
      simp only [Finset.mem_erase, Finset.mem_range] at listed
      have kept : (table.refilled valueIdx back offset).hashAt mixedHash other =
          table.hashAt mixedHash other := by
        rw [hashAt_refilled valueLt offset (by omega), if_neg listed.2.1]
      rw [homeAt, kept]
      exact ⟨rfl, rfl⟩)
    (by
      rw [slots, refilled, bucketAt_set_self below]
      rfl)
    (by
      intro p _ elsewhere
      rw [slots, refilled, bucketAt_set_of_ne elsewhere]
      rfl)
  rw [rest] at relabelled
  have count : (table.refilled valueIdx back offset).buckets.length = table.buckets.length :=
    List.length_set ..
  exact {
    shiftsLow := layout.shiftsLow
    shiftsHigh := layout.shiftsHigh
    count := count.trans layout.count
    valid := by
      rw [count]
      exact relabelled
    spare := by
      have spare := layout.spare
      rw [Finset.card_erase_of_mem (Finset.mem_range.mpr valueLt), Finset.card_range] at spare
      rw [count, Finset.card_range]
      exact spare }

/-- The last entry moves into the slot. -/
theorem Freed.refilled (freed : table.Freed mixedHash valueIdx)
    (found : table.values[valueIdx]? = some entry)
    (last : table.values.getLast? = some back)
    (inside : valueIdx ≠ table.values.length - 1) {offset : ℕ}
    (below : offset < table.buckets.length)
    (occupied : (bucketAt table.buckets offset).distAndFingerprint ≠ 0)
    (names : (bucketAt table.buckets offset).valueIdx = table.values.length - 1) :
    Erased mixedHash table entry.1 (table.refilled valueIdx back offset) := by
  have valueLt := (List.getElem?_eq_some_iff.mp found).1
  have erased := Table.swapErase_eq_set freed.distinct found last
  rw [if_neg inside] at erased
  refine ⟨⟨?_, ?_, ?_, ?_⟩, erased.symm, rfl⟩
  · rw [DenseTable.refilled, ← erased]
    exact freed.distinct_erased entry.1
  · simp only [DenseTable.refilled, List.length_set]
    exact freed.capacity
  · have roomy := freed.roomy
    rw [length_refilled]
    simp only [DenseTable.refilled]
    omega
  · rw [length_refilled]
    exact freed.layout_refilled valueLt last inside below occupied names

theorem Freed.moveLast (freed : table.Freed mixedHash valueIdx)
    (found : table.values[valueIdx]? = some entry) :
    ∃ after, table.moveLast mixedHash valueIdx = some after ∧
      Erased mixedHash table entry.1 after := by
  have valueLt := (List.getElem?_eq_some_iff.mp found).1
  rw [DenseTable.moveLast]
  by_cases isLast : valueIdx = table.values.length - 1
  · rw [if_pos isLast]
    exact ⟨_, rfl, freed.dropLast found isLast⟩
  · rw [if_neg isLast]
    obtain ⟨back, last⟩ : ∃ back, table.values.getLast? = some back := by
      rw [List.getLast?_eq_getElem?]
      exact ⟨_, List.getElem?_eq_getElem (by omega)⟩
    have lastAt := last
    rw [List.getLast?_eq_getElem?] at lastAt
    rcases freed.layout.seekValueIdx_spec (table.values.length - 1)
      (Finset.mem_erase.mpr ⟨Ne.symm isLast, Finset.mem_range.mpr (by omega)⟩)
      (hashAt_of_getElem? lastAt) with ⟨offset, below, sought, occupied, names⟩
    refine ⟨table.refilled valueIdx back offset, ?_,
      freed.refilled found last isLast below occupied names⟩
    rw [last, Option.bind_some, sought, Option.map_some]
    rfl

omit [DecidableEq κ] in
/-- `erase_and_shift_down` on the bucket of an entry. -/
theorem WellFormed.freed (wellFormed : table.WellFormed mixedHash)
    (few : table.values.length ≤ sizeLimit) {offset : ℕ} (below : offset < table.buckets.length)
    (occupied : (bucketAt table.buckets offset).distAndFingerprint ≠ 0) :
    ∃ buckets : List Bucket, table.eraseAndShiftDown offset =
        some { table with buckets := buckets } ∧
      Freed mixedHash { table with buckets := buckets }
        (bucketAt table.buckets offset).valueIdx := by
  have layout := wellFormed.layout
  have fewStored : (Finset.range table.values.length).card ≤ sizeLimit := by
    rwa [Finset.card_range]
  have listed := (layout.valid.placed offset below occupied).1
  rcases layout.valid.exists_tail layout.spare below occupied with ⟨length, -, tail⟩
  rcases eraseAndShiftDown_spec table below tail (fun i _ => by
    have light := layout.weight_lt fewStored (ahead_lt below (i + 1))
    rw [bucketCount]
    omega) with ⟨buckets, ran, count, lowered⟩
  have count' : buckets.length = table.buckets.length := count
  have erased := layout.valid.erased below occupied tail lowered
  refine ⟨buckets, ran, wellFormed.distinct, ?_, wellFormed.roomy, ?_⟩
  · simp only [count']
    exact wellFormed.capacity
  · exact {
      shiftsLow := layout.shiftsLow
      shiftsHigh := layout.shiftsHigh
      count := count'.trans layout.count
      valid := by
        rw [count']
        exact erased
      spare := by
        rw [count']
        exact lt_of_le_of_lt (Finset.card_erase_le) layout.spare }

/-- `do_erase` on the bucket of an entry. -/
theorem WellFormed.doErase (wellFormed : table.WellFormed mixedHash)
    (few : table.values.length ≤ sizeLimit) {offset : ℕ} (below : offset < table.buckets.length)
    (occupied : (bucketAt table.buckets offset).distAndFingerprint ≠ 0)
    (found : table.values[(bucketAt table.buckets offset).valueIdx]? = some entry) :
    ∃ after, table.doErase mixedHash offset = some after ∧
      Erased mixedHash table entry.1 after := by
  rcases wellFormed.freed few below occupied with ⟨buckets, ran, freed⟩
  rcases freed.moveLast found with ⟨after, moved, erased⟩
  refine ⟨after, ?_, erased.wellFormed, erased.values, erased.shifts⟩
  rw [DenseTable.doErase, ran, Option.bind_some, moved]

omit [DecidableEq κ] in
/-- `erase(iterator)` comes to the bucket of the entry. -/
theorem WellFormed.eraseIterator_bucket (wellFormed : table.WellFormed mixedHash)
    (found : table.values[valueIdx]? = some entry) :
    ∃ offset < table.buckets.length,
      (bucketAt table.buckets offset).distAndFingerprint ≠ 0 ∧
      (bucketAt table.buckets offset).valueIdx = valueIdx ∧
      table.eraseIterator mixedHash valueIdx = table.doErase mixedHash offset := by
  have valueLt := (List.getElem?_eq_some_iff.mp found).1
  rcases wellFormed.layout.seekValueIdx_spec _ (Finset.mem_range.mpr valueLt)
    (hashAt_of_getElem? found) with ⟨offset, below, sought, occupied, names⟩
  refine ⟨offset, below, occupied, names, ?_⟩
  rw [DenseTable.eraseIterator, found, Option.bind_some, sought, Option.bind_some]

/-- `erase(iterator)` erases the entry that the iterator points to. -/
theorem WellFormed.eraseIterator (wellFormed : table.WellFormed mixedHash)
    (few : table.values.length ≤ sizeLimit) (found : table.values[valueIdx]? = some entry) :
    ∃ after, table.eraseIterator mixedHash valueIdx = some after ∧
      Erased mixedHash table entry.1 after := by
  rcases wellFormed.eraseIterator_bucket found with ⟨offset, below, occupied, names, same⟩
  rw [same]
  exact wellFormed.doErase few below occupied (by rw [names]; exact found)

/-- The loop past the buckets of other keys, as far as the weights stay equal. -/
theorem passOthers_spec (key : κ) (hash : BitVec 64) (start turns : ℕ)
    (within : turns < table.buckets.length) (near : start + turns + 1 < 2 ^ 24)
    (passed : ∀ turn < turns,
      weigh 256 (fingerprint hash) (start + turn) =
        (table.met hash (start + turn)).distAndFingerprint ∧
      ¬ table.holdsKey (table.met hash (start + turn)).valueIdx key = true)
    (stops : ¬ (weigh 256 (fingerprint hash) (start + turns) =
        (table.met hash (start + turns)).distAndFingerprint ∧
      ¬ table.holdsKey (table.met hash (start + turns)).valueIdx key = true)) :
    table.passOthers key (table.probeAt hash start) =
      some (table.probeAt hash (start + turns)) := by
  have iterate : ∀ turn ≤ turns, table.advance^[turn] (table.probeAt hash start) =
      table.probeAt hash (start + turn) := by
    intro turn
    induction turn with
    | zero => exact fun _ => rfl
    | succ turn ih =>
        intro inside
        rw [Function.iterate_succ_apply', ih (by omega), advance_probeAt table (by omega),
          Nat.add_assoc]
  rw [passOthers, bucketCount, Loop.run_whileBody within]
  · rw [iterate turns (Nat.le_refl turns)]
  · intro turn earlier
    rw [iterate turn earlier.le]
    exact decide_eq_true (passed turn earlier)
  · rw [iterate turns (Nat.le_refl turns)]
    exact decide_eq_false stops

/-- `do_erase_key` comes to the bucket of a present key. -/
theorem WellFormed.doEraseKey_bucket (wellFormed : table.WellFormed mixedHash)
    (few : table.values.length ≤ sizeLimit) (holds : table.holdsKey valueIdx key = true) :
    ∃ offset < table.buckets.length,
      (bucketAt table.buckets offset).distAndFingerprint ≠ 0 ∧
      (bucketAt table.buckets offset).valueIdx = valueIdx ∧
      table.doEraseKey mixedHash key =
        (table.doErase mixedHash offset).map fun erased => (erased, 1) := by
  have layout := wellFormed.layout
  have valueLt := lt_of_holdsKey holds
  have fewStored : (Finset.range table.values.length).card ≤ sizeLimit := by
    rwa [Finset.card_range]
  have nonempty : table.values.isEmpty = false := by
    rw [List.isEmpty_eq_false_iff_exists_mem]
    exact ⟨_, List.getElem_mem valueLt⟩
  rcases layout.exists_met (Finset.mem_range.mpr valueLt) (hashAt_of_holdsKey holds) with
    ⟨steps, near, here, before⟩
  rcases layout.nextWhileLess_spec fewStored key with ⟨start, -, heavier, light, searched⟩
  obtain ⟨turns, rfl⟩ : ∃ turns, steps = start + turns := by
    refine ⟨steps - start, ?_⟩
    by_contra short
    have strict := heavier steps (by omega)
    rw [here] at strict
    exact Nat.lt_irrefl _ strict
  rw [Finset.card_range] at near
  have spare := layout.spare
  rw [Finset.card_range] at spare
  unfold sizeLimit at few
  -- From the place where the first loop stops the weights equal the probe up to the key.
  have equal : ∀ turn ≤ turns, weigh 256 (fingerprint (mixedHash key)) (start + turn) =
      (table.met (mixedHash key) (start + turn)).distAndFingerprint := by
    have atLeast (turn : ℕ) (inside : turn ≤ turns) :
        weigh 256 (fingerprint (mixedHash key)) (start + turn) ≤
          (table.met (mixedHash key) (start + turn)).distAndFingerprint := by
      rcases Nat.lt_or_ge turn turns with earlier | last
      · exact (before (start + turn) (by omega)).1
      · obtain rfl : turn = turns := by omega
        rw [here]
    intro turn
    induction turn with
    | zero => exact fun inside => le_antisymm (atLeast 0 inside) light
    | succ turn ih =>
        intro inside
        exact le_antisymm (atLeast (turn + 1) inside) (layout.met_succ_le (ih (by omega)))
  have passed := passOthers_spec key (mixedHash key) start turns
    (by omega) (by omega)
    (fun turn earlier => ⟨equal turn earlier.le, fun otherHolds =>
      (before (start + turn) (by omega)).2
        (holdsKey_unique wellFormed.distinct otherHolds holds)⟩)
    (fun both => both.2 (by rw [here]; exact holds))
  have there : bucketAt table.buckets (ahead table.buckets.length
      (table.bucketIdxFromHash (mixedHash key)) (start + turns)) =
      ⟨weigh 256 (fingerprint (mixedHash key)) (start + turns), valueIdx⟩ := here
  have least := unit_le_weigh 256 (fingerprint (mixedHash key)) (start + turns)
  have same : (table.probeAt (mixedHash key) (start + turns)).distAndFingerprint =
      (table.bucketOf (table.probeAt (mixedHash key) (start + turns))).distAndFingerprint :=
    equal turns (Nat.le_refl turns)
  refine ⟨_, ahead_lt (layout.homeLt (mixedHash key)) (start + turns), ?_, ?_, ?_⟩
  · rw [there]
    simp only
    omega
  · rw [there]
  · rw [doEraseKey, nonempty, if_neg Bool.false_ne_true, searched, Option.bind_some, passed,
      Option.bind_some, if_neg (not_not_intro same)]
    rfl

/-- `do_erase_key` on a present key. -/
theorem WellFormed.doEraseKey_present (wellFormed : table.WellFormed mixedHash)
    (few : table.values.length ≤ sizeLimit) (holds : table.holdsKey valueIdx key = true) :
    ∃ after, table.doEraseKey mixedHash key = some (after, 1) ∧
      Erased mixedHash table key after := by
  rcases wellFormed.doEraseKey_bucket few holds with ⟨offset, below, occupied, names, same⟩
  have atIndex := holds
  rw [holdsKey, decide_eq_true_iff, Option.map_eq_some_iff] at atIndex
  rcases atIndex with ⟨entry, found, rfl⟩
  rcases wellFormed.doErase few below occupied (by rw [names]; exact found) with
    ⟨after, ran, erased⟩
  exact ⟨after, by rw [same, ran, Option.map_some], erased⟩

/-- `do_erase_key` on a key that is not stored. -/
theorem WellFormed.doEraseKey_absent (wellFormed : table.WellFormed mixedHash)
    (few : table.values.length ≤ sizeLimit) (absent : key ∉ table.values.map Prod.fst) :
    table.doEraseKey mixedHash key = some (table, 0) := by
  have layout := wellFormed.layout
  have fewStored : (Finset.range table.values.length).card ≤ sizeLimit := by
    rwa [Finset.card_range]
  have nowhere (steps : ℕ) : ¬ table.holdsKey
      (table.met (mixedHash key) steps).valueIdx key = true :=
    fun holds => absent (exists_holdsKey_iff.mp ⟨_, holds⟩)
  rw [doEraseKey]
  split
  case isTrue empty => rfl
  case isFalse nonempty =>
    rcases layout.nextWhileLess_spec fewStored key with ⟨start, -, heavier, light, searched⟩
    rcases layout.exists_lighter (mixedHash key) with ⟨bound, near, lighter, -⟩
    have reached : start ≤ bound := by
      by_contra short
      have strict := heavier bound (by omega)
      omega
    have differs : ∃ turns, weigh 256 (fingerprint (mixedHash key)) (start + turns) ≠
        (table.met (mixedHash key) (start + turns)).distAndFingerprint :=
      ⟨bound - start, by rw [Nat.add_sub_cancel' reached]; exact lighter.ne'⟩
    have inside : Nat.find differs ≤ bound - start :=
      Nat.find_min' differs (by rw [Nat.add_sub_cancel' reached]; exact lighter.ne')
    have spare := layout.spare
    rw [Finset.card_range] at near spare
    unfold sizeLimit at few
    have passed := passOthers_spec key (mixedHash key) start
      (Nat.find differs) (by omega) (by omega)
      (fun turn earlier => ⟨not_not.mp (Nat.find_min differs earlier), nowhere _⟩)
      (fun both => Nat.find_spec differs both.1)
    have other : (table.probeAt (mixedHash key) (start + Nat.find differs)).distAndFingerprint ≠
        (table.bucketOf (table.probeAt (mixedHash key)
          (start + Nat.find differs))).distAndFingerprint :=
      Nat.find_spec differs
    rw [searched, Option.bind_some, passed, Option.bind_some, if_pos other]

end DenseTable

end GodotStream
