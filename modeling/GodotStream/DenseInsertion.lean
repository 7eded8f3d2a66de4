import GodotStream.DenseProbes

/-!
# Inserting into the dense hash table

`do_try_emplace` and `emplace` search for the key in two ways that take the same
turns. A new entry is appended to the array and gets a bucket in front of the lighter
ones, or all buckets are built anew on a ring of twice the size. Both leave a
well-formed table.
-/

namespace GodotStream

open Ring RobinHood

universe u v

namespace DenseTable

variable {κ : Type u} {ν : Type v} {mixedHash : κ → BitVec 64} {table : DenseTable κ ν}
  {stored : Finset ℕ}

/-- The weights of a layout with few entries can still grow by a unit. -/
theorem Layout.weight_lt (layout : table.Layout mixedHash stored)
    (few : stored.card ≤ sizeLimit) {offset : ℕ} (below : offset < table.buckets.length) :
    (slots table.buckets offset).weight + 256 < 2 ^ 32 := by
  by_cases empty : (slots table.buckets offset).weight = 0
  · omega
  · rcases layout.valid.placed offset below empty with ⟨-, steps, weight, reached⟩
    have near := layout.valid.steps_lt layout.spare (layout.homeLt _)
      (by rw [← homeAt, reached]; exact weight.ge)
    have light := weigh_lt (table.hashAt mixedHash (slots table.buckets offset).item)
      (show steps + 1 + 1 < 2 ^ 24 by unfold sizeLimit at few; omega)
    rw [weigh_succ] at light
    omega

/-- A new index is placed where a search for its hash may stop. -/
theorem Layout.placed (layout : table.Layout mixedHash stored) (few : stored.card ≤ sizeLimit)
    (spare : stored.card + 1 < table.buckets.length) (valueIdx steps : ℕ) (hash : BitVec 64)
    (fresh : valueIdx ∉ stored) (sameHash : table.hashAt mixedHash valueIdx = hash)
    (before : ∀ j < steps, weigh 256 (fingerprint hash) j ≤ (table.met hash j).distAndFingerprint)
    (here : (table.met hash steps).distAndFingerprint ≤ weigh 256 (fingerprint hash) steps) :
    ∃ after : List Bucket,
      table.placeAndShiftUp ⟨weigh 256 (fingerprint hash) steps, valueIdx⟩
        (table.probeAt hash steps).bucketIdx = some { table with buckets := after } ∧
      Layout mixedHash (insert valueIdx stored) { table with buckets := after } := by
  have homeLt := layout.homeLt hash
  have placeLt := ahead_lt homeLt steps
  rcases layout.valid.exists_stretch layout.spare placeLt with ⟨length, -, stretch⟩
  rcases placeAndShiftUp_spec table ⟨weigh 256 (fingerprint hash) steps, valueIdx⟩
    placeLt stretch (fun i _ => layout.weight_lt few (ahead_lt placeLt i)) with
    ⟨after, ran, count, raised⟩
  have sameHome : table.homeAt mixedHash valueIdx = table.bucketIdxFromHash hash := by
    rw [homeAt, sameHash]
  have inserted := layout.valid.inserted steps fresh (sameHome ▸ homeLt)
    (by rw [sameHash]; exact fingerprint_lt hash)
    (by rw [sameHome, sameHash]; exact before) (by rw [sameHome, sameHash]; exact here)
    (by rw [sameHome]; exact stretch) (by rw [sameHome, sameHash]; exact raised)
  refine ⟨after, ran, ?_⟩
  exact {
    shiftsLow := layout.shiftsLow
    shiftsHigh := layout.shiftsHigh
    count := count.trans layout.count
    valid := by
      rw [show after.length = table.buckets.length from count]
      exact inserted
    spare := by
      rw [Finset.card_insert_of_notMem fresh, show after.length = table.buckets.length from count]
      exact spare }

/-- `next_while_less` stops in front of the buckets that weigh as much. -/
theorem Layout.nextWhileLess_spec (layout : table.Layout mixedHash stored)
    (few : stored.card ≤ sizeLimit) (key : κ) :
    ∃ steps ≤ stored.card, (∀ j < steps, weigh 256 (fingerprint (mixedHash key)) j <
        (table.met (mixedHash key) j).distAndFingerprint) ∧
      (table.met (mixedHash key) steps).distAndFingerprint ≤
        weigh 256 (fingerprint (mixedHash key)) steps ∧
      table.nextWhileLess mixedHash key = some (table.probeAt (mixedHash key) steps) := by
  rcases layout.exists_not_heavier (mixedHash key) with ⟨steps, near, light, before⟩
  have spare := layout.spare
  have within : steps < table.bucketCount := near.trans_lt spare
  unfold sizeLimit at few
  have iterate : ∀ j ≤ steps,
      table.advance^[j] (table.probeAt (mixedHash key) 0) = table.probeAt (mixedHash key) j := by
    intro j
    induction j with
    | zero => exact fun _ => rfl
    | succ j ih =>
        intro within
        rw [Function.iterate_succ_apply', ih (by omega), advance_probeAt table (by omega)]
  refine ⟨steps, near, before, light, ?_⟩
  rw [nextWhileLess, probeFromHash_eq, Loop.run_whileBody within]
  · rw [iterate steps (Nat.le_refl steps)]
  · intro j earlier
    rw [iterate j earlier.le]
    exact decide_eq_true (before j earlier)
  · rw [iterate steps (Nat.le_refl steps)]
    exact decide_eq_false (Nat.not_lt.mpr light)

theorem hashAt_of_getElem? {valueIdx : ℕ} {entry : κ × ν}
    (found : table.values[valueIdx]? = some entry) :
    table.hashAt mixedHash valueIdx = mixedHash entry.1 := by
  rw [hashAt, found]
  rfl

/-- Filling places the indices of the entries one after another. -/
theorem fill_spec (rest : List (κ × ν)) (filled : DenseTable κ ν) (front : List (κ × ν))
    (values : filled.values = front ++ rest)
    (layout : filled.Layout mixedHash (Finset.range front.length))
    (few : filled.values.length ≤ sizeLimit)
    (spare : filled.values.length < filled.buckets.length) :
    ∃ after : List Bucket, (rest.zipIdx front.length).foldlM
        (fun filled entry => (filled.nextWhileLess mixedHash entry.1.1).bind fun probe =>
          filled.placeAndShiftUp ⟨probe.distAndFingerprint, entry.2⟩ probe.bucketIdx) filled =
        some { filled with buckets := after } ∧
      Layout mixedHash (Finset.range filled.values.length) { filled with buckets := after } := by
  induction rest generalizing filled front with
  | nil =>
      have size : filled.values.length = front.length := by rw [values, List.append_nil]
      refine ⟨filled.buckets, rfl, ?_⟩
      rw [size]
      exact layout
  | cons entry rest ih =>
      have size : filled.values.length = front.length + rest.length + 1 := by
        rw [values, List.length_append, List.length_cons]
        omega
      have found : filled.values[front.length]? = some entry := by
        rw [values, List.getElem?_append_right (Nat.le_refl _), Nat.sub_self]
        rfl
      rcases layout.nextWhileLess_spec (by rw [Finset.card_range]; omega) entry.1 with
        ⟨steps, -, before, light, searched⟩
      rcases layout.placed (by rw [Finset.card_range]; omega) (by rw [Finset.card_range]; omega)
        _ _ _ (by simp) (hashAt_of_getElem? found) (fun j near => (before j near).le) light with
        ⟨after, ran, placed⟩
      rw [List.zipIdx_cons, List.foldlM_cons, searched, Option.bind_some]
      simp only [probeAt] at ran ⊢
      rw [ran, Option.bind_eq_bind, Option.bind_some]
      have nextSize : (front ++ [entry]).length = front.length + 1 := by simp
      rw [← nextSize]
      apply ih { filled with buckets := after } (front ++ [entry])
      · rw [values, List.append_assoc, List.singleton_append]
      · rw [nextSize, Finset.range_add_one]
        exact placed
      · exact few
      · have count := placed.count
        simp only at count ⊢
        rw [count, ← layout.count]
        exact spare

theorem calcNumBuckets_eq {shifts : ℕ} (low : 32 ≤ shifts) :
    calcNumBuckets shifts = 2 ^ (64 - shifts) := by
  rw [calcNumBuckets, maxBucketCount, Nat.one_shiftLeft]
  exact min_eq_right (Nat.pow_le_pow_right (by decide) (by omega))

theorem bucketCapacity_eq {count : ℕ} (small : count ≤ 2 ^ 31) :
    bucketCapacity count = count * 13421773 / 2 ^ 24 := by
  rw [bucketCapacity, if_neg]
  unfold maxBucketCount
  omega

/-- A table that is full with few entries has few buckets. -/
theorem shifts_of_full {shifts : ℕ} (low : 32 < shifts)
    (few : bucketCapacity (2 ^ (64 - shifts)) < sizeLimit) : 39 < shifts := by
  by_contra many
  have large : 2 ^ 25 ≤ 2 ^ (64 - shifts) := Nat.pow_le_pow_right (by decide) (by omega)
  have small : 2 ^ (64 - shifts) ≤ 2 ^ 31 := Nat.pow_le_pow_right (by decide) (by omega)
  rw [bucketCapacity_eq small] at few
  unfold sizeLimit at few
  omega

/-- Buckets that are all empty hold no index. -/
theorem layout_replicate {shifts : ℕ} (low : 32 < shifts) (high : shifts ≤ 62)
    (values : List (κ × ν)) (capacity : ℕ) :
    Layout mixedHash ∅
      ⟨values, List.replicate (2 ^ (64 - shifts)) default, capacity, shifts⟩ where
  shiftsLow := low
  shiftsHigh := high
  count := List.length_replicate
  valid := by
    apply valid_empty (by decide)
    intro p _
    rw [slots, bucketAt_replicate]
    rfl
  spare := by
    rw [List.length_replicate, Finset.card_empty]
    positivity

/-- `increase_size` doubles the ring and places every entry again. -/
theorem increaseSize_spec (mixedHash : κ → BitVec 64) (table : DenseTable κ ν)
    (low : 32 < table.shifts) (high : table.shifts ≤ 62)
    (count : table.buckets.length = 2 ^ (64 - table.shifts))
    (capacity : table.maxBucketCapacity = bucketCapacity table.buckets.length)
    (full : table.values.length = table.maxBucketCapacity + 1)
    (few : table.values.length ≤ sizeLimit) :
    ∃ after : List Bucket, table.increaseSize mixedHash =
        some ⟨table.values, after, bucketCapacity (2 ^ (64 - (table.shifts - 1))),
          table.shifts - 1⟩ ∧
      table.values.length ≤ bucketCapacity (2 ^ (64 - (table.shifts - 1))) ∧
      Layout mixedHash (Finset.range table.values.length)
        ⟨table.values, after, bucketCapacity (2 ^ (64 - (table.shifts - 1))),
          table.shifts - 1⟩ := by
  rw [count] at capacity
  have lower := shifts_of_full low (by omega)
  have doubled : 2 ^ (64 - (table.shifts - 1)) = 2 * 2 ^ (64 - table.shifts) := by
    rw [show 64 - (table.shifts - 1) = (64 - table.shifts) + 1 by omega, Nat.pow_succ]
    ring
  have atLeast : 2 ^ 2 ≤ 2 ^ (64 - table.shifts) := Nat.pow_le_pow_right (by decide) (by omega)
  have atMost : 2 ^ (64 - table.shifts) ≤ 2 ^ 24 := Nat.pow_le_pow_right (by decide) (by omega)
  have oldCapacity := bucketCapacity_eq (show 2 ^ (64 - table.shifts) ≤ 2 ^ 31 by omega)
  have newCapacity := bucketCapacity_eq (show 2 ^ (64 - (table.shifts - 1)) ≤ 2 ^ 31 by omega)
  have fits : table.values.length ≤ bucketCapacity (2 ^ (64 - (table.shifts - 1))) := by
    omega
  rcases fill_spec table.values
    ⟨table.values, List.replicate (2 ^ (64 - (table.shifts - 1))) default,
      bucketCapacity (2 ^ (64 - (table.shifts - 1))), table.shifts - 1⟩ [] rfl
    (layout_replicate (by omega) (by omega) _ _) few
    (by rw [List.length_replicate]; simp only; omega) with ⟨after, ran, layout⟩
  refine ⟨after, ?_, fits, layout⟩
  rw [increaseSize, if_neg (by unfold maxBucketCount; omega)]
  have cleared : clearBuckets (allocateBucketsFromShift (deallocateBuckets
      { table with shifts := table.shifts - 1 })) =
      ⟨table.values, List.replicate (2 ^ (64 - (table.shifts - 1))) default,
        bucketCapacity (2 ^ (64 - (table.shifts - 1))), table.shifts - 1⟩ := by
    simp only [clearBuckets, allocateBucketsFromShift, deallocateBuckets, bucketCount,
      calcNumBuckets_eq (show 32 ≤ table.shifts - 1 by omega), List.take_nil, List.nil_append,
      List.length_nil, Nat.sub_zero, List.length_replicate]
  rw [clearAndFillBucketsFromValues, cleared]
  exact ran

section Keys

variable [DecidableEq κ] {key : κ}

/-- The loops of `do_try_emplace` and of `emplace` take the same turns. -/
theorem searchForPlace_eq (table : DenseTable κ ν) (key : κ) :
    table.searchForPlace key = table.searchForKey key := by
  funext probe
  simp only [searchForPlace, searchForKey]
  rcases Nat.lt_trichotomy probe.distAndFingerprint (table.bucketOf probe).distAndFingerprint
    with lighter | equal | heavier
  · rw [if_pos lighter.le, if_neg (fun both => lighter.ne both.1), if_neg lighter.ne,
      if_neg (Nat.not_lt.mpr lighter.le)]
  · rw [if_pos equal.le, if_pos equal]
    simp only [equal, true_and]
  · rw [if_neg (Nat.not_le.mpr heavier), if_neg heavier.ne', if_pos heavier]

theorem searchForKey_probeAt (table : DenseTable κ ν) (key : κ) (hash : BitVec 64) (steps : ℕ) :
    table.searchForKey key (table.probeAt hash steps) =
      if weigh 256 (fingerprint hash) steps = (table.met hash steps).distAndFingerprint then
        if table.holdsKey (table.met hash steps).valueIdx key then
          .inr (.inl (table.met hash steps).valueIdx)
        else .inl (table.advance (table.probeAt hash steps))
      else if (table.met hash steps).distAndFingerprint < weigh 256 (fingerprint hash) steps then
        .inr (.inr (table.probeAt hash steps))
      else .inl (table.advance (table.probeAt hash steps)) :=
  rfl

theorem searchForKey_next {hash : BitVec 64} {steps : ℕ} (near : steps + 2 < 2 ^ 24)
    (heavy : weigh 256 (fingerprint hash) steps ≤ (table.met hash steps).distAndFingerprint)
    (other : weigh 256 (fingerprint hash) steps = (table.met hash steps).distAndFingerprint →
      ¬ table.holdsKey (table.met hash steps).valueIdx key = true) :
    table.searchForKey key (table.probeAt hash steps) = .inl (table.probeAt hash (steps + 1)) := by
  rw [← advance_probeAt table near, searchForKey_probeAt]
  split
  case isTrue equal => rw [if_neg (other equal)]
  case isFalse differs => rw [if_neg (Nat.not_lt.mpr heavy)]

/-- A search for a stored key finds its index. -/
theorem Layout.searchForKey_present (layout : table.Layout mixedHash stored)
    (few : stored.card ≤ sizeLimit) {valueIdx : ℕ} (listed : valueIdx ∈ stored)
    (holds : table.holdsKey valueIdx key = true)
    (unique : ∀ other, table.holdsKey other key = true → other ∈ stored → other = valueIdx) :
    Loop.run (table.searchForKey key) table.bucketCount (table.probeFromHash (mixedHash key)) =
      some (.inl valueIdx) := by
  rcases layout.exists_met listed (hashAt_of_holdsKey holds) with ⟨steps, near, here, before⟩
  have spare := layout.spare
  have within : steps < table.bucketCount := near.trans spare
  unfold sizeLimit at few
  rw [probeFromHash_eq]
  apply Loop.run_eq_some (table.probeAt (mixedHash key)) within
  · intro j earlier
    apply searchForKey_next (by omega) (before j earlier).1
    intro equal otherHolds
    have occupied : (table.met (mixedHash key) j).distAndFingerprint ≠ 0 := by
      have least := unit_le_weigh 256 (fingerprint (mixedHash key)) j
      omega
    exact (before j earlier).2 (unique _ otherHolds (layout.mem_of_met occupied))
  · rw [searchForKey_probeAt, here, if_pos rfl, if_pos holds]

/-- A search for a key that is not stored ends where its bucket belongs. -/
theorem Layout.searchForKey_absent (layout : table.Layout mixedHash stored) (key : κ)
    (few : stored.card ≤ sizeLimit)
    (absent : ∀ valueIdx ∈ stored, ¬ table.holdsKey valueIdx key = true) :
    ∃ steps, (∀ j < steps, weigh 256 (fingerprint (mixedHash key)) j ≤
        (table.met (mixedHash key) j).distAndFingerprint) ∧
      (table.met (mixedHash key) steps).distAndFingerprint <
        weigh 256 (fingerprint (mixedHash key)) steps ∧
      Loop.run (table.searchForKey key) table.bucketCount (table.probeFromHash (mixedHash key)) =
        some (.inr (table.probeAt (mixedHash key) steps)) := by
  rcases layout.exists_lighter (mixedHash key) with ⟨steps, near, light, before⟩
  have spare := layout.spare
  have within : steps < table.bucketCount := near.trans_lt spare
  unfold sizeLimit at few
  refine ⟨steps, before, light, ?_⟩
  rw [probeFromHash_eq]
  apply Loop.run_eq_some (table.probeAt (mixedHash key)) within
  · intro j earlier
    apply searchForKey_next (by omega) (before j earlier)
    intro equal
    have occupied : (table.met (mixedHash key) j).distAndFingerprint ≠ 0 := by
      have least := unit_le_weigh 256 (fingerprint (mixedHash key)) j
      omega
    exact absent _ (layout.mem_of_met occupied)
  · rw [searchForKey_probeAt, if_neg light.ne', if_pos light]

omit [DecidableEq κ] in
/-- An appended entry leaves the layout of the others as it was. -/
theorem WellFormed.append (wellFormed : table.WellFormed mixedHash) (entry : κ × ν) :
    Layout mixedHash (Finset.range table.values.length)
      { table with values := table.values ++ [entry] } := by
  have layout := wellFormed.layout
  have same {valueIdx : ℕ} (listed : valueIdx ∈ Finset.range table.values.length) :
      hashAt mixedHash { table with values := table.values ++ [entry] } valueIdx =
        table.hashAt mixedHash valueIdx := by
    rw [Finset.mem_range] at listed
    simp only [hashAt]
    rw [List.getElem?_append_left listed]
  exact {
    shiftsLow := layout.shiftsLow
    shiftsHigh := layout.shiftsHigh
    count := layout.count
    valid := layout.valid.congr fun valueIdx listed => by
      rw [homeAt, same listed]
      exact ⟨rfl, rfl⟩
    spare := layout.spare }

/-- How an insertion changes a table. -/
structure Inserted (mixedHash : κ → BitVec 64) (before : DenseTable κ ν) (entry : κ × ν)
    (after : DenseTable κ ν) : Prop where
  wellFormed : after.WellFormed mixedHash
  values : after.values = before.values ++ [entry]
  grown : after.shifts = before.shifts ∨
    before.values.length = before.maxBucketCapacity ∧ after.shifts = before.shifts - 1

omit [DecidableEq κ] in
/-- The last entry gets a bucket, on the old ring or on one of twice the size. -/
theorem WellFormed.placeLast (wellFormed : table.WellFormed mixedHash) (entry : κ × ν)
    (fresh : entry.1 ∉ table.values.map Prod.fst) (few : table.values.length < sizeLimit)
    {steps : ℕ}
    (before : ∀ j < steps, weigh 256 (fingerprint (mixedHash entry.1)) j ≤
      (table.met (mixedHash entry.1) j).distAndFingerprint)
    (here : (table.met (mixedHash entry.1) steps).distAndFingerprint ≤
      weigh 256 (fingerprint (mixedHash entry.1)) steps) :
    ∃ after, DenseTable.placeLast mixedHash { table with values := table.values ++ [entry] }
        (table.probeAt (mixedHash entry.1) steps) = some after ∧
      Inserted mixedHash table entry after := by
  have layout := wellFormed.layout
  have appended := wellFormed.append entry
  have capacity := wellFormed.capacity
  have roomy := wellFormed.roomy
  have size : (table.values ++ [entry]).length = table.values.length + 1 := by simp
  have distinct : ((table.values ++ [entry]).map Prod.fst).Nodup := by
    rw [List.map_append, List.map_cons, List.map_nil]
    exact wellFormed.distinct.append (List.nodup_singleton _) (by simpa using fresh)
  have countLe := layout.count_le
  have capacityEq := bucketCapacity_eq countLe
  have positive : 0 < table.buckets.length := by
    have spare := layout.spare
    omega
  rw [DenseTable.placeLast]
  by_cases full : table.values.length + 1 > table.maxBucketCapacity
  · rw [if_pos (by simp only [isFull, size]; exact decide_eq_true full)]
    rcases increaseSize_spec mixedHash
      { table with values := table.values ++ [entry] } layout.shiftsLow
      layout.shiftsHigh layout.count capacity (by simp only [size]; omega)
      (by simp only [size]; omega) with ⟨buckets, ran, fits, placed⟩
    refine ⟨_, ran, ⟨distinct, ?_, fits, placed⟩, rfl, Or.inr ⟨by omega, rfl⟩⟩
    have count := placed.count
    simp only at count ⊢
    rw [count]
  · rw [if_neg (by simp only [isFull, size]; simpa using Nat.not_lt.mp full)]
    simp only [size, Nat.add_sub_cancel]
    rcases appended.placed (by rw [Finset.card_range]; omega)
      (by rw [Finset.card_range]; simp only; omega) table.values.length steps (mixedHash entry.1)
      (by simp)
      (hashAt_of_getElem? (by simp)) before here with ⟨buckets, ran, placed⟩
    refine ⟨_, ran, ⟨distinct, ?_, ?_, ?_⟩, rfl, Or.inl rfl⟩
    · have count := placed.count
      simp only at count ⊢
      rw [count, ← layout.count]
      exact capacity
    · simp only [size]
      omega
    · simp only [size]
      rw [Finset.range_add_one]
      exact placed

/-- `do_try_emplace` on a present key. -/
theorem WellFormed.doTryEmplace_present (wellFormed : table.WellFormed mixedHash)
    (few : table.values.length ≤ sizeLimit) {valueIdx : ℕ}
    (holds : table.holdsKey valueIdx key = true) (value : ν) :
    table.doTryEmplace mixedHash key value = some (table, valueIdx, false) := by
  rw [doTryEmplace, wellFormed.layout.searchForKey_present (by rwa [Finset.card_range])
    (Finset.mem_range.mpr (lt_of_holdsKey holds)) holds
    (fun other otherHolds _ => holdsKey_unique wellFormed.distinct otherHolds holds)]
  rfl

/-- `do_try_emplace` on a new key. -/
theorem WellFormed.doTryEmplace_absent (wellFormed : table.WellFormed mixedHash)
    (few : table.values.length < sizeLimit) (absent : key ∉ table.values.map Prod.fst)
    (value : ν) :
    ∃ after, table.doTryEmplace mixedHash key value =
        some (after, table.values.length, true) ∧
      Inserted mixedHash table (key, value) after := by
  rcases wellFormed.layout.searchForKey_absent key
    (by rw [Finset.card_range]; exact few.le)
    (fun _ _ holds => absent (exists_holdsKey_iff.mp ⟨_, holds⟩)) with
    ⟨steps, before, light, searched⟩
  rcases wellFormed.placeLast (key, value) absent few before light.le with
    ⟨after, ran, inserted⟩
  refine ⟨after, ?_, inserted⟩
  rw [doTryEmplace, searched, Option.bind_some, Sum.elim_inr, doPlaceElement, ran,
    Option.map_some]

/-- `emplace`, which appends before it searches, does the same as `do_try_emplace`. -/
theorem WellFormed.emplace_eq (wellFormed : table.WellFormed mixedHash)
    (few : table.values.length < sizeLimit) (key : κ) (value : ν) :
    table.emplace mixedHash key value = table.doTryEmplace mixedHash key value := by
  have appended := wellFormed.append (key, value)
  have holdsOld {valueIdx : ℕ} (below : valueIdx < table.values.length) :
      holdsKey { table with values := table.values ++ [(key, value)] } valueIdx key =
        table.holdsKey valueIdx key := by
    simp only [holdsKey]
    rw [List.getElem?_append_left below]
  simp only [emplace, searchForPlace_eq]
  by_cases present : key ∈ table.values.map Prod.fst
  · rcases exists_holdsKey_iff.mpr present with ⟨valueIdx, holds⟩
    have below := lt_of_holdsKey holds
    rw [appended.searchForKey_present (by rw [Finset.card_range]; exact few.le)
      (Finset.mem_range.mpr below) (by rw [holdsOld below]; exact holds) ?_,
      wellFormed.doTryEmplace_present few.le holds]
    · rw [Option.bind_some, Sum.elim_inl, List.dropLast_concat]
    · intro other otherHolds listed
      rw [holdsOld (Finset.mem_range.mp listed)] at otherHolds
      exact holdsKey_unique wellFormed.distinct otherHolds holds
  · have absentOld : ∀ valueIdx ∈ Finset.range table.values.length,
        ¬ table.holdsKey valueIdx key = true :=
      fun _ _ holds => present (exists_holdsKey_iff.mp ⟨_, holds⟩)
    rcases appended.searchForKey_absent key (by rw [Finset.card_range]; exact few.le)
      (fun valueIdx listed => by
        rw [holdsOld (Finset.mem_range.mp listed)]
        exact absentOld valueIdx listed) with ⟨steps, before, light, searched⟩
    rcases wellFormed.layout.searchForKey_absent key
      (by rw [Finset.card_range]; exact few.le) absentOld with
      ⟨others, otherBefore, otherLight, otherSearched⟩
    obtain rfl : steps = others := by
      rcases Nat.lt_trichotomy steps others with earlier | same | later
      · exact absurd light (Nat.not_lt.mpr (otherBefore steps earlier))
      · exact same
      · exact absurd otherLight (Nat.not_lt.mpr (before others later))
    rw [searched, doTryEmplace, otherSearched, Option.bind_some, Option.bind_some, Sum.elim_inr,
      Sum.elim_inr, doPlaceElement]
    simp only [List.length_append, List.length_singleton, Nat.add_sub_cancel]
    rfl

end Keys

end DenseTable

end GodotStream
