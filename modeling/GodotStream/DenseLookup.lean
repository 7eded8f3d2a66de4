import GodotStream.DenseInsertion
import GodotStream.Lib.Table

/-!
# Lookups in the dense hash table

`do_find` tests two buckets before its loop and does not look for a lighter bucket
there, so it may walk past the place where the search could have stopped. It answers
the index of the key, or `end()` for a key that is not stored, and so does the loop
without the two tests.
-/

namespace GodotStream

open Ring RobinHood

universe u v

namespace DenseTable

variable {κ : Type u} {ν : Type v} [DecidableEq κ] {mixedHash : κ → BitVec 64}
  {table : DenseTable κ ν} {stored : Finset ℕ} {key : κ}

theorem findLoop_probeAt (table : DenseTable κ ν) (key : κ) (hash : BitVec 64) (steps : ℕ) :
    table.findLoop key (table.probeAt hash steps) =
      if weigh 256 (fingerprint hash) steps = (table.met hash steps).distAndFingerprint then
        if table.holdsKey (table.met hash steps).valueIdx key then
          .inr (some (table.met hash steps).valueIdx)
        else .inl (table.advance (table.probeAt hash steps))
      else if (table.met hash steps).distAndFingerprint < weigh 256 (fingerprint hash) steps then
        .inr none
      else .inl (table.advance (table.probeAt hash steps)) :=
  rfl

theorem findHere_probeAt (table : DenseTable κ ν) (key : κ) (hash : BitVec 64) (steps : ℕ) :
    table.findHere key (table.probeAt hash steps) = true ↔
      weigh 256 (fingerprint hash) steps = (table.met hash steps).distAndFingerprint ∧
        table.holdsKey (table.met hash steps).valueIdx key = true := by
  simp only [findHere, decide_eq_true_eq]
  exact Iff.rfl

/-- Where a test of a bucket succeeds there is an index of the set. -/
theorem Layout.mem_of_findHere (layout : table.Layout mixedHash stored) {hash : BitVec 64}
    {steps : ℕ} (found : table.findHere key (table.probeAt hash steps) = true) :
    (table.met hash steps).valueIdx ∈ stored ∧
      table.holdsKey (table.met hash steps).valueIdx key = true := by
  rw [findHere_probeAt] at found
  refine ⟨layout.mem_of_met ?_, found.2⟩
  have least := unit_le_weigh 256 (fingerprint hash) steps
  omega

theorem findLoop_next {hash : BitVec 64} {steps : ℕ} (near : steps + 2 < 2 ^ 24)
    (heavy : weigh 256 (fingerprint hash) steps ≤ (table.met hash steps).distAndFingerprint)
    (other : ¬ table.findHere key (table.probeAt hash steps) = true) :
    table.findLoop key (table.probeAt hash steps) = .inl (table.probeAt hash (steps + 1)) := by
  rw [findHere_probeAt] at other
  rw [← advance_probeAt table near, findLoop_probeAt]
  split
  case isTrue equal => rw [if_neg (fun holds => other ⟨equal, holds⟩)]
  case isFalse differs => rw [if_neg (Nat.not_lt.mpr heavy)]

/-- The loop of `do_find` from some step on, for a key whose bucket it has not passed. -/
theorem WellFormed.findLoop_present (wellFormed : table.WellFormed mixedHash)
    (few : table.values.length ≤ sizeLimit) {valueIdx : ℕ}
    (holds : table.holdsKey valueIdx key = true) {skip : ℕ}
    (passed : ∀ j < skip, ¬ table.findHere key (table.probeAt (mixedHash key) j) = true) :
    Loop.run (table.findLoop key) table.bucketCount (table.probeAt (mixedHash key) skip) =
      some (some valueIdx) := by
  have layout := wellFormed.layout
  rcases layout.exists_met (Finset.mem_range.mpr (lt_of_holdsKey holds))
    (hashAt_of_holdsKey holds) with ⟨steps, near, here, before⟩
  rw [Finset.card_range] at near
  have spare := layout.spare
  rw [Finset.card_range] at spare
  unfold sizeLimit at few
  have foundHere : table.findHere key (table.probeAt (mixedHash key) steps) = true := by
    rw [findHere_probeAt, here]
    exact ⟨rfl, holds⟩
  obtain ⟨turns, rfl⟩ : ∃ turns, steps = skip + turns := by
    refine ⟨steps - skip, ?_⟩
    by_contra short
    exact passed steps (by omega) foundHere
  have within : turns < table.bucketCount :=
    lt_of_le_of_lt (show turns ≤ table.values.length by omega) spare
  apply Loop.run_eq_some (fun turn => table.probeAt (mixedHash key) (skip + turn)) within
  · intro turn earlier
    apply findLoop_next (by omega) (before (skip + turn) (by omega)).1
    intro found
    exact (before (skip + turn) (by omega)).2
      (holdsKey_unique wellFormed.distinct (layout.mem_of_findHere found).2 holds)
  · rw [findLoop_probeAt, here, if_pos rfl, if_pos holds]

/-- The loop of `do_find` from some step on, for a key that is not stored. -/
theorem WellFormed.findLoop_absent (wellFormed : table.WellFormed mixedHash)
    (few : table.values.length ≤ sizeLimit) (absent : key ∉ table.values.map Prod.fst)
    {skip : ℕ} (short : skip ≤ 2) :
    Loop.run (table.findLoop key) table.bucketCount (table.probeAt (mixedHash key) skip) =
      some none := by
  have layout := wellFormed.layout
  have spare := layout.spare
  rcases layout.valid.exists_first spare (ahead_lt (layout.homeLt (mixedHash key)) skip)
    (fun turn => (table.met (mixedHash key) (skip + turn)).distAndFingerprint <
      weigh 256 (fingerprint (mixedHash key)) (skip + turn))
    (fun turn empty => by
      rw [← ahead_add, ← met_slot, Bucket.slot] at empty
      have least := unit_le_weigh 256 (fingerprint (mixedHash key)) (skip + turn)
      simp only at empty
      omega) with ⟨turns, near, light, before⟩
  rw [Finset.card_range] at near spare
  unfold sizeLimit at few
  have within : turns < table.bucketCount := lt_of_le_of_lt near spare
  apply Loop.run_eq_some (fun turn => table.probeAt (mixedHash key) (skip + turn)) within
  · intro turn earlier
    apply findLoop_next (by omega) (Nat.not_lt.mp (before turn earlier))
    intro found
    exact absent (exists_holdsKey_iff.mp ⟨_, (layout.mem_of_findHere found).2⟩)
  · rw [findLoop_probeAt, if_neg light.ne', if_pos light]

theorem WellFormed.doFind_present (wellFormed : table.WellFormed mixedHash)
    (few : table.values.length ≤ sizeLimit) {valueIdx : ℕ}
    (holds : table.holdsKey valueIdx key = true) :
    table.doFind mixedHash key = some (some valueIdx) := by
  have nonempty : table.values.isEmpty = false := by
    rw [List.isEmpty_eq_false_iff_exists_mem]
    exact ⟨_, List.getElem_mem (lt_of_holdsKey holds)⟩
  have second : table.advance (table.probeAt (mixedHash key) 0) =
      table.probeAt (mixedHash key) 1 := advance_probeAt table (by decide)
  have third : table.advance (table.probeAt (mixedHash key) 1) =
      table.probeAt (mixedHash key) 2 := advance_probeAt table (by decide)
  have indexOf {steps : ℕ}
      (found : table.findHere key (table.probeAt (mixedHash key) steps) = true) :
      (table.bucketOf (table.probeAt (mixedHash key) steps)).valueIdx = valueIdx :=
    holdsKey_unique wellFormed.distinct (wellFormed.layout.mem_of_findHere found).2 holds
  simp only [doFind, nonempty, probeFromHash_eq, second, third]
  by_cases first : table.findHere key (table.probeAt (mixedHash key) 0) = true
  · rw [if_neg Bool.false_ne_true, if_pos first, indexOf first]
  by_cases next : table.findHere key (table.probeAt (mixedHash key) 1) = true
  · rw [if_neg Bool.false_ne_true, if_neg first, if_pos next, indexOf next]
  rw [if_neg Bool.false_ne_true, if_neg first, if_neg next]
  apply wellFormed.findLoop_present few holds
  intro j below
  obtain rfl | rfl : j = 0 ∨ j = 1 := by omega
  · exact first
  · exact next

theorem WellFormed.doFind_absent (wellFormed : table.WellFormed mixedHash)
    (few : table.values.length ≤ sizeLimit) (absent : key ∉ table.values.map Prod.fst) :
    table.doFind mixedHash key = some none := by
  have nowhere {probe : Probe} {steps : ℕ} (reached : probe = table.probeAt (mixedHash key) steps) :
      ¬ table.findHere key probe = true := by
    rintro found
    rw [reached] at found
    exact absent (exists_holdsKey_iff.mp ⟨_, (wellFormed.layout.mem_of_findHere found).2⟩)
  have second : table.advance (table.probeAt (mixedHash key) 0) =
      table.probeAt (mixedHash key) 1 := advance_probeAt table (by decide)
  have third : table.advance (table.probeAt (mixedHash key) 1) =
      table.probeAt (mixedHash key) 2 := advance_probeAt table (by decide)
  simp only [doFind, probeFromHash_eq, second, third, if_neg (nowhere rfl)]
  rw [wellFormed.findLoop_absent few absent (Nat.le_refl 2), ite_self]

/-- The entry that `do_find` points to, or none at `end()`. -/
theorem WellFormed.doFind_lookup (wellFormed : table.WellFormed mixedHash)
    (few : table.values.length ≤ sizeLimit) (key : κ) :
    (table.doFind mixedHash key).map (fun found =>
      found.bind fun valueIdx => (table.values[valueIdx]?).map Prod.snd) =
      some (table.values.lookup key) := by
  by_cases present : key ∈ table.values.map Prod.fst
  · rcases exists_holdsKey_iff.mpr present with ⟨valueIdx, holds⟩
    rw [wellFormed.doFind_present few holds]
    rw [holdsKey, decide_eq_true_iff, Option.map_eq_some_iff] at holds
    rcases holds with ⟨entry, found, rfl⟩
    rw [Option.map_some, Option.bind_some, found, Option.map_some,
      Storage.Table.lookup_eq_some_of_mem wellFormed.distinct (List.mem_of_getElem? found)]
  · rw [wellFormed.doFind_absent few present, Option.map_some, Option.bind_none]
    cases found : table.values.lookup key with
    | none => rfl
    | some value =>
        exact absurd (List.mem_map_of_mem (Storage.Table.mem_of_lookup_eq_some found)) present

/-- The loop of `do_find` without the two tests before it. -/
def plainFind (mixedHash : κ → BitVec 64) (table : DenseTable κ ν) (key : κ) :
    Option (Option ℕ) :=
  Loop.run (table.findLoop key) table.bucketCount (table.probeFromHash (mixedHash key))

/-- The two tests in front of the loop change nothing that `do_find` answers. -/
theorem WellFormed.doFind_eq_plainFind (wellFormed : table.WellFormed mixedHash)
    (few : table.values.length ≤ sizeLimit) (key : κ) :
    table.doFind mixedHash key = table.plainFind mixedHash key := by
  rw [plainFind, probeFromHash_eq]
  by_cases present : key ∈ table.values.map Prod.fst
  · rcases exists_holdsKey_iff.mpr present with ⟨valueIdx, holds⟩
    rw [wellFormed.doFind_present few holds,
      wellFormed.findLoop_present few holds (fun j below => absurd below (Nat.not_lt_zero j))]
  · rw [wellFormed.doFind_absent few present,
      wellFormed.findLoop_absent few present (Nat.zero_le 2)]

end DenseTable

end GodotStream
