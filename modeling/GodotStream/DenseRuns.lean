import GodotStream.DenseRefinement

/-!
# What holds of every dense hash table

In every table that a run of calls makes out of an empty one, each entry has exactly
one bucket, at a distance below the number of entries, and the ring is no larger than
the largest number of entries so far asked for. The two ways to insert, the two ways
to erase and the unrolled and the plain search come to the same table and the same
answer, bucket by bucket.
-/

namespace GodotStream

open Ring RobinHood Storage

universe u v

namespace DenseTable

/-- Four uuids, enough for the ring to grow, of which one is erased. -/
def grownCalls : List (TableCall Uuid ℕ) :=
  [.tryEmplace 1 10, .emplace 2 20, .subscript 3 (· + 30), .emplace 4 40, .eraseKey 2]

/-- The table that these calls make. -/
def grown : DenseTable Uuid ℕ :=
  ((DenseTable.callAll Uuid.mixedHash grownCalls create).map Prod.fst).getD create

theorem callAll_grown : DenseTable.callAll Uuid.mixedHash grownCalls create =
    some (grown, [.placed 0 true, .placed 1 true, .nothing, .placed 3 true, .number 1]) := by
  decide +kernel

theorem reachable_grown : grown.Reachable Uuid.mixedHash :=
  ⟨grownCalls, by decide +kernel, _, callAll_grown⟩

variable {κ : Type u} {ν : Type v} {mixedHash : κ → BitVec 64} {dense : DenseTable κ ν}

/-- The bucket at an offset names an entry, and lies where the hash of its key says. -/
structure Names (mixedHash : κ → BitVec 64) (dense : DenseTable κ ν) (offset valueIdx : ℕ) :
    Prop where
  below : offset < dense.bucketCount
  occupied : (bucketAt dense.buckets offset).distAndFingerprint ≠ 0
  index : (bucketAt dense.buckets offset).valueIdx = valueIdx
  lies : ∃ entry ∈ dense.values[valueIdx]?, ∃ distance < dense.values.length,
    (bucketAt dense.buckets offset).distAndFingerprint =
        256 * (distance + 1) + (mixedHash entry.1).toNat % 256 ∧
      offset = ahead dense.bucketCount (dense.bucketIdxFromHash (mixedHash entry.1)) distance

theorem WellFormed.names (wellFormed : dense.WellFormed mixedHash) {offset : ℕ}
    (below : offset < dense.bucketCount)
    (occupied : (bucketAt dense.buckets offset).distAndFingerprint ≠ 0) :
    dense.Names mixedHash offset (bucketAt dense.buckets offset).valueIdx := by
  have layout := wellFormed.layout
  rcases layout.valid.placed offset below occupied with ⟨listed, steps, weight, reached⟩
  have index : (slots dense.buckets offset).item < dense.values.length :=
    Finset.mem_range.mp listed
  have found := List.getElem?_eq_getElem index
  have near := layout.valid.steps_lt layout.spare (layout.homeLt _)
    (by rw [← homeAt, reached]; exact weight.ge)
  rw [Finset.card_range] at near
  rw [homeAt, hashAt_of_getElem? found] at reached
  rw [hashAt_of_getElem? found] at weight
  exact ⟨below, occupied, rfl, _, found, steps, near, weight, reached.symm⟩

/-- In every reachable table each entry has exactly one bucket, each bucket in use names an
entry, and no bucket lies further from home than there are entries. -/
theorem reachable_buckets [DecidableEq κ] [Inhabited ν] (reachable : dense.Reachable mixedHash) :
    (∀ offset < dense.bucketCount, (bucketAt dense.buckets offset).distAndFingerprint ≠ 0 →
      dense.Names mixedHash offset (bucketAt dense.buckets offset).valueIdx) ∧
    ∀ valueIdx < dense.values.length, ∃! offset, dense.Names mixedHash offset valueIdx := by
  have wellFormed := reachable.wellFormed.1
  have layout := wellFormed.layout
  refine ⟨fun offset below occupied => wellFormed.names below occupied, ?_⟩
  intro valueIdx below
  rcases layout.valid.present valueIdx (Finset.mem_range.mpr below) with
    ⟨offset, offsetLt, occupied, rfl⟩
  refine ⟨offset, wellFormed.names offsetLt occupied, ?_⟩
  intro other names
  exact layout.valid.unique other names.below offset offsetLt names.occupied occupied names.index

theorem reachable_buckets_grown :
    (∀ offset < grown.bucketCount, (bucketAt grown.buckets offset).distAndFingerprint ≠ 0 →
      grown.Names Uuid.mixedHash offset (bucketAt grown.buckets offset).valueIdx) ∧
    ∀ valueIdx < grown.values.length, ∃! offset, grown.Names Uuid.mixedHash offset valueIdx :=
  reachable_buckets reachable_grown

/-- A run leaves a ring with room to spare that is no larger than its entries made it. -/
theorem callAll_ring [DecidableEq κ] [Inhabited ν] (mixedHash : κ → BitVec 64)
    (calls : List (TableCall κ ν)) (admissible : TableCall.AllAdmissible calls ∅)
    {answers : List TableAnswer}
    (ran : DenseTable.callAll mixedHash calls create = some (dense, answers)) :
    dense.bucketCount = 2 ^ (64 - dense.shifts) ∧
    dense.values.length ≤ bucketCapacity dense.bucketCount ∧
    bucketCapacity dense.bucketCount < dense.bucketCount ∧
    (dense.bucketCount = 4 ∨
      bucketCapacity (dense.bucketCount / 2) < TableCall.peak calls ∅) := by
  rcases (represents_create mixedHash).callAll 0
    (Or.inl (by rw [create_eq])) admissible with ⟨after, afterRan, agrees, tight⟩
  obtain ⟨rfl, -⟩ : after = dense ∧ _ = answers := by
    rw [ran, Option.some.injEq, Prod.mk.injEq] at afterRan
    exact ⟨afterRan.1.symm, afterRan.2.symm⟩
  have layout := agrees.wellFormed.layout
  have count : after.bucketCount = 2 ^ (64 - after.shifts) := layout.count
  have low := layout.shiftsLow
  have high := layout.shiftsHigh
  refine ⟨count, ?_, ?_, ?_⟩
  · rw [bucketCount, ← agrees.wellFormed.capacity]
    exact agrees.wellFormed.roomy
  · rw [bucketCount, bucketCapacity_eq layout.count_le]
    have spare := layout.spare
    omega
  · rcases tight with fresh | small
    · left
      rw [count, fresh]
      rfl
    · right
      rw [Nat.zero_max] at small
      have half : after.bucketCount / 2 = 2 ^ (63 - after.shifts) := by
        rw [count, show 64 - after.shifts = 63 - after.shifts + 1 by omega, Nat.pow_succ,
          Nat.mul_div_cancel _ (by decide)]
      rw [half]
      exact small

theorem callAll_ring_grown : grown.bucketCount = 2 ^ (64 - grown.shifts) ∧
    grown.values.length ≤ bucketCapacity grown.bucketCount ∧
    bucketCapacity grown.bucketCount < grown.bucketCount ∧
    (grown.bucketCount = 4 ∨
      bucketCapacity (grown.bucketCount / 2) < TableCall.peak grownCalls ∅) :=
  callAll_ring Uuid.mixedHash grownCalls (by decide +kernel) callAll_grown

variable [DecidableEq κ]

/-- The unrolled search of `do_find` answers like its plain loop, and what it finds is the
value stored under the key. -/
theorem reachable_doFind [Inhabited ν] (reachable : dense.Reachable mixedHash) (key : κ) :
    dense.doFind mixedHash key = dense.plainFind mixedHash key ∧
      ∃ found, dense.doFind mixedHash key = some found ∧
        (found.bind fun valueIdx => (dense.values[valueIdx]?).map Prod.snd) =
          dense.values.lookup key := by
  have ⟨wellFormed, few⟩ := reachable.wellFormed
  refine ⟨wellFormed.doFind_eq_plainFind few key, ?_⟩
  have lookup := wellFormed.doFind_lookup few key
  rw [Option.map_eq_some_iff] at lookup
  exact lookup

theorem reachable_doFind_grown :
    grown.doFind Uuid.mixedHash 4 = grown.plainFind Uuid.mixedHash 4 ∧
      ∃ found, grown.doFind Uuid.mixedHash 4 = some found ∧
        (found.bind fun valueIdx => (grown.values[valueIdx]?).map Prod.snd) =
          grown.values.lookup 4 :=
  reachable_doFind reachable_grown 4

/-- Both searches of a present index come to its one bucket. -/
theorem WellFormed.doEraseKey_eq (wellFormed : dense.WellFormed mixedHash)
    (few : dense.values.length ≤ sizeLimit) {valueIdx : ℕ} {entry : κ × ν}
    (found : dense.values[valueIdx]? = some entry) :
    dense.doEraseKey mixedHash entry.1 =
      (dense.eraseIterator mixedHash valueIdx).map fun after => (after, 1) := by
  have holds : dense.holdsKey valueIdx entry.1 = true := by
    rw [holdsKey, found]
    exact decide_eq_true rfl
  rcases wellFormed.doEraseKey_bucket few holds with ⟨first, firstLt, firstUsed, firstIdx, byKey⟩
  rcases wellFormed.eraseIterator_bucket found with
    ⟨second, secondLt, secondUsed, secondIdx, byIterator⟩
  have same := wellFormed.layout.valid.unique first firstLt second secondLt firstUsed secondUsed
    (firstIdx.trans secondIdx.symm)
  rw [byKey, byIterator, same]

/-- Erasing by key and erasing by iterator leave the same array and the same buckets. -/
theorem reachable_erase [Inhabited ν] (reachable : dense.Reachable mixedHash) {valueIdx : ℕ}
    {entry : κ × ν} (found : dense.values[valueIdx]? = some entry) :
    ∃ after, dense.eraseIterator mixedHash valueIdx = some after ∧
      dense.doEraseKey mixedHash entry.1 = some (after, 1) := by
  have ⟨wellFormed, few⟩ := reachable.wellFormed
  rcases wellFormed.eraseIterator few found with ⟨after, ran, -⟩
  refine ⟨after, ran, ?_⟩
  rw [wellFormed.doEraseKey_eq few found, ran, Option.map_some]

theorem reachable_erase_grown :
    ∃ after, grown.eraseIterator Uuid.mixedHash 1 = some after ∧
      grown.doEraseKey Uuid.mixedHash 4 = some (after, 1) := by
  have found : grown.values[1]? = some (4, 40) := by decide +kernel
  have erased := reachable_erase reachable_grown found
  exact erased

/-- `emplace`, which appends before it searches, and `do_try_emplace` leave the same array and
the same buckets. -/
theorem reachable_emplace [Inhabited ν] (reachable : dense.Reachable mixedHash)
    (room : dense.values.length < sizeLimit) (key : κ) (value : ν) :
    ∃ done, dense.emplace mixedHash key value = some done ∧
      dense.doTryEmplace mixedHash key value = some done := by
  have wellFormed := reachable.wellFormed.1
  rw [wellFormed.emplace_eq room key value]
  by_cases present : key ∈ dense.values.map Prod.fst
  · rcases exists_holdsKey_iff.mpr present with ⟨valueIdx, holds⟩
    exact ⟨_, wellFormed.doTryEmplace_present room.le holds value,
      wellFormed.doTryEmplace_present room.le holds value⟩
  · rcases wellFormed.doTryEmplace_absent room present value with ⟨after, ran, -⟩
    exact ⟨_, ran, ran⟩

theorem reachable_emplace_grown :
    ∃ done, grown.emplace Uuid.mixedHash 5 50 = some done ∧
      grown.doTryEmplace Uuid.mixedHash 5 50 = some done :=
  reachable_emplace reachable_grown (by decide +kernel) 5 50

end DenseTable

end GodotStream
