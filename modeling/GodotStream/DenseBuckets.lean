import GodotStream.Lib.RobinHood
import GodotStream.UnorderedDense

/-!
# Shifting the buckets of the dense hash table

`place_and_shift_up` and `erase_and_shift_down` carry one bucket after another along
the ring and overwrite the list as they go. Seen from outside they move a stretch of
buckets one slot on, or a tail of them one slot back, as in Robin Hood hashing.
-/

namespace GodotStream

open Ring RobinHood

universe u v

variable {κ : Type u} {ν : Type v}

/-- A bucket as a slot of the ring. -/
def Bucket.slot (bucket : Bucket) : Slot ℕ :=
  ⟨bucket.distAndFingerprint, bucket.valueIdx⟩

namespace DenseTable

/-- The ring of slots in a list of buckets. -/
def slots (buckets : List Bucket) (offset : ℕ) : Slot ℕ :=
  (bucketAt buckets offset).slot

theorem bucketAt_set_self {buckets : List Bucket} {offset : ℕ} (below : offset < buckets.length)
    (bucket : Bucket) : bucketAt (buckets.set offset bucket) offset = bucket := by
  simp [bucketAt, below]

theorem bucketAt_set_of_ne {buckets : List Bucket} {offset other : ℕ} (distinct : other ≠ offset)
    (bucket : Bucket) : bucketAt (buckets.set offset bucket) other = bucketAt buckets other := by
  simp [bucketAt, distinct.symm]

@[simp]
theorem bucketAt_replicate (count offset : ℕ) :
    bucketAt (List.replicate count default) offset = default := by
  simp only [bucketAt, List.getD_eq_getElem?_getD, List.getElem?_replicate]
  split <;> rfl

theorem distInc_of_lt {x : ℕ} (light : x + 256 < 2 ^ 32) : distInc x = x + 256 :=
  Nat.mod_eq_of_lt light

theorem distDec_of_le {x : ℕ} (heavy : 256 ≤ x) (light : x < 2 ^ 32) : distDec x = x - 256 := by
  unfold distDec
  omega

variable {buckets : List Bucket} {bucket : Bucket} {place length : ℕ}

/-- The bucket in hand after some exchanges. -/
def inHand (buckets : List Bucket) (bucket : Bucket) (place : ℕ) : ℕ → Bucket
  | 0 => bucket
  | turn + 1 =>
      let displaced := bucketAt buckets (ahead buckets.length place turn)
      ⟨distInc displaced.distAndFingerprint, displaced.valueIdx⟩

/-- What the exchanges have done so far. -/
structure Exchanged (buckets : List Bucket) (bucket : Bucket) (place turn : ℕ)
    (state : ShiftUp) : Prop where
  count : state.buckets.length = buckets.length
  here : state.place = ahead buckets.length place turn
  hand : state.bucket = inHand buckets bucket place turn
  written : ∀ i < turn, bucketAt state.buckets (ahead buckets.length place i) =
    inHand buckets bucket place i
  kept : ∀ i, turn ≤ i → i < buckets.length →
    bucketAt state.buckets (ahead buckets.length place i) =
      bucketAt buckets (ahead buckets.length place i)

/-- Writing the bucket in hand, at the end of the loop or in the next round. -/
theorem Exchanged.write {turn : ℕ} {state : ShiftUp}
    (exchanged : Exchanged buckets bucket place turn state) (below : place < buckets.length)
    (inside : turn < buckets.length) :
    (∀ i < turn + 1, bucketAt (state.buckets.set state.place state.bucket)
        (ahead buckets.length place i) = inHand buckets bucket place i) ∧
      ∀ i, turn + 1 ≤ i → i < buckets.length →
        bucketAt (state.buckets.set state.place state.bucket) (ahead buckets.length place i) =
          bucketAt buckets (ahead buckets.length place i) := by
  have stateLt : state.place < state.buckets.length := by
    rw [exchanged.here, exchanged.count]
    exact ahead_lt below turn
  have elsewhere {i : ℕ} (iLt : i < buckets.length) (distinct : i ≠ turn) :
      ahead buckets.length place i ≠ state.place := by
    rw [exchanged.here]
    exact fun same => distinct (ahead_inj below iLt inside same)
  constructor
  · intro i near
    rcases Nat.lt_or_ge i turn with earlier | last
    · rw [bucketAt_set_of_ne (elsewhere (by omega) (by omega)), exchanged.written i earlier]
    · obtain rfl : i = turn := by omega
      rw [← exchanged.here, bucketAt_set_self stateLt, exchanged.hand]
  · intro i later iLt
    rw [bucketAt_set_of_ne (elsewhere iLt (by omega)), exchanged.kept i (by omega) iLt]

theorem exchanged_iterate (below : place < buckets.length) {turn : ℕ}
    (inside : turn < buckets.length) : Exchanged buckets bucket place turn
      (ShiftUp.exchange^[turn] ⟨buckets, bucket, place⟩) := by
  induction turn with
  | zero =>
      rw [Function.iterate_zero, id]
      exact ⟨rfl, rfl, rfl, by simp, by simp⟩
  | succ turn ih =>
      rw [Function.iterate_succ_apply']
      have before := ih (by omega)
      have written := before.write below (by omega)
      refine ⟨?_, ?_, ?_, written.1, written.2⟩
      · simp only [ShiftUp.exchange, List.length_set, before.count]
      · simp only [ShiftUp.exchange, before.count, before.here, ahead_succ]
      · simp only [ShiftUp.exchange, inHand]
        rw [before.here, before.kept turn (Nat.le_refl turn) (by omega)]

/-- `place_and_shift_up` puts the bucket at its place and moves the stretch from there on. -/
theorem placeAndShiftUp_spec (table : DenseTable κ ν) (bucket : Bucket)
    (below : place < table.bucketCount)
    (stretch : Stretch table.bucketCount (slots table.buckets) place length)
    (light : ∀ i < length,
      (slots table.buckets (ahead table.bucketCount place i)).weight + 256 < 2 ^ 32) :
    ∃ after : List Bucket, table.placeAndShiftUp bucket place =
        some { table with buckets := after } ∧ after.length = table.bucketCount ∧
      Raised table.bucketCount 256 (slots table.buckets) (slots after) place length
        bucket.slot := by
  unfold bucketCount at *
  have exchanged {turn : ℕ} (inside : turn < table.buckets.length) :
      Exchanged table.buckets bucket place turn
        (ShiftUp.exchange^[turn] ⟨table.buckets, bucket, place⟩) :=
    exchanged_iterate below inside
  have looked {turn : ℕ} (inside : turn < table.buckets.length) :
      bucketAt (ShiftUp.exchange^[turn] ⟨table.buckets, bucket, place⟩).buckets
          (ShiftUp.exchange^[turn] ⟨table.buckets, bucket, place⟩).place =
        bucketAt table.buckets (ahead table.buckets.length place turn) := by
    rw [(exchanged inside).here, (exchanged inside).kept turn (Nat.le_refl turn) inside]
  have inside := stretch.below
  have final := exchanged inside
  have written := final.write below inside
  refine ⟨(ShiftUp.exchange^[length] ⟨table.buckets, bucket, place⟩).buckets.set
    (ShiftUp.exchange^[length] ⟨table.buckets, bucket, place⟩).place
    (ShiftUp.exchange^[length] ⟨table.buckets, bucket, place⟩).bucket, ?_, ?_, ?_, ?_, ?_⟩
  · rw [placeAndShiftUp, bucketCount, Loop.run_whileBody inside]
    · rfl
    · intro turn near
      rw [looked (by omega)]
      exact decide_eq_true (stretch.occupied turn near)
    · rw [looked inside]
      exact decide_eq_false (not_not_intro stretch.empty)
  · rw [List.length_set, final.count]
  · have first := written.1 0 (by omega)
    rw [ahead_zero] at first
    rw [slots, first]
    rfl
  · intro i near
    rw [slots]
    rw [written.1 (i + 1) (by omega)]
    have noWrap := light i near
    simp only [inHand, Bucket.slot, slots] at noWrap ⊢
    rw [distInc_of_lt noWrap]
  · intro i far iLt
    rw [slots,
      written.2 i (by omega) iLt]
    rfl

/-- What the rounds of `erase_and_shift_down` have done so far. -/
structure Pulled (buckets : List Bucket) (place turn : ℕ) (state : ShiftDown) : Prop where
  count : state.buckets.length = buckets.length
  here : state.bucketIdx = ahead buckets.length place turn
  written : ∀ i < turn, bucketAt state.buckets (ahead buckets.length place i) =
    ⟨distDec (bucketAt buckets (ahead buckets.length place (i + 1))).distAndFingerprint,
      (bucketAt buckets (ahead buckets.length place (i + 1))).valueIdx⟩
  kept : ∀ i, turn ≤ i → i < buckets.length →
    bucketAt state.buckets (ahead buckets.length place i) =
      bucketAt buckets (ahead buckets.length place i)

theorem Pulled.nextBucket {turn : ℕ} {state : ShiftDown}
    (pulled : Pulled buckets place turn state) (inside : turn + 1 < buckets.length) :
    state.nextBucket = bucketAt buckets (ahead buckets.length place (turn + 1)) := by
  rw [ShiftDown.nextBucket, pulled.count, pulled.here, ← ahead_succ,
    pulled.kept (turn + 1) (by omega) inside]

theorem pulled_iterate (below : place < buckets.length) {turn : ℕ}
    (inside : turn < buckets.length) : Pulled buckets place turn
      (ShiftDown.pull^[turn] ⟨buckets, place⟩) := by
  induction turn with
  | zero =>
      rw [Function.iterate_zero, id]
      exact ⟨rfl, rfl, by simp, by simp⟩
  | succ turn ih =>
      rw [Function.iterate_succ_apply']
      have before := ih (by omega)
      have beforeLt : (ShiftDown.pull^[turn] ⟨buckets, place⟩).bucketIdx <
          (ShiftDown.pull^[turn] ⟨buckets, place⟩).buckets.length := by
        rw [before.here, before.count]
        exact ahead_lt below turn
      have elsewhere {i : ℕ} (iLt : i < buckets.length) (distinct : i ≠ turn) :
          ahead buckets.length place i ≠ (ShiftDown.pull^[turn] ⟨buckets, place⟩).bucketIdx := by
        rw [before.here]
        exact fun same => distinct (ahead_inj below iLt (by omega) same)
      refine ⟨?_, ?_, ?_, ?_⟩
      · simp only [ShiftDown.pull, List.length_set, before.count]
      · simp only [ShiftDown.pull, before.count, before.here, ahead_succ]
      · intro i near
        simp only [ShiftDown.pull]
        rcases Nat.lt_or_ge i turn with earlier | last
        · rw [bucketAt_set_of_ne (elsewhere (by omega) (by omega)), before.written i earlier]
        · obtain rfl : i = turn := by omega
          rw [← before.here, bucketAt_set_self beforeLt, before.nextBucket (by omega)]
      · intro i later iLt
        simp only [ShiftDown.pull]
        rw [bucketAt_set_of_ne (elsewhere iLt (by omega)), before.kept i (by omega) iLt]

/-- `erase_and_shift_down` moves the tail behind a bucket back over it. -/
theorem eraseAndShiftDown_spec (table : DenseTable κ ν) (below : place < table.bucketCount)
    (tail : Tail table.bucketCount 256 (slots table.buckets) place length)
    (light : ∀ i < length,
      (slots table.buckets (ahead table.bucketCount place (i + 1))).weight < 2 ^ 32) :
    ∃ after : List Bucket, table.eraseAndShiftDown place =
        some { table with buckets := after } ∧ after.length = table.bucketCount ∧
      Lowered table.bucketCount 256 (slots table.buckets) (slots after) place length := by
  unfold bucketCount at *
  have pulled {turn : ℕ} (inside : turn < table.buckets.length) := pulled_iterate below inside
  have inside := tail.below
  have lengthLt : length < table.buckets.length := by omega
  have final := pulled lengthLt
  have finalLt : (ShiftDown.pull^[length] ⟨table.buckets, place⟩).bucketIdx <
      (ShiftDown.pull^[length] ⟨table.buckets, place⟩).buckets.length := by
    rw [final.here, final.count]
    exact ahead_lt below length
  have elsewhere {i : ℕ} (iLt : i < table.buckets.length) (distinct : i ≠ length) :
      ahead table.buckets.length place i ≠
        (ShiftDown.pull^[length] ⟨table.buckets, place⟩).bucketIdx := by
    rw [final.here]
    exact fun same => distinct (ahead_inj below iLt lengthLt same)
  refine ⟨(ShiftDown.pull^[length] ⟨table.buckets, place⟩).buckets.set
    (ShiftDown.pull^[length] ⟨table.buckets, place⟩).bucketIdx default, ?_, ?_, ?_, ?_, ?_⟩
  · rw [eraseAndShiftDown, bucketCount, Loop.run_whileBody lengthLt]
    · rfl
    · intro turn near
      rw [(pulled (by omega)).nextBucket (by omega)]
      exact decide_eq_true (by rw [Nat.mul_comm]; exact tail.away turn near)
    · rw [final.nextBucket inside]
      exact decide_eq_false (by rw [Nat.mul_comm]; exact Nat.not_le.mpr tail.ends)
  · rw [List.length_set, final.count]
  · intro i near
    rw [slots,
      bucketAt_set_of_ne (elsewhere (by omega) (by omega)), final.written i near]
    have away := tail.away i near
    have noWrap := light i near
    simp only [Bucket.slot, slots] at away noWrap ⊢
    rw [distDec_of_le (by omega) noWrap]
  · rw [slots, ← final.here,
      bucketAt_set_self finalLt]
    rfl
  · intro i far iLt
    rw [slots,
      bucketAt_set_of_ne (elsewhere iLt (by omega)), final.kept i (by omega) iLt]
    rfl

end DenseTable

end GodotStream
