import Mathlib.Algebra.Order.Floor.Ring
import Mathlib.Algebra.Order.Field.Basic
import Mathlib.Data.Int.Bitwise
import Mathlib.Data.Int.ConditionallyCompleteOrder
import Mathlib.Order.CompletePartialOrder
import Mathlib.Tactic.Linarith
import Mathlib.Tactic.Positivity
import Mathlib.Tactic.Push

/-!
# Truncation and power-of-two grids

Arithmetic shared by spatial indexes that store real coordinates as integers:
truncation toward zero, rounding down to a multiple of a grid spacing, and the
bit mask that implements the rounding on two's complement words.
-/

namespace IntegerGrid

universe u

section Truncation

variable {K : Type u} [Field K] [LinearOrder K] [IsStrictOrderedRing K] [FloorRing K]

/-- Conversion to an integer that drops the fractional part. -/
def truncate (a : K) : ℤ :=
  if 0 ≤ a then ⌊a⌋ else ⌈a⌉

@[simp]
theorem truncate_intCast (n : ℤ) : truncate (n : K) = n := by
  simp [truncate]

/-- Truncation rounds down from zero on; below it keeps only whole numbers. -/
theorem truncate_le_iff {a : K} : (truncate a : K) ≤ a ↔ 0 ≤ a ∨ Int.fract a = 0 := by
  rw [Int.fract_eq_zero_iff]
  unfold truncate
  split
  case isTrue nonneg => simp only [nonneg, Int.floor_le, true_or]
  case isFalse negative =>
    rw [← Int.ceil_eq_self_iff_mem]
    simp only [negative, false_or]
    constructor
    · intro ceilLe
      exact le_antisymm ceilLe (Int.le_ceil a)
    · intro whole
      exact whole.le

/-- Truncation rounds up to zero; above it keeps only whole numbers. -/
theorem le_truncate_iff {a : K} : a ≤ truncate a ↔ a ≤ 0 ∨ Int.fract a = 0 := by
  rw [Int.fract_eq_zero_iff]
  unfold truncate
  split
  case isTrue nonneg =>
    rw [← Int.floor_eq_self_iff_mem]
    constructor
    · intro leFloor
      exact Or.inr (le_antisymm (Int.floor_le a) leFloor)
    · rintro (nonpos | whole)
      · have isZero : a = 0 := le_antisymm nonpos nonneg
        simp [isZero]
      · exact whole.ge
  case isFalse negative => simp only [(not_le.mp negative).le, Int.le_ceil, true_or]

theorem truncate_eq_floor_of_le {a : K} (down : (truncate a : K) ≤ a) : truncate a = ⌊a⌋ := by
  apply le_antisymm (Int.le_floor.mpr down)
  unfold truncate
  split
  · exact le_rfl
  · exact Int.floor_le_ceil a

theorem truncate_eq_ceil_of_le {a : K} (up : a ≤ truncate a) : truncate a = ⌈a⌉ := by
  apply le_antisymm _ (Int.ceil_le.mpr up)
  unfold truncate
  split
  · exact Int.floor_le_ceil a
  · exact le_rfl

theorem truncate_mono : Monotone (truncate : K → ℤ) := by
  intro a b le
  unfold truncate
  split <;> split
  · exact Int.floor_le_floor le
  · linarith
  case _ negative nonneg =>
    have : ⌈a⌉ ≤ 0 := Int.ceil_le.mpr (by push_cast; linarith)
    have : 0 ≤ ⌊b⌋ := Int.floor_nonneg.mpr nonneg
    omega
  · exact Int.ceil_le_ceil le

/-- The values below `b` that truncate to at most `n`: above zero truncation drops a fraction,
so the bound is one unit wider there. -/
theorem truncate_le_of_lt {a b : K} {n : ℤ} (below : a < b)
    (bounded : b ≤ n + if 0 < b then 1 else 0) : truncate a ≤ n := by
  unfold truncate
  split_ifs at bounded with positive
  · split
    · have : (⌊a⌋ : K) < n + 1 := lt_of_le_of_lt (Int.floor_le a) (by linarith)
      exact_mod_cast Int.lt_add_one_iff.mp (by exact_mod_cast this)
    case isFalse negative =>
      have ceilLe : ⌈a⌉ ≤ 0 := Int.ceil_le.mpr (by push_cast; linarith)
      have : (-1 : K) < n := by linarith
      have : -1 < n := by exact_mod_cast this
      omega
  · split
    · linarith
    · exact Int.ceil_le.mpr (by linarith)

/-- Past that bound some value just below `b` truncates to more than `n`. -/
theorem exists_lt_truncate {b c : K} {n : ℤ} (above : (n : K) + (if 0 < b then 1 else 0) < b)
    (room : c < b) : ∃ a, c < a ∧ a < b ∧ n < truncate a := by
  split_ifs at above with positive
  · -- any value between `n + 1` and `b` will do, taken nonnegative
    have lower : max (max c (n + 1)) 0 < b := max_lt (max_lt room above) positive
    obtain ⟨a, larger, smaller⟩ := exists_between lower
    have nonneg : 0 ≤ a := (le_max_right _ _).trans larger.le
    have past : (n : K) + 1 ≤ a := ((le_max_right _ _).trans (le_max_left _ _)).trans larger.le
    refine ⟨a, ((le_max_left _ _).trans (le_max_left _ _)).trans_lt larger, smaller, ?_⟩
    have : n + 1 ≤ ⌊a⌋ := Int.le_floor.mpr (by push_cast; exact past)
    simp only [truncate, nonneg, if_true]
    omega
  · have lower : max c n < b := max_lt room (by linarith)
    obtain ⟨a, larger, smaller⟩ := exists_between lower
    refine ⟨a, (le_max_left _ _).trans_lt larger, smaller, ?_⟩
    have past : (n : K) < a := (le_max_right _ _).trans_lt larger
    have negative : ¬ 0 ≤ a := by push Not at positive ⊢; linarith
    simp only [truncate, negative, if_false]
    exact Int.lt_ceil.mpr past

end Truncation

section Rounding

/-- Round an integer down to a multiple of the spacing. -/
def floorTo (spacing n : ℤ) : ℤ :=
  n - n % spacing

theorem floorTo_le {spacing : ℤ} (positive : 0 < spacing) (n : ℤ) : floorTo spacing n ≤ n := by
  have := Int.emod_nonneg n positive.ne'
  unfold floorTo
  omega

theorem lt_floorTo_add {spacing : ℤ} (positive : 0 < spacing) (n : ℤ) :
    n < floorTo spacing n + spacing := by
  have := Int.emod_lt_of_pos n positive
  unfold floorTo
  omega

theorem dvd_floorTo (spacing n : ℤ) : spacing ∣ floorTo spacing n :=
  Int.dvd_self_sub_emod

/-- No multiple of the spacing lies between an integer and the rounded one. -/
theorem le_floorTo_iff {spacing bound n : ℤ} (positive : 0 < spacing) (divides : spacing ∣ bound) :
    bound ≤ floorTo spacing n ↔ bound ≤ n := by
  constructor
  · intro le
    exact le.trans (floorTo_le positive n)
  · intro le
    rcases dvd_sub divides (dvd_floorTo spacing n) with ⟨gap, gapEq⟩
    have above := lt_floorTo_add positive n
    have gapSmall : spacing * gap < spacing * 1 := by omega
    have gapNonpos : gap ≤ 0 := Int.lt_add_one_iff.mp (lt_of_mul_lt_mul_left gapSmall positive.le)
    have := mul_nonpos_of_nonneg_of_nonpos positive.le gapNonpos
    omega

theorem floorTo_add_le_iff {spacing bound n : ℤ} (positive : 0 < spacing)
    (divides : spacing ∣ bound) : floorTo spacing n + spacing ≤ bound ↔ n < bound := by
  constructor
  · intro le
    exact (lt_floorTo_add positive n).trans_le le
  · intro lt
    rcases dvd_sub divides (dvd_floorTo spacing n) with ⟨gap, gapEq⟩
    have below := floorTo_le positive n
    have gapLarge : spacing * 0 < spacing * gap := by omega
    have gapPos : 1 ≤ gap := Int.add_one_le_iff.mpr (lt_of_mul_lt_mul_left gapLarge positive.le)
    have := mul_le_mul_of_nonneg_left gapPos positive.le
    omega

theorem floorTo_eq_iff {spacing n m : ℤ} (positive : 0 < spacing) :
    floorTo spacing n = floorTo spacing m ↔
      floorTo spacing m ≤ n ∧ n < floorTo spacing m + spacing := by
  constructor
  · intro same
    rw [← same]
    exact ⟨floorTo_le positive n, lt_floorTo_add positive n⟩
  · rintro ⟨above, below⟩
    have divides := dvd_floorTo spacing m
    apply le_antisymm
    · have := (floorTo_add_le_iff positive (dvd_add divides dvd_rfl)).mpr below
      omega
    · exact (le_floorTo_iff positive divides).mpr above

/-- Rounding to a grid and then to a coarser one that contains it. -/
theorem floorTo_floorTo {fine coarse : ℤ} (positive : 0 < fine) (divides : fine ∣ coarse)
    (coarsePositive : 0 < coarse) (n : ℤ) :
    floorTo coarse (floorTo fine n) = floorTo coarse n := by
  rw [floorTo_eq_iff coarsePositive]
  have corner : fine ∣ floorTo coarse n := divides.trans (dvd_floorTo coarse n)
  constructor
  · exact (le_floorTo_iff positive corner).mpr (floorTo_le coarsePositive n)
  · exact (floorTo_le positive n).trans_lt (lt_floorTo_add coarsePositive n)

end Rounding

section Cells

variable {ι : Type u} {spacing fine coarse : ℤ}

/-- The integer points of the half-open cube with the given least corner and edge. -/
def cube (corner : ι → ℤ) (edge : ℤ) : Set (ι → ℤ) :=
  {point | ∀ i, corner i ≤ point i ∧ point i < corner i + edge}

/-- The cell that contains a point. -/
def cellOf (spacing : ℤ) (point : ι → ℤ) : Set (ι → ℤ) :=
  cube (fun i => floorTo spacing (point i)) spacing

theorem mem_cellOf_iff (positive : 0 < spacing) {point other : ι → ℤ} :
    other ∈ cellOf spacing point ↔
      ∀ i, floorTo spacing (other i) = floorTo spacing (point i) :=
  forall_congr' fun _ => (floorTo_eq_iff positive).symm

theorem self_mem_cellOf (positive : 0 < spacing) (point : ι → ℤ) : point ∈ cellOf spacing point :=
  (mem_cellOf_iff positive).mpr fun _ => rfl

/-- The cells of nested grids are laminar. -/
theorem cellOf_subset_or_disjoint (positive : 0 < fine) (divides : fine ∣ coarse)
    (coarsePositive : 0 < coarse) (a b : ι → ℤ) :
    cellOf fine a ⊆ cellOf coarse b ∨ Disjoint (cellOf fine a) (cellOf coarse b) := by
  -- the fine cell fixes the coarse one of each of its points
  have coarseEq : ∀ point ∈ cellOf fine a, ∀ i,
      floorTo coarse (point i) = floorTo coarse (a i) := by
    intro point inFine i
    rw [← floorTo_floorTo positive divides coarsePositive, (mem_cellOf_iff positive).mp inFine i,
      floorTo_floorTo positive divides coarsePositive]
  by_cases same : ∀ i, floorTo coarse (a i) = floorTo coarse (b i)
  · left
    intro point inFine
    rw [mem_cellOf_iff coarsePositive]
    intro i
    rw [coarseEq point inFine i, same i]
  · right
    apply Set.disjoint_left.mpr
    intro point inFine inCoarse
    apply same
    intro i
    rw [← coarseEq point inFine i, (mem_cellOf_iff coarsePositive).mp inCoarse i]

end Cells

section Mask

variable {w : ℕ}

/-- Clearing the low `k` bits of a word. -/
def clearLow (k : ℕ) (word : BitVec w) : BitVec w :=
  word &&& ~~~((1#w <<< k) - 1#w)

theorem toNat_lowMask {k : ℕ} (fits : k < w) : ((1#w <<< k) - 1#w).toNat = 2 ^ k - 1 := by
  have powLt : 2 ^ k < 2 ^ w := Nat.pow_lt_pow_right (by omega) fits
  have powPos : 0 < 2 ^ k := Nat.two_pow_pos k
  have oneMod : 1 % 2 ^ w = 1 := Nat.mod_eq_of_lt (by omega)
  rw [BitVec.toNat_sub_of_le, BitVec.toNat_shiftLeft, BitVec.toNat_ofNat, oneMod]
  · simp [Nat.shiftLeft_eq, Nat.mod_eq_of_lt powLt]
  · rw [BitVec.le_def, BitVec.toNat_shiftLeft, BitVec.toNat_ofNat, oneMod]
    simp only [Nat.shiftLeft_eq, one_mul, Nat.mod_eq_of_lt powLt]
    omega

theorem toNat_clearLow {k : ℕ} (fits : k < w) (word : BitVec w) :
    (clearLow k word).toNat = word.toNat / 2 ^ k * 2 ^ k := by
  have powPos : 0 < 2 ^ k := Nat.two_pow_pos k
  apply Nat.eq_of_testBit_eq
  intro i
  have maskBit : ((1#w <<< k) - 1#w).getLsbD i = decide (i < k) := by
    rw [BitVec.getLsbD, toNat_lowMask fits, Nat.testBit_two_pow_sub_one]
  rw [Nat.testBit_mul_two_pow, Nat.testBit_div_two_pow]
  change (clearLow k word).getLsbD i = _
  simp only [clearLow, BitVec.getLsbD_and, BitVec.getLsbD_not, maskBit]
  by_cases low : i < k
  · simp [low, Nat.not_le.mpr low]
  · have high : k ≤ i := Nat.le_of_not_lt low
    have index : i - k + k = i := by omega
    simp only [low, decide_false, Bool.not_false, Bool.and_true, high, decide_true,
      Bool.true_and, index]
    by_cases inside : i < w
    · simp [inside, BitVec.getLsbD]
    · rw [BitVec.testBit_toNat, BitVec.getLsbD_of_ge word i (by omega)]
      simp

/-- On two's complement words clearing low bits rounds down to the grid. -/
theorem toInt_clearLow {k : ℕ} (fits : k < w) (word : BitVec w) :
    (clearLow k word).toInt = floorTo (2 ^ k) word.toInt := by
  have divides : (2 : ℤ) ^ k ∣ 2 ^ w := pow_dvd_pow 2 fits.le
  have natDivides : 2 ^ k ∣ 2 ^ (w - 1) := pow_dvd_pow 2 (by omega)
  have double : 2 ^ w = 2 * 2 ^ (w - 1) := by
    rw [← pow_succ']
    congr 1
    omega
  have rounded : ((word.toNat / 2 ^ k * 2 ^ k : ℕ) : ℤ) = floorTo (2 ^ k) word.toNat := by
    have split := Nat.div_add_mod' word.toNat (2 ^ k)
    unfold floorTo
    have cast : ((word.toNat % 2 ^ k : ℕ) : ℤ) = (word.toNat : ℤ) % 2 ^ k := by push_cast; rfl
    rw [← cast]
    omega
  -- rounding down to a divisor of the sign bit's weight keeps the sign bit
  have sign : 2 * (word.toNat / 2 ^ k * 2 ^ k) < 2 ^ w ↔ 2 * word.toNat < 2 ^ w := by
    obtain ⟨half, halfEq⟩ := natDivides
    constructor
    · intro small
      by_contra large
      have atLeast : 2 ^ k * half ≤ word.toNat := by rw [← halfEq]; omega
      have : half ≤ word.toNat / 2 ^ k := (Nat.le_div_iff_mul_le (Nat.two_pow_pos k)).mpr
        (by rwa [mul_comm])
      have : half * 2 ^ k ≤ word.toNat / 2 ^ k * 2 ^ k := Nat.mul_le_mul_right _ this
      rw [mul_comm half, ← halfEq] at this
      omega
    · intro small
      have := Nat.div_mul_le_self word.toNat (2 ^ k)
      omega
  rw [BitVec.toInt_eq_toNat_cond, BitVec.toInt_eq_toNat_cond, toNat_clearLow fits, rounded]
  by_cases small : 2 * word.toNat < 2 ^ w
  · rw [if_pos small, if_pos (sign.mpr small)]
  · rw [if_neg small, if_neg (fun h => small (sign.mp h))]
    unfold floorTo
    have shift : ((word.toNat : ℤ) - ((2 ^ w : ℕ) : ℤ)) % 2 ^ k = (word.toNat : ℤ) % 2 ^ k := by
      obtain ⟨multiple, multipleEq⟩ := divides
      push_cast
      rw [multipleEq, Int.sub_mul_emod_self_left]
    rw [shift]
    omega

end Mask

end IntegerGrid
