import Mathlib.Algebra.Order.Floor.Semiring
import Mathlib.Analysis.SpecialFunctions.Log.Base
import Mathlib.Analysis.Complex.ExponentialBounds
import Mathlib.Data.Nat.Log
import GodotStream.Geometry

/-!
# Chunks of the world grid

Model of `chunk.h`. The level of a box is meant to be the least one whose tiles, with
edges of length `4 ^ level`, are as long as the largest extent. The corner of the box
is then rounded down to the grid of that level with a bit mask.

The source estimates the level as `ceil(log2(m) / 2.0)`, with a logarithm in single
precision, and corrects an estimate that is one too low by a comparison of whole
numbers. Just above a power of four the logarithm rounds down to the even integer, and
the comparison drops the fraction: such an extent keeps the level below.
`Chunk.estimateLevel_le_iff_logb` relates the estimate to the logarithm.
-/

namespace GodotStream

open IntegerGrid

/-- `struct Chunk`: the coordinates are signed 32-bit integers. -/
structure Chunk where
  x : ℤ
  y : ℤ
  z : ℤ
  level : ℕ
deriving DecidableEq

namespace Chunk

def coord (chunk : Chunk) : Axis → ℤ
  | .x => chunk.x
  | .y => chunk.y
  | .z => chunk.z

def maxExtent (box : AABB) : ℚ :=
  max (max (max box.size.x box.size.y) box.size.z) 0

/-- The least level whose tile edge reaches `m`. -/
def leastLevel (m : ℚ) : ℕ :=
  Nat.clog 4 ⌈m⌉₊

/-- How many single-precision numbers above `4 ^ level` have a logarithm that rounds to
`2 * level`, for levels of single-precision numbers. -/
def log2Slack (level : ℕ) : ℕ :=
  if level < 2 then 0
  else if level < 4 then 1
  else if level < 8 then 2
  else if level < 16 then 5
  else if level < 32 then 11
  else 22

/-- The greatest single-precision number whose logarithm to base 2 rounds to `2 * level`. -/
def log2Reach (level : ℕ) : ℚ :=
  4 ^ level * (1 + log2Slack level / 2 ^ 23)

/-- `ceil(log2(m) / 2.0)` with the logarithm in single precision. -/
def estimateLevel (m : ℚ) : ℕ :=
  let least := leastLevel m
  if 0 < least ∧ m ≤ log2Reach (least - 1) then least - 1 else least

/-- The correction step after the estimate. -/
def correctLevel (estimate : ℕ) (m : ℚ) : ℕ :=
  if estimate < 32 ∧ 2 ^ (2 * estimate) < ⌊m⌋₊ then estimate + 1 else estimate

def computeLevel (m : ℚ) : ℕ :=
  -- the estimate is stored in a `uint8_t`
  let level := if m ≤ 1 then 0 else correctLevel (estimateLevel m % 2 ^ 8) m
  if level > 31 then 0 else level

def mask (level : ℕ) : BitVec 32 :=
  if 2 * level < 32 then ~~~((1#32 <<< (2 * level)) - 1#32) else 0#32

def tileCoord (level : ℕ) (a : ℚ) : ℤ :=
  (BitVec.ofInt 32 (truncate a) &&& mask level).toInt

def computeChunk (box : AABB) : Chunk :=
  let level := computeLevel (maxExtent box)
  { x := tileCoord level box.position.x
    y := tileCoord level box.position.y
    z := tileCoord level box.position.z
    level := level }

theorem leastLevel_le_iff {m : ℚ} {level : ℕ} : leastLevel m ≤ level ↔ m ≤ 4 ^ level := by
  simp only [leastLevel, Nat.clog_le_iff_le_pow (by decide : 1 < 4), Nat.ceil_le]
  norm_cast

theorem le_four_pow_leastLevel (m : ℚ) : m ≤ 4 ^ leastLevel m :=
  leastLevel_le_iff.mp le_rfl

theorem isLeast_leastLevel (m : ℚ) : IsLeast {level : ℕ | m ≤ 4 ^ level} (leastLevel m) :=
  ⟨le_four_pow_leastLevel m, fun _ reached => leastLevel_le_iff.mpr reached⟩

section Estimate

theorem log2Slack_le (level : ℕ) : log2Slack level ≤ 22 := by
  unfold log2Slack
  split_ifs <;> omega

theorem four_pow_le_log2Reach (level : ℕ) : (4 : ℚ) ^ level ≤ log2Reach level := by
  have slack : (0 : ℚ) ≤ log2Slack level / 2 ^ 23 :=
    div_nonneg (Nat.cast_nonneg _) (by norm_num)
  have power : (0 : ℚ) ≤ 4 ^ level := by positivity
  rw [log2Reach]
  exact le_mul_of_one_le_right power (by linarith)

/-- The reach of a level is far below the next power of four. -/
theorem log2Reach_lt_four_pow (level : ℕ) : log2Reach level < 4 ^ (level + 1) := by
  have slack : (log2Slack level : ℚ) ≤ 22 := by exact_mod_cast log2Slack_le level
  have factor : (1 + log2Slack level / 2 ^ 23 : ℚ) < 4 := by
    norm_num
    linarith
  have power : (0 : ℚ) < 4 ^ level := by positivity
  calc log2Reach level < 4 ^ level * 4 := mul_lt_mul_of_pos_left factor power
    _ = 4 ^ (level + 1) := (pow_succ _ _).symm

/-- When every level that reaches `m` is kept, and every kept one misses it by less than the next
tile, the least kept level is the least one that reaches `m` or the one below. -/
theorem least_or_below {m : ℚ} (kept : ℕ → Prop) [DecidablePred kept]
    (reaches : ∀ level, m ≤ 4 ^ level → kept level)
    (next : ∀ level, kept level → m ≤ 4 ^ (level + 1)) (level : ℕ) :
    (if 0 < leastLevel m ∧ kept (leastLevel m - 1) then leastLevel m - 1
      else leastLevel m) ≤ level ↔ kept level := by
  have atLeast (lower : ℕ) (keeps : kept lower) : leastLevel m ≤ lower + 1 :=
    leastLevel_le_iff.mpr (next lower keeps)
  split
  case isTrue early =>
    constructor
    · intro le
      rcases Nat.eq_or_lt_of_le le with same | lt
      · exact same ▸ early.2
      · exact reaches level (leastLevel_le_iff.mp (by omega))
    · intro keeps
      have := atLeast level keeps
      omega
  case isFalse late =>
    constructor
    · intro le
      exact reaches level (leastLevel_le_iff.mp le)
    · intro keeps
      by_contra lt
      have levelEq : level = leastLevel m - 1 := by
        have := atLeast level keeps
        omega
      exact late ⟨by omega, levelEq ▸ keeps⟩

/-- The estimate is the least level whose reach is not exceeded. -/
theorem estimateLevel_le_iff {m : ℚ} {level : ℕ} :
    estimateLevel m ≤ level ↔ m ≤ log2Reach level :=
  least_or_below (fun level => m ≤ log2Reach level)
    (fun level reached => reached.trans (four_pow_le_log2Reach level))
    (fun level kept => kept.trans (log2Reach_lt_four_pow level).le) level

/-- The slack is the whole part of `2 ^ Nat.log 2 level * log 2`, with room above. -/
theorem log2Slack_bounds {level : ℕ} (positive : 0 < level) (bounded : level < 64) :
    (log2Slack level : ℝ) ≤ 2 ^ Nat.log 2 level * Real.log 2 ∧
      2 ^ Nat.log 2 level * Real.log 2 * (1 + 1 / 2 ^ 17) < log2Slack level + 1 := by
  have lower := Real.log_two_gt_d9
  have upper := Real.log_two_lt_d9
  have logEq (power : ℕ) (low : 2 ^ power ≤ level) (high : level < 2 ^ (power + 1)) :
      Nat.log 2 level = power := Nat.log_eq_of_pow_le_of_lt_pow low high
  unfold log2Slack
  split_ifs
  · rw [logEq 0 (by omega) (by omega)]
    norm_num
    constructor <;> linarith
  · rw [logEq 1 (by omega) (by omega)]
    norm_num
    constructor <;> linarith
  · rw [logEq 2 (by omega) (by omega)]
    norm_num
    constructor <;> linarith
  · rw [logEq 3 (by omega) (by omega)]
    norm_num
    constructor <;> linarith
  · rw [logEq 4 (by omega) (by omega)]
    norm_num
    constructor <;> linarith
  · rw [logEq 5 (by omega) (by omega)]
    norm_num
    constructor <;> linarith

/-- A single-precision number above `4 ^ level` is a multiple of the spacing there. -/
theorem exists_of_single {m : ℚ} (single : Rounding.toSingle m = m) {level : ℕ}
    (above : 4 ^ level < m) : ∃ n : ℤ, m = n * (4 ^ level / 2 ^ 23) := by
  have power : (4 : ℚ) ^ level = 2 ^ (2 * level : ℤ) := by
    rw [zpow_mul]
    norm_num
  have large : (2 * level : ℤ) ≤ Rounding.exponent m := by
    have lt : (2 : ℚ) ^ (2 * level : ℤ) < 2 ^ (Rounding.exponent m + 1) :=
      (power ▸ above).trans_le ((le_abs_self m).trans (Rounding.abs_lt_exponent m).le)
    have := (zpow_lt_zpow_iff_right₀ (by norm_num : (1 : ℚ) < 2)).mp lt
    omega
  rcases Int.eq_ofNat_of_zero_le (by omega : 0 ≤ Rounding.exponent m - 2 * level) with
    ⟨rest, restEq⟩
  refine ⟨Rounding.nearest (m / Rounding.unit m) * 2 ^ rest, ?_⟩
  have unitEq : Rounding.unit m = 2 ^ rest * (4 ^ level / 2 ^ 23) := by
    rw [Rounding.unit, power, ← zpow_natCast, ← zpow_natCast (2 : ℚ) 23,
      ← zpow_sub₀ two_ne_zero, ← zpow_add₀ two_ne_zero, ← restEq]
    congr 1
    push_cast
    ring
  push_cast
  rw [mul_assoc, ← unitEq]
  exact single.symm

/-- The next single-precision number after the reach of a level. -/
theorem le_of_log2Reach_lt {m : ℚ} (single : Rounding.toSingle m = m) {level : ℕ}
    (beyond : log2Reach level < m) : 4 ^ level * (1 + (log2Slack level + 1) / 2 ^ 23) ≤ m := by
  rcases exists_of_single single ((four_pow_le_log2Reach level).trans_lt beyond) with ⟨n, mEq⟩
  have spacing : (0 : ℚ) < 4 ^ level / 2 ^ 23 := by positivity
  have reachEq : log2Reach level =
      (2 ^ 23 + (log2Slack level : ℤ) : ℤ) * (4 ^ level / 2 ^ 23) := by
    rw [log2Reach]
    push_cast
    ring
  have nGe : 2 ^ 23 + (log2Slack level : ℤ) + 1 ≤ n := by
    rw [mEq, reachEq] at beyond
    exact_mod_cast lt_of_mul_lt_mul_right beyond spacing.le
  have nCast : (2 ^ 23 + (log2Slack level : ℚ) + 1) ≤ n := by exact_mod_cast nGe
  calc (4 : ℚ) ^ level * (1 + (log2Slack level + 1) / 2 ^ 23)
      = (2 ^ 23 + (log2Slack level : ℚ) + 1) * (4 ^ level / 2 ^ 23) := by ring
    _ ≤ (n : ℚ) * (4 ^ level / 2 ^ 23) := mul_le_mul_of_nonneg_right nCast spacing.le
    _ = m := mEq.symm

/-- `log (1 + x)` is at least `x / (1 + x)`, and the slack is small. -/
theorem lt_log_of_slack {slack : ℕ} {bound ratio : ℝ} (small : slack ≤ 22) (nonneg : 0 ≤ bound)
    (below : bound * (1 + 1 / 2 ^ 17) < slack + 1)
    (ratioGe : 1 + (slack + 1) / 2 ^ 23 ≤ ratio) : bound / 2 ^ 23 < Real.log ratio := by
  have slackSmall : (slack : ℝ) ≤ 22 := by exact_mod_cast small
  have positive : (0 : ℝ) < 1 + (slack + 1) / 2 ^ 23 := by positivity
  have factor : bound * (1 + (slack + 1) / 2 ^ 23) ≤ bound * (1 + 1 / 2 ^ 17) := by
    apply mul_le_mul_of_nonneg_left _ nonneg
    norm_num
    linarith
  calc bound / 2 ^ 23 < (slack + 1) / 2 ^ 23 / (1 + (slack + 1) / 2 ^ 23) := by
        rw [lt_div_iff₀ positive, div_mul_eq_mul_div]
        exact div_lt_div_of_pos_right (factor.trans_lt below) (by positivity)
    _ = 1 - (1 + (slack + 1) / 2 ^ 23 : ℝ)⁻¹ := by field_simp; ring
    _ ≤ Real.log (1 + (slack + 1) / 2 ^ 23) := Real.one_sub_inv_le_log_of_pos positive
    _ ≤ Real.log ratio := Real.log_le_log positive ratioGe

/-- The estimate is at most `level` exactly when the logarithm exceeds `2 * level` by at most half
of the spacing of single-precision numbers there, and is then rounded to it or below. -/
theorem estimateLevel_le_iff_logb {m : ℚ} (single : Rounding.toSingle m = m) (large : 1 < m)
    {level : ℕ} (positive : 0 < level) (bounded : level < 64) :
    estimateLevel m ≤ level ↔ Real.logb 2 m ≤ 2 * level + 2 ^ Nat.log 2 level / 2 ^ 23 := by
  rcases log2Slack_bounds positive bounded with ⟨slackLe, ltSlack⟩
  have mPos : (0 : ℝ) < m := by exact_mod_cast (lt_trans one_pos large)
  have powerPos : (0 : ℝ) < 4 ^ level := by positivity
  have logPos := Real.log_pos one_lt_two
  have logSplit : Real.log m = Real.log (m / 4 ^ level) + 2 * level * Real.log 2 := by
    rw [Real.log_div mPos.ne' powerPos.ne', Real.log_pow,
      show (4 : ℝ) = 2 ^ 2 by norm_num, Real.log_pow]
    push_cast
    ring
  have reduced : Real.logb 2 m ≤ 2 * level + 2 ^ Nat.log 2 level / 2 ^ 23 ↔
      Real.log (m / 4 ^ level) ≤ 2 ^ Nat.log 2 level * Real.log 2 / 2 ^ 23 := by
    rw [Real.logb, div_le_iff₀ logPos, logSplit]
    constructor <;> intro le <;> linarith
  rw [reduced, estimateLevel_le_iff]
  constructor
  · intro le
    have ratioLe : (m / 4 ^ level : ℝ) ≤ 1 + log2Slack level / 2 ^ 23 := by
      rw [div_le_iff₀' powerPos]
      have leCast : (m : ℝ) ≤ log2Reach level := Rat.cast_le.mpr le
      simpa [log2Reach] using leCast
    have := Real.log_le_sub_one_of_pos (div_pos mPos powerPos)
    linarith
  · intro logLe
    by_contra beyond
    have ratioGe : (1 + (log2Slack level + 1) / 2 ^ 23 : ℝ) ≤ m / 4 ^ level := by
      have next : ((4 ^ level * (1 + (log2Slack level + 1) / 2 ^ 23) : ℚ) : ℝ) ≤ m :=
        Rat.cast_le.mpr (le_of_log2Reach_lt single (not_le.mp beyond))
      rw [le_div_iff₀' powerPos]
      simpa using next
    exact absurd logLe (not_le.mpr
      (lt_log_of_slack (log2Slack_le level) (by positivity) ltSlack ratioGe))

end Estimate

/-- An estimate that already reaches `m` needs no correction. -/
theorem correctLevel_of_le {m : ℚ} {estimate : ℕ} (reached : m ≤ 4 ^ estimate) :
    correctLevel estimate m = estimate := by
  apply if_neg
  rintro ⟨_, short⟩
  have atMost : ⌊m⌋₊ ≤ 4 ^ estimate := Nat.floor_le_of_le (by exact_mod_cast reached)
  rw [pow_mul] at short
  norm_num at short
  omega

/-- The level above one that misses `m` is the least one if it reaches `m`. -/
theorem isLeast_succ {m : ℚ} {level : ℕ} (missed : 4 ^ level < m) (reached : m ≤ 4 ^ (level + 1)) :
    IsLeast {level : ℕ | m ≤ 4 ^ level} (level + 1) := by
  refine ⟨reached, ?_⟩
  intro other otherReached
  by_contra below
  have smaller : (4 : ℚ) ^ other ≤ 4 ^ level := pow_le_pow_right₀ (by norm_num) (by omega)
  exact absurd (otherReached.trans smaller) (not_le.mpr missed)

/-- The correction compares the tile with the whole part of `m` only. -/
theorem correctLevel_eq_succ_iff {m : ℚ} {estimate : ℕ} (positive : 0 ≤ m) (small : estimate < 32) :
    correctLevel estimate m = estimate + 1 ↔ 4 ^ estimate + 1 ≤ m := by
  have short : 2 ^ (2 * estimate) < ⌊m⌋₊ ↔ (4 : ℚ) ^ estimate + 1 ≤ m := by
    rw [← Nat.add_one_le_iff, Nat.le_floor_iff positive, pow_mul]
    norm_num
  rw [← short, correctLevel]
  constructor
  · intro raised
    by_contra long
    rw [if_neg fun both => long both.2] at raised
    omega
  · intro long
    exact if_pos ⟨small, long⟩

/-- From the least level that reaches `m`, or the one below it, the correction leads to the least
one exactly when it started there or `m` exceeds the smaller tile by at least one. -/
theorem correctLevel_least_iff {m : ℚ} {least estimate : ℕ} (large : 1 < m)
    (bounded : m ≤ 4 ^ 30) (isLeast : IsLeast {level : ℕ | m ≤ 4 ^ level} least)
    (near : estimate = least ∨ estimate + 1 = least) :
    (correctLevel estimate m = least ∧ m ≤ 4 ^ correctLevel estimate m ∧
      4 ^ (correctLevel estimate m - 1) < m) ↔
    estimate = least ∨ 4 ^ (least - 1) + 1 ≤ m := by
  have leastEq : least = leastLevel m := isLeast.unique (isLeast_leastLevel m)
  have positive : 0 < least := by
    rw [Nat.pos_iff_ne_zero]
    rintro rfl
    exact absurd isLeast.1 (by simpa using large)
  have bounds : m ≤ 4 ^ least ∧ 4 ^ (least - 1) < m := by
    refine ⟨isLeast.1, ?_⟩
    by_contra reached
    have tooSmall : least ≤ least - 1 := isLeast.2 (not_lt.mp reached)
    omega
  have reduced : (correctLevel estimate m = least ∧ m ≤ 4 ^ correctLevel estimate m ∧
      4 ^ (correctLevel estimate m - 1) < m) ↔ correctLevel estimate m = least := by
    constructor
    · exact And.left
    · intro corrected
      rw [corrected]
      exact ⟨rfl, bounds⟩
  rw [reduced]
  rcases near with rfl | below
  · have kept := correctLevel_of_le isLeast.1
    simp [kept]
  · have inRange : least ≤ 30 := leastEq ▸ leastLevel_le_iff.mpr bounded
    have lower : least - 1 = estimate := by omega
    rw [← below, correctLevel_eq_succ_iff (by linarith) (by omega)]
    simp

/-- From the smaller tile a whole unit above it leads to the next level. -/
theorem correctLevel_least_above : correctLevel 8 65537 = 9 ∧
    (65537 : ℚ) ≤ 4 ^ correctLevel 8 65537 ∧ 4 ^ (correctLevel 8 65537 - 1) < (65537 : ℚ) := by
  have isLeast : IsLeast {level : ℕ | (65537 : ℚ) ≤ 4 ^ level} 9 :=
    isLeast_succ (by norm_num) (by norm_num)
  exact (correctLevel_least_iff (by norm_num) (by norm_num) isLeast (Or.inr rfl)).mpr
    (Or.inr (by norm_num))

/-- Less than one above a tile the cast drops the excess, and the extent is not covered. -/
theorem correctLevel_short : ∃ m : ℚ, m = 65536 + 1 / 128 ∧ 1 < m ∧ m ≤ 4 ^ 30 ∧
    IsLeast {level : ℕ | m ≤ 4 ^ level} 9 ∧ correctLevel 8 m = 8 ∧ (4 : ℚ) ^ 8 < m :=
  ⟨_, rfl, by norm_num, by norm_num, isLeast_succ (by norm_num) (by norm_num),
    by decide +kernel, by norm_num⟩

section Grid

/-- The level is kept for the extent: its tile is as long, or neither the rounded logarithm nor the
whole part of the extent shows the excess. -/
def Keeps (m : ℚ) (level : ℕ) : Prop :=
  m ≤ log2Reach level ∧ m < 4 ^ level + 1

instance (m : ℚ) (level : ℕ) : Decidable (Keeps m level) :=
  inferInstanceAs (Decidable (_ ∧ _))

/-- The least level that is kept. -/
def gridLevel (m : ℚ) : ℕ :=
  if 0 < leastLevel m ∧ Keeps m (leastLevel m - 1) then leastLevel m - 1 else leastLevel m

variable {m : ℚ} {level : ℕ}

theorem keeps_of_le (reached : m ≤ 4 ^ level) : Keeps m level :=
  ⟨reached.trans (four_pow_le_log2Reach level), by linarith⟩

theorem gridLevel_le_iff : gridLevel m ≤ level ↔ Keeps m level :=
  least_or_below (Keeps m) (fun _ reached => keeps_of_le reached)
    (fun level keeps => keeps.1.trans (log2Reach_lt_four_pow level).le) level

theorem gridLevel_le (reached : m ≤ 4 ^ level) : gridLevel m ≤ level :=
  gridLevel_le_iff.mpr (keeps_of_le reached)

theorem estimateLevel_le_gridLevel (m : ℚ) : estimateLevel m ≤ gridLevel m :=
  estimateLevel_le_iff.mpr (gridLevel_le_iff.mp le_rfl).1

/-- The correction leads from the estimate to the least level that is kept. -/
theorem correctLevel_estimateLevel (small : estimateLevel m < 32) :
    correctLevel (estimateLevel m) m = gridLevel m := by
  have atLeast := estimateLevel_le_gridLevel m
  have reached := estimateLevel_le_iff.mp (le_refl (estimateLevel m))
  by_cases positive : 0 ≤ m
  · have short : 2 ^ (2 * estimateLevel m) < ⌊m⌋₊ ↔ (4 : ℚ) ^ estimateLevel m + 1 ≤ m := by
      rw [← Nat.add_one_le_iff, Nat.le_floor_iff positive, pow_mul]
      norm_num
    by_cases raised : (4 : ℚ) ^ estimateLevel m + 1 ≤ m
    · have next : gridLevel m ≤ estimateLevel m + 1 :=
        gridLevel_le (reached.trans (log2Reach_lt_four_pow _).le)
      have notKept : ¬ gridLevel m ≤ estimateLevel m := fun le =>
        absurd (gridLevel_le_iff.mp le).2 (not_lt.mpr raised)
      rw [correctLevel, if_pos ⟨small, short.mpr raised⟩]
      omega
    · have kept : gridLevel m ≤ estimateLevel m :=
        gridLevel_le_iff.mpr ⟨reached, not_le.mp raised⟩
      rw [correctLevel, if_neg fun both => raised (short.mp both.2)]
      omega
  · have zero : m ≤ 4 ^ 0 := by linarith
    have gridZero := gridLevel_le zero
    have estimateZero : estimateLevel m = 0 := by omega
    rw [estimateZero, correctLevel_of_le zero]
    omega

/-- The level for extents in the range of single precision. -/
theorem computeLevel_of_single (single : m < 2 ^ 128) :
    computeLevel m = if gridLevel m ≤ 31 then gridLevel m else 0 := by
  have atMost : estimateLevel m ≤ 64 := by
    apply estimateLevel_le_iff.mpr
    refine le_trans ?_ (four_pow_le_log2Reach 64)
    exact single.le.trans (by norm_num)
  have byteSized : estimateLevel m % 2 ^ 8 = estimateLevel m := Nat.mod_eq_of_lt (by omega)
  by_cases small : m ≤ 1
  · have gridZero : gridLevel m ≤ 0 := gridLevel_le (by simpa using small)
    simp only [computeLevel, small, if_true]
    split_ifs <;> omega
  · simp only [computeLevel, small, if_false, byteSized]
    by_cases low : estimateLevel m < 32
    · rw [correctLevel_estimateLevel low]
      split_ifs <;> omega
    · have kept : correctLevel (estimateLevel m) m = estimateLevel m :=
        if_neg fun both => low both.1
      have atLeast := estimateLevel_le_gridLevel m
      rw [kept, if_pos (by omega), if_neg (by omega)]

/-- Up to the largest tile the level is the least one that is kept. -/
theorem computeLevel_eq (bounded : m ≤ 4 ^ 31) : computeLevel m = gridLevel m := by
  rw [computeLevel_of_single (bounded.trans_lt (by norm_num)), if_pos (gridLevel_le bounded)]

end Grid

/-- Up to level 15 the ends of the 32-bit range are multiples of the edge. -/
theorem four_pow_dvd {level : ℕ} (fits : level ≤ 15) : (4 : ℤ) ^ level ∣ 2 ^ 31 := by
  have power : (4 : ℤ) ^ level = 2 ^ (2 * level) := by
    rw [pow_mul]
    norm_num
  rw [power]
  exact pow_dvd_pow 2 (by omega)

/-- The mask rounds the truncated coordinate down to the grid of the level. -/
theorem tileCoord_eq {level : ℕ} {a : ℚ} (fits : level ≤ 15) (inRange : InInt32 (truncate a)) :
    tileCoord level a = floorTo (4 ^ level) (truncate a) := by
  have wordEq : (BitVec.ofInt 32 (truncate a)).toInt = truncate a := by
    rw [BitVec.toInt_ofInt]
    exact wrap32_of_inInt32 inRange
  have maskEq : tileCoord level a =
      (clearLow (2 * level) (BitVec.ofInt 32 (truncate a))).toInt := by
    simp only [tileCoord, mask, if_pos (by omega : 2 * level < 32)]
    rfl
  rw [maskEq, toInt_clearLow (by omega), wordEq, pow_mul]
  norm_num

theorem coord_computeChunk (box : AABB) (axis : Axis) :
    (computeChunk box).coord axis =
      tileCoord (computeLevel (maxExtent box)) (box.position.coord axis) := by
  cases axis <;> rfl

theorem maxExtent_le {box : AABB} {bound : ℚ} (nonneg : 0 ≤ bound)
    (bounded : ∀ axis, box.size.coord axis ≤ bound) : maxExtent box ≤ bound := by
  simp only [maxExtent, max_le_iff]
  exact ⟨⟨⟨bounded .x, bounded .y⟩, bounded .z⟩, nonneg⟩

end Chunk

end GodotStream
