import Mathlib.Data.Int.Log
import Mathlib.Data.Rat.Floor
import Mathlib.Tactic.Linarith
import Mathlib.Tactic.Push

/-!
# Arithmetic with rounding

Arithmetic on rationals in which every result is rounded, by a monotone function.
`Rounding.single`, which is in force by default, rounds to the nearest number with 24
significant bits, and to the even one of two, as IEEE 754 binary32 does with its
subnormal numbers; it has no largest number and so no infinity. Where `ExactArithmetic`
is open nothing is rounded.
-/

/-- What becomes of the exact result of an operation. -/
class Rounding where
  rounded : ℚ → ℚ
  monotone : Monotone rounded

namespace Rounding

section Nearest

/-- The nearest integer, and the even one of two. -/
def nearest (a : ℚ) : ℤ :=
  if Int.fract a = 1 / 2 ∧ Even ⌊a⌋ then ⌊a⌋ else ⌊a + 1 / 2⌋

theorem floor_le_nearest (a : ℚ) : ⌊a⌋ ≤ nearest a := by
  unfold nearest
  split
  · exact le_rfl
  · exact Int.floor_le_floor (by linarith)

@[simp]
theorem nearest_intCast (n : ℤ) : nearest (n : ℚ) = n := by
  have notHalf : ¬ (Int.fract (n : ℚ) = 1 / 2 ∧ Even ⌊(n : ℚ)⌋) := by
    rw [Int.fract_intCast]
    norm_num
  rw [nearest, if_neg notHalf, Int.floor_eq_iff]
  constructor <;> linarith

theorem nearest_mono {a b : ℚ} (le : a ≤ b) : nearest a ≤ nearest b := by
  by_cases tie : Int.fract a = 1 / 2 ∧ Even ⌊a⌋
  · calc nearest a = ⌊a⌋ := if_pos tie
      _ ≤ ⌊b⌋ := Int.floor_le_floor le
      _ ≤ nearest b := floor_le_nearest b
  · rw [nearest, if_neg tie]
    by_cases otherTie : Int.fract b = 1 / 2 ∧ Even ⌊b⌋
    · rw [nearest, if_pos otherTie]
      have distinct : a ≠ b := fun same => tie (same ▸ otherTie)
      have lt : a < b := lt_of_le_of_ne le distinct
      have half := Int.floor_add_fract b
      rw [otherTie.1] at half
      have below : ⌊a + 1 / 2⌋ < ⌊b⌋ + 1 := by
        rw [Int.floor_lt]
        push_cast
        linarith
      omega
    · rw [nearest, if_neg otherTie]
      exact Int.floor_le_floor (by linarith)

end Nearest

section Single

/-- The binary exponent of a single-precision number. -/
def exponent (a : ℚ) : ℤ :=
  if a = 0 then -126 else max (Int.log 2 |a|) (-126)

/-- The spacing of single-precision numbers of this size. -/
def unit (a : ℚ) : ℚ :=
  2 ^ (exponent a - 23)

/-- The nearest single-precision number. -/
def toSingle (a : ℚ) : ℚ :=
  nearest (a / unit a) * unit a

theorem unit_pos (a : ℚ) : 0 < unit a :=
  zpow_pos two_pos _

theorem neg_le_exponent (a : ℚ) : -126 ≤ exponent a := by
  unfold exponent
  split <;> omega

theorem abs_lt_exponent (a : ℚ) : |a| < 2 ^ (exponent a + 1) := by
  unfold exponent
  split
  case isTrue isZero =>
    rw [isZero, abs_zero]
    exact zpow_pos two_pos _
  case isFalse =>
    calc |a| < 2 ^ (Int.log 2 |a| + 1) := by
          exact_mod_cast Int.lt_zpow_succ_log_self (by decide : 1 < 2) |a|
      _ ≤ 2 ^ (max (Int.log 2 |a|) (-126) + 1) :=
          zpow_le_zpow_right₀ (by norm_num) (by omega)

theorem exponent_le_abs {a : ℚ} (normal : -126 < exponent a) : 2 ^ exponent a ≤ |a| := by
  unfold exponent at normal ⊢
  split at normal
  case isTrue => omega
  case isFalse nonZero =>
    rw [if_neg nonZero, max_eq_left (by omega)]
    exact_mod_cast Int.zpow_log_le_self (by decide : 1 < 2) (abs_pos.mpr nonZero)

/-- A multiple of the unit is not rounded past. -/
theorem le_toSingle {a bound : ℚ} {n : ℤ} (multiple : bound = n * unit a) (le : bound ≤ a) :
    bound ≤ toSingle a := by
  have quotient : (n : ℚ) ≤ a / unit a := by
    rw [le_div_iff₀ (unit_pos a), ← multiple]
    exact le
  have rounds : n ≤ nearest (a / unit a) := by
    rw [← nearest_intCast n]
    exact nearest_mono quotient
  rw [multiple, toSingle]
  exact mul_le_mul_of_nonneg_right (by exact_mod_cast rounds) (unit_pos a).le

theorem toSingle_le {a bound : ℚ} {n : ℤ} (multiple : bound = n * unit a) (le : a ≤ bound) :
    toSingle a ≤ bound := by
  have quotient : a / unit a ≤ n := by
    rw [div_le_iff₀ (unit_pos a), ← multiple]
    exact le
  have rounds : nearest (a / unit a) ≤ n := by
    rw [← nearest_intCast n]
    exact nearest_mono quotient
  rw [multiple, toSingle]
  exact mul_le_mul_of_nonneg_right (by exact_mod_cast rounds) (unit_pos a).le

/-- A power of two that is not below the size of the number is a multiple of its unit. -/
theorem exists_multiple {a : ℚ} {power : ℤ} (le : exponent a ≤ power) :
    ∃ n : ℤ, (2 : ℚ) ^ power = n * unit a := by
  rcases Int.eq_ofNat_of_zero_le (by omega : 0 ≤ power - (exponent a - 23)) with ⟨rest, restEq⟩
  refine ⟨2 ^ rest, ?_⟩
  rw [unit]
  push_cast
  rw [← zpow_natCast, ← zpow_add₀ two_ne_zero, ← restEq]
  congr 1
  omega

theorem toSingle_mono : Monotone toSingle := by
  intro a b le
  rcases lt_trichotomy (exponent a) (exponent b) with smaller | same | larger
  · -- `b` is positive, and the power of two below it separates the two
    have below : |a| < 2 ^ exponent b :=
      (abs_lt_exponent a).trans_le (zpow_le_zpow_right₀ (by norm_num) (by omega))
    have above := exponent_le_abs ((neg_le_exponent a).trans_lt smaller)
    have positive : 0 ≤ b := by
      by_contra negative
      push Not at negative
      rw [abs_of_neg negative] at above
      have := neg_abs_le a
      linarith
    rw [abs_of_nonneg positive] at above
    rcases exists_multiple smaller.le with ⟨n, nEq⟩
    rcases exists_multiple (le_refl (exponent b)) with ⟨m, mEq⟩
    exact (toSingle_le nEq ((le_abs_self a).trans below.le)).trans (le_toSingle mEq above)
  · have unitEq : unit a = unit b := by rw [unit, unit, same]
    have rounds : nearest (a / unit b) ≤ nearest (b / unit b) :=
      nearest_mono (div_le_div_of_nonneg_right le (unit_pos b).le)
    rw [toSingle, toSingle, unitEq]
    exact mul_le_mul_of_nonneg_right (by exact_mod_cast rounds) (unit_pos b).le
  · have below : |b| < 2 ^ exponent a :=
      (abs_lt_exponent b).trans_le (zpow_le_zpow_right₀ (by norm_num) (by omega))
    have above := exponent_le_abs ((neg_le_exponent b).trans_lt larger)
    have negative : a ≤ 0 := by
      by_contra positive
      push Not at positive
      rw [abs_of_pos positive] at above
      have := le_abs_self b
      linarith
    rw [abs_of_nonpos negative] at above
    rcases exists_multiple larger.le with ⟨n, nEq⟩
    rcases exists_multiple (le_refl (exponent a)) with ⟨m, mEq⟩
    have upper : -(2 : ℚ) ^ exponent a = (-n : ℤ) * unit b := by
      rw [nEq]
      push_cast
      ring
    have lower : -(2 : ℚ) ^ exponent a = (-m : ℤ) * unit a := by
      rw [mEq]
      push_cast
      ring
    have := neg_abs_le b
    exact (toSingle_le lower (by linarith)).trans (le_toSingle upper (by linarith))

/-- Single precision. -/
instance (priority := low) single : Rounding :=
  ⟨toSingle, toSingle_mono⟩

/-- Integers below `2 ^ 24` are single-precision numbers. -/
theorem rounded_intCast {n : ℤ} (small : |n| < 2 ^ 24) : single.rounded (n : ℚ) = n := by
  have sizeLe : exponent (n : ℚ) ≤ 23 := by
    by_contra large
    push Not at large
    have atLeast := exponent_le_abs (by omega : -126 < exponent (n : ℚ))
    have power : (2 : ℚ) ^ (24 : ℤ) ≤ 2 ^ exponent (n : ℚ) :=
      zpow_le_zpow_right₀ (by norm_num) (by omega)
    have sizeCast : |(n : ℚ)| < 2 ^ 24 := by exact_mod_cast small
    norm_num at power sizeCast
    linarith
  rcases Int.eq_ofNat_of_zero_le (by omega : 0 ≤ 23 - exponent (n : ℚ)) with ⟨rest, restEq⟩
  have multiple : (n : ℚ) = (n * 2 ^ rest : ℤ) * unit (n : ℚ) := by
    rw [unit]
    push_cast
    rw [mul_assoc, ← zpow_natCast, ← zpow_add₀ two_ne_zero, ← restEq]
    simp
  exact le_antisymm (toSingle_le multiple le_rfl) (le_toSingle multiple le_rfl)

end Single

end Rounding

namespace ExactArithmetic

scoped instance exact : Rounding :=
  ⟨id, monotone_id⟩

@[simp]
theorem rounded_eq (a : ℚ) : Rounding.rounded a = a :=
  rfl

end ExactArithmetic
