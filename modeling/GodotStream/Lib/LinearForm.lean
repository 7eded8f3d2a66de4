import Mathlib.Algebra.BigOperators.Group.Finset.Basic
import Mathlib.Algebra.Order.BigOperators.Group.Finset
import Mathlib.Algebra.Order.Ring.Defs
import Mathlib.Tactic.Linarith

/-!
# Linear forms over a product of intervals

A linear form takes its largest and its least value over a product of closed
intervals at corners: on every axis the end is chosen by the sign of the
coefficient.
-/

namespace LinearForm

universe u v

variable {ι : Type u} {K : Type v}

/-- A point whose coordinates are ends of the intervals. -/
def IsCorner (lower upper corner : ι → K) : Prop :=
  ∀ i, corner i = lower i ∨ corner i = upper i

section TopCorner

variable [Zero K] [LinearOrder K]

/-- The corner chosen by the signs of the coefficients. -/
def topCorner (coeff lower upper : ι → K) : ι → K :=
  fun i => if 0 ≤ coeff i then upper i else lower i

theorem isCorner_topCorner (coeff lower upper : ι → K) :
    IsCorner lower upper (topCorner coeff lower upper) := by
  intro i
  unfold topCorner
  split
  · exact Or.inr rfl
  · exact Or.inl rfl

end TopCorner

variable [Fintype ι] [Ring K]

def value (coeff point : ι → K) : K :=
  ∑ i, coeff i * point i

theorem value_neg (coeff point : ι → K) :
    value (fun i => -coeff i) point = -value coeff point := by
  simp only [value, neg_mul, Finset.sum_neg_distrib]

variable [LinearOrder K] [IsStrictOrderedRing K]

theorem value_le_topCorner {coeff lower upper point : ι → K}
    (inside : ∀ i, lower i ≤ point i ∧ point i ≤ upper i) :
    value coeff point ≤ value coeff (topCorner coeff lower upper) := by
  apply Finset.sum_le_sum
  intro i _
  unfold topCorner
  split
  case isTrue nonneg => exact mul_le_mul_of_nonneg_left (inside i).2 nonneg
  case isFalse negative =>
    exact mul_le_mul_of_nonpos_left (inside i).1 (not_le.mp negative).le

/-- No value over the product lies above all corner values. -/
theorem exists_corner_ge {lower upper point : ι → K} (coeff : ι → K)
    (inside : ∀ i, lower i ≤ point i ∧ point i ≤ upper i) :
    ∃ corner, IsCorner lower upper corner ∧ value coeff point ≤ value coeff corner :=
  ⟨_, isCorner_topCorner coeff lower upper, value_le_topCorner inside⟩

/-- No value over the product lies below all corner values. -/
theorem exists_corner_le {lower upper point : ι → K} (coeff : ι → K)
    (inside : ∀ i, lower i ≤ point i ∧ point i ≤ upper i) :
    ∃ corner, IsCorner lower upper corner ∧ value coeff corner ≤ value coeff point := by
  rcases exists_corner_ge (fun i => -coeff i) inside with ⟨corner, isCorner, le⟩
  rw [value_neg, value_neg] at le
  exact ⟨corner, isCorner, neg_le_neg_iff.mp le⟩

end LinearForm
