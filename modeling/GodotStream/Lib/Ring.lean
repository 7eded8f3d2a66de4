import Mathlib.Data.Nat.Find
import Mathlib.Order.Basic

/-!
# Positions on a ring

The positions below `n`, each followed by the next one and the last by zero.
`ahead n p k` is the position reached from `p` by `k` steps. For at most one turn
it has a closed form, from which `omega` decides questions about offsets.
-/

namespace Ring

/-- The position after `position` on a ring of `size` positions. -/
def next (size position : ℕ) : ℕ :=
  if position + 1 = size then 0 else position + 1

/-- The position some steps further on. -/
def ahead (size position : ℕ) : ℕ → ℕ
  | 0 => position
  | steps + 1 => next size (ahead size position steps)

variable {n p q j k : ℕ}

@[simp]
theorem ahead_zero (n p : ℕ) : ahead n p 0 = p :=
  rfl

theorem ahead_succ (n p k : ℕ) : ahead n p (k + 1) = next n (ahead n p k) :=
  rfl

theorem next_lt (below : p < n) : next n p < n := by
  unfold next
  split <;> omega

/-- No two positions are followed by the same one. -/
theorem next_inj (same : next n p = next n q) : p = q := by
  unfold next at same
  split_ifs at same <;> omega

theorem ahead_lt (below : p < n) (k : ℕ) : ahead n p k < n := by
  induction k with
  | zero => exact below
  | succ k ih => exact next_lt ih

theorem ahead_add (n p j k : ℕ) : ahead n p (j + k) = ahead n (ahead n p j) k := by
  induction k with
  | zero => rfl
  | succ k ih => rw [Nat.add_succ, ahead_succ, ih, ahead_succ]

theorem ahead_next (n p k : ℕ) : ahead n (next n p) k = ahead n p (k + 1) := by
  rw [Nat.add_comm, ahead_add, ahead_succ, ahead_zero]

/-- The closed form for at most one turn. -/
theorem ahead_eq (below : p < n) (turn : k ≤ n) :
    ahead n p k = if p + k < n then p + k else p + k - n := by
  induction k with
  | zero => simp [below]
  | succ k ih =>
      rw [ahead_succ, ih (by omega), next]
      split_ifs <;> omega

theorem ahead_self (below : p < n) : ahead n p n = p := by
  rw [ahead_eq below (Nat.le_refl n)]
  split <;> omega

/-- Offsets below one turn name different positions. -/
theorem ahead_inj (below : p < n) (first : j < n) (second : k < n)
    (same : ahead n p j = ahead n p k) : j = k := by
  rw [ahead_eq below (by omega), ahead_eq below (by omega)] at same
  split_ifs at same <;> omega

/-- Every position is some offset ahead of every other. -/
theorem exists_ahead (from_lt : p < n) (to_lt : q < n) : ∃ k < n, ahead n p k = q := by
  by_cases later : p ≤ q
  · refine ⟨q - p, by omega, ?_⟩
    rw [ahead_eq from_lt (by omega)]
    split <;> omega
  · refine ⟨q + n - p, by omega, ?_⟩
    rw [ahead_eq from_lt (by omega)]
    split <;> omega

end Ring
