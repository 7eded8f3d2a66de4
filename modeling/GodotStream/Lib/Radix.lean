import Mathlib.Data.Nat.Digits.Lemmas

/-!
# Numbers of a fixed width

The digits of a number in some base, the highest first, with leading zeros up to a
fixed width. Writing and reading are inverse to each other for the numbers that fit
the width and for the lists whose elements are digits.
-/

namespace Radix

/-- The number that digits spell, the highest digit first. -/
def read (base : ℕ) (digits : List ℕ) : ℕ :=
  Nat.ofDigits base digits.reverse

/-- The lowest digits of a number, the highest first. -/
def write (base : ℕ) : ℕ → ℕ → List ℕ
  | 0, _ => []
  | width + 1, value => write base width (value / base) ++ [value % base]

variable {base : ℕ}

@[simp] theorem length_write (base width value : ℕ) : (write base width value).length = width := by
  induction width generalizing value with
  | zero => rfl
  | succ width ih => rw [write, List.length_append, ih, List.length_singleton]

theorem lt_of_mem_write (positive : 0 < base) {width value digit : ℕ}
    (mem : digit ∈ write base width value) : digit < base := by
  induction width generalizing value with
  | zero => simp [write] at mem
  | succ width ih =>
      rw [write, List.mem_append, List.mem_singleton] at mem
      rcases mem with front | rfl
      · exact ih front
      · exact Nat.mod_lt _ positive

theorem read_append_singleton (digits : List ℕ) (digit : ℕ) :
    read base (digits ++ [digit]) = digit + base * read base digits := by
  rw [read, List.reverse_append, List.reverse_singleton, List.singleton_append, Nat.ofDigits_cons,
    read]

theorem read_write (base width value : ℕ) :
    read base (write base width value) = value % base ^ width := by
  induction width generalizing value with
  | zero => rw [write, Nat.pow_zero, Nat.mod_one]; rfl
  | succ width ih => rw [write, read_append_singleton, ih, Nat.pow_succ', Nat.mod_mul]

theorem write_read (positive : 0 < base) {digits : List ℕ}
    (small : ∀ digit ∈ digits, digit < base) :
    write base digits.length (read base digits) = digits := by
  induction digits using List.reverseRecOn with
  | nil => rfl
  | append_singleton digits digit ih =>
      have last : digit < base := small digit (by simp)
      rw [List.length_append, List.length_singleton, write, read_append_singleton,
        Nat.add_mul_div_left _ _ positive, Nat.div_eq_of_lt last, Nat.zero_add,
        Nat.add_mul_mod_self_left, Nat.mod_eq_of_lt last,
        ih fun other mem => small other (List.mem_append_left _ mem)]

theorem read_lt (positive : 1 < base) {digits : List ℕ}
    (small : ∀ digit ∈ digits, digit < base) : read base digits < base ^ digits.length := by
  have bound := Nat.ofDigits_lt_base_pow_length positive
    (fun digit mem => small digit (List.mem_reverse.mp mem))
  rwa [List.length_reverse] at bound

end Radix
