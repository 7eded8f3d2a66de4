import GodotStream.ObjectTable

/-!
# What a stored box covers

`bind_aabb` truncates the corners of a box toward zero and `read_aabb_from_stmt`
takes the extents as 32-bit differences, while `aabb_cache` keeps the box as it
was given. This file determines the boxes that are still enclosed by what is read
back: a corner must not be drawn inward by the truncation, and an extent must not
wrap. Coordinates are exact numbers here.
-/

namespace GodotStream

open IntegerGrid ExactArithmetic

namespace AABB

/-- On every axis the box starts at an integer or not below zero, ends at an integer or not above
zero, and is covered by fewer than `2 ^ 31` unit steps. -/
def RoundsOutward (box : AABB) : Prop :=
  ∀ axis,
    (0 ≤ box.position.coord axis ∨ Int.fract (box.position.coord axis) = 0) ∧
    (box.getEnd.coord axis ≤ 0 ∨ Int.fract (box.getEnd.coord axis) = 0) ∧
    ⌈box.getEnd.coord axis⌉ - ⌊box.position.coord axis⌋ < 2 ^ 31

instance (box : AABB) : Decidable box.RoundsOutward := by
  unfold RoundsOutward
  infer_instance

/-- Both corners have integer coordinates. -/
def IntegerCorners (box : AABB) : Prop :=
  ∀ axis, Int.fract (box.position.coord axis) = 0 ∧ Int.fract (box.getEnd.coord axis) = 0

instance (box : AABB) : Decidable box.IntegerCorners := by
  unfold IntegerCorners
  infer_instance

theorem position_le_getEnd {box : AABB} {axis : Axis} (nonneg : 0 ≤ box.size.coord axis) :
    box.position.coord axis ≤ box.getEnd.coord axis := by
  rw [coord_getEnd, rounded_eq]
  linarith

end AABB

section ReadBack

variable {box : AABB}

/-- A difference of 32-bit integers is read back as it is or shorter by `2 ^ 32`. -/
theorem wrap32_sub {lower upper : ℤ} (lowerIn : InInt32 lower) (upperIn : InInt32 upper)
    (ordered : lower ≤ upper) :
    wrap32 (upper - lower) = if upper - lower < 2 ^ 31 then upper - lower
      else upper - lower - 2 ^ 32 := by
  unfold InInt32 at lowerIn upperIn
  unfold wrap32
  rw [Int.bmod_def]
  omega

theorem coord_getEnd_readAabb (columns : BoxColumns) (axis : Axis) :
    (readAabb columns).getEnd.coord axis =
      columns.lower axis + wrap32 (columns.upper axis - columns.lower axis) := by
  rw [AABB.coord_getEnd, coord_position_readAabb, coord_size_readAabb, rounded_eq, rounded_eq,
    rounded_eq]

/-- On one axis: the lower corner is not drawn inward, the upper is not either, and the extent
does not wrap. -/
theorem covers_axis_iff (inRange : box.InRange) {axis : Axis}
    (nonneg : 0 ≤ box.size.coord axis) :
    ((readAabb (bindAabb box)).position.coord axis ≤ box.position.coord axis ∧
      box.getEnd.coord axis ≤ (readAabb (bindAabb box)).getEnd.coord axis) ↔
    (truncate (box.position.coord axis) : ℚ) ≤ box.position.coord axis ∧
      box.getEnd.coord axis ≤ truncate (box.getEnd.coord axis) ∧
      truncate (box.getEnd.coord axis) - truncate (box.position.coord axis) < 2 ^ 31 := by
  rcases inRange axis with ⟨lowerIn, upperIn⟩
  have ordered := AABB.position_le_getEnd nonneg
  have wrapEq := wrap32_sub lowerIn upperIn (truncate_mono ordered)
  rw [coord_getEnd_readAabb, coord_position_readAabb, lower_bindAabb, upper_bindAabb,
    toInt32_of_inInt32 lowerIn, toInt32_of_inInt32 upperIn, rounded_eq]
  by_cases short : truncate (box.getEnd.coord axis) - truncate (box.position.coord axis) < 2 ^ 31
  · rw [wrapEq, if_pos short]
    push_cast
    rw [add_sub_cancel]
    tauto
  · -- the wrapped extent is negative, so that the box read back ends before it starts
    rw [if_neg short] at wrapEq
    have negative : wrap32 (truncate (box.getEnd.coord axis) -
        truncate (box.position.coord axis)) ≤ -1 := by
      unfold InInt32 at lowerIn upperIn
      omega
    have castNegative : (wrap32 (truncate (box.getEnd.coord axis) -
        truncate (box.position.coord axis)) : ℚ) ≤ -1 := by exact_mod_cast negative
    constructor
    · rintro ⟨starts, ends⟩
      linarith
    · rintro ⟨_, _, fits⟩
      exact absurd fits short

theorem encloses_readAabb_iff (inRange : box.InRange) (nonneg : ∀ axis, 0 ≤ box.size.coord axis) :
    (readAabb (bindAabb box)).encloses box ↔ box.RoundsOutward := by
  rw [AABB.encloses_iff]
  apply forall_congr'
  intro axis
  rw [covers_axis_iff inRange (nonneg axis), truncate_le_iff, le_truncate_iff]
  apply and_congr_right
  intro starts
  apply and_congr_right
  intro ends
  rw [truncate_eq_floor_of_le (truncate_le_iff.mpr starts),
    truncate_eq_ceil_of_le (le_truncate_iff.mpr ends)]

/-- Integer corners leave only the extents to check. -/
theorem integral_of_roundsOutward (inRange : box.InRange)
    (nonneg : ∀ axis, 0 ≤ box.size.coord axis) (outward : box.RoundsOutward)
    (corners : box.IntegerCorners) : box.Integral := by
  intro axis
  rcases inRange axis with ⟨lowerIn, upperIn⟩
  rcases corners axis with ⟨lowerWhole, upperWhole⟩
  have lowerLe := truncate_le_iff.mpr (Or.inr lowerWhole)
  have upperLe := le_truncate_iff.mpr (Or.inr upperWhole)
  have ordered := truncate_mono (AABB.position_le_getEnd (nonneg axis))
  have short := (outward axis).2.2
  rw [← truncate_eq_floor_of_le lowerLe, ← truncate_eq_ceil_of_le upperLe] at short
  refine ⟨lowerIn, upperIn, ⟨by omega, short⟩, ?_, ?_⟩
  · exact le_antisymm lowerLe (le_truncate_iff.mpr (Or.inr lowerWhole))
  · exact le_antisymm (truncate_le_iff.mpr (Or.inr upperWhole)) upperLe

/-- What is read back encloses the box, and is the box itself when its corners are integers,
exactly when neither corner is drawn inward and no extent wraps. -/
theorem storedBox_covers_iff (inRange : box.InRange)
    (nonneg : ∀ axis, 0 ≤ box.size.coord axis) :
    ((readAabb (bindAabb box)).encloses box ∧
      (box.IntegerCorners → readAabb (bindAabb box) = box)) ↔ box.RoundsOutward := by
  constructor
  · intro kept
    exact (encloses_readAabb_iff inRange nonneg).mp kept.1
  · intro outward
    refine ⟨(encloses_readAabb_iff inRange nonneg).mpr outward, ?_⟩
    intro corners
    exact readAabb_bindAabb (integral_of_roundsOutward inRange nonneg outward corners)

end ReadBack

section Shrinking

/-- A box below zero with integer corners. -/
def wholeBox : AABB :=
  { position := ⟨-3, -2, -2⟩, size := ⟨2, 1, 2⟩ }

theorem storedBox_covers_wholeBox : readAabb (bindAabb wholeBox) = wholeBox := by
  have covers := (storedBox_covers_iff (by decide +kernel) (by decide +kernel)).mpr
    (by decide +kernel : wholeBox.RoundsOutward)
  exact covers.2 (by decide +kernel)

/-- A box with a fractional end above zero. -/
def fractionalBox : AABB :=
  { position := ⟨0, 0, 0⟩, size := ⟨3 / 2, 1, 1⟩ }

/-- A box with integer corners that is too long. -/
def longBox : AABB :=
  { position := ⟨-2 ^ 30, 0, 0⟩, size := ⟨2 ^ 31, 1, 1⟩ }

theorem storedBox_shrinks :
    fractionalBox.InRange ∧ (∀ axis, 0 ≤ fractionalBox.size.coord axis) ∧
    ¬ (readAabb (bindAabb fractionalBox)).encloses fractionalBox ∧
    longBox.InRange ∧ (∀ axis, 0 ≤ longBox.size.coord axis) ∧ longBox.IntegerCorners ∧
    ¬ (readAabb (bindAabb longBox)).encloses longBox ∧ readAabb (bindAabb longBox) ≠ longBox := by
  decide +kernel

end Shrinking

end GodotStream
