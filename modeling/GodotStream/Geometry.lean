import Mathlib.Data.Fintype.Basic
import Mathlib.Data.Rat.Floor
import GodotStream.Lib.IntegerGrid
import GodotStream.Lib.Rounding

/-!
# Boxes and integer conversion

The part of the engine's vector and box types that the stream code uses. Coordinates
are rationals, and the arithmetic in force rounds every sum of them: the engine's
single precision, or none where coordinates are read as exact numbers.
`AABB.mergeWith`, `AABB.intersects` and `AABB.encloses` follow
`godot_cpp/variant/aabb`. A conversion to `Vector3i` truncates toward zero into a
signed 32-bit integer.
-/

namespace GodotStream

open IntegerGrid Rounding

structure Vector3 where
  x : ℚ
  y : ℚ
  z : ℚ
deriving DecidableEq

inductive Axis where
  | x
  | y
  | z
deriving DecidableEq

instance : Fintype Axis :=
  ⟨{.x, .y, .z}, by rintro (_ | _ | _) <;> simp⟩

namespace Vector3

def coord (v : Vector3) : Axis → ℚ
  | .x => v.x
  | .y => v.y
  | .z => v.z

/-- The vector with the given coordinates. -/
def ofCoords (f : Axis → ℚ) : Vector3 :=
  ⟨f .x, f .y, f .z⟩

@[simp]
theorem coord_ofCoords (f : Axis → ℚ) (axis : Axis) : (ofCoords f).coord axis = f axis := by
  cases axis <;> rfl

instance [Rounding] : Add Vector3 :=
  ⟨fun a b => ⟨rounded (a.x + b.x), rounded (a.y + b.y), rounded (a.z + b.z)⟩⟩

instance [Rounding] : Sub Vector3 :=
  ⟨fun a b => ⟨rounded (a.x - b.x), rounded (a.y - b.y), rounded (a.z - b.z)⟩⟩

instance : Inhabited Vector3 :=
  ⟨⟨0, 0, 0⟩⟩

@[simp]
theorem coord_add [Rounding] (a b : Vector3) (axis : Axis) :
    (a + b).coord axis = rounded (a.coord axis + b.coord axis) := by
  cases axis <;> rfl

@[simp]
theorem coord_sub [Rounding] (a b : Vector3) (axis : Axis) :
    (a - b).coord axis = rounded (a.coord axis - b.coord axis) := by
  cases axis <;> rfl

@[ext]
theorem ext_coord {a b : Vector3} (same : ∀ axis, a.coord axis = b.coord axis) : a = b := by
  cases a
  cases b
  have onX := same .x
  have onY := same .y
  have onZ := same .z
  simp only [coord] at onX onY onZ
  rw [onX, onY, onZ]

end Vector3

/-- A position together with an extent on every axis. -/
@[ext]
structure AABB where
  position : Vector3
  size : Vector3
deriving DecidableEq

instance : Inhabited AABB :=
  ⟨⟨default, default⟩⟩

namespace AABB

section Operations

variable [Rounding]

def getEnd (box : AABB) : Vector3 :=
  box.position + box.size

/-- `AABB::merge_with`, returning the merged box. -/
def mergeWith (box other : AABB) : AABB :=
  let beg1 := box.position
  let beg2 := other.position
  let end1 := box.size + beg1
  let end2 := other.size + beg2
  let min : Vector3 :=
    { x := if beg1.x < beg2.x then beg1.x else beg2.x
      y := if beg1.y < beg2.y then beg1.y else beg2.y
      z := if beg1.z < beg2.z then beg1.z else beg2.z }
  let max : Vector3 :=
    { x := if end1.x > end2.x then end1.x else end2.x
      y := if end1.y > end2.y then end1.y else end2.y
      z := if end1.z > end2.z then end1.z else end2.z }
  { position := min, size := max - min }

/-- `AABB::intersects`: the interiors overlap. -/
def intersects (box other : AABB) : Prop :=
  ¬ box.position.x ≥ rounded (other.position.x + other.size.x) ∧
  ¬ rounded (box.position.x + box.size.x) ≤ other.position.x ∧
  ¬ box.position.y ≥ rounded (other.position.y + other.size.y) ∧
  ¬ rounded (box.position.y + box.size.y) ≤ other.position.y ∧
  ¬ box.position.z ≥ rounded (other.position.z + other.size.z) ∧
  ¬ rounded (box.position.z + box.size.z) ≤ other.position.z

instance (box other : AABB) : Decidable (box.intersects other) := by
  unfold intersects
  infer_instance

/-- `AABB::encloses`: the other box lies inside, faces included. -/
def encloses (box other : AABB) : Prop :=
  let srcMin := box.position
  let srcMax := box.position + box.size
  let dstMin := other.position
  let dstMax := other.position + other.size
  srcMin.x ≤ dstMin.x ∧ srcMax.x ≥ dstMax.x ∧
  srcMin.y ≤ dstMin.y ∧ srcMax.y ≥ dstMax.y ∧
  srcMin.z ≤ dstMin.z ∧ srcMax.z ≥ dstMax.z

instance (box other : AABB) : Decidable (box.encloses other) := by
  unfold encloses
  infer_instance

theorem coord_getEnd (box : AABB) (axis : Axis) :
    box.getEnd.coord axis = rounded (box.position.coord axis + box.size.coord axis) :=
  Vector3.coord_add _ _ axis

theorem intersects_iff {box other : AABB} :
    box.intersects other ↔ ∀ axis, box.position.coord axis < other.getEnd.coord axis ∧
      other.position.coord axis < box.getEnd.coord axis := by
  simp only [intersects, ge_iff_le, not_le]
  constructor
  · rintro ⟨x1, x2, y1, y2, z1, z2⟩ axis
    cases axis
    · exact ⟨x1, x2⟩
    · exact ⟨y1, y2⟩
    · exact ⟨z1, z2⟩
  · intro overlap
    exact ⟨(overlap .x).1, (overlap .x).2, (overlap .y).1, (overlap .y).2,
      (overlap .z).1, (overlap .z).2⟩

theorem encloses_iff {box other : AABB} :
    box.encloses other ↔ ∀ axis, box.position.coord axis ≤ other.position.coord axis ∧
      other.getEnd.coord axis ≤ box.getEnd.coord axis := by
  constructor
  · rintro ⟨x1, x2, y1, y2, z1, z2⟩ axis
    cases axis
    · exact ⟨x1, x2⟩
    · exact ⟨y1, y2⟩
    · exact ⟨z1, z2⟩
  · intro inside
    exact ⟨(inside .x).1, (inside .x).2, (inside .y).1, (inside .y).2,
      (inside .z).1, (inside .z).2⟩

theorem coord_position_mergeWith (box other : AABB) (axis : Axis) :
    (box.mergeWith other).position.coord axis =
      min (box.position.coord axis) (other.position.coord axis) := by
  cases axis <;> simp only [mergeWith, Vector3.coord, min_def] <;> split_ifs <;> grind

theorem coord_size_mergeWith (box other : AABB) (axis : Axis) :
    (box.mergeWith other).size.coord axis =
      rounded (max (box.getEnd.coord axis) (other.getEnd.coord axis) -
        min (box.position.coord axis) (other.position.coord axis)) := by
  rw [coord_getEnd, coord_getEnd, add_comm (box.position.coord axis),
    add_comm (other.position.coord axis), ← coord_position_mergeWith]
  cases axis <;>
    simp only [mergeWith, Vector3.coord, HSub.hSub, Sub.sub, HAdd.hAdd, Add.add, max_def] <;>
    grind

end Operations

section Exact

open ExactArithmetic

/-- In exact arithmetic a merged box ends where one of the boxes does. -/
theorem coord_getEnd_mergeWith (box other : AABB) (axis : Axis) :
    (box.mergeWith other).getEnd.coord axis =
      max (box.getEnd.coord axis) (other.getEnd.coord axis) := by
  rw [coord_getEnd, coord_size_mergeWith, coord_position_mergeWith, rounded_eq, rounded_eq]
  ring

/-- In exact arithmetic a box is determined by its two corners. -/
theorem ext_corners {box other : AABB}
    (samePosition : ∀ axis, box.position.coord axis = other.position.coord axis)
    (sameEnd : ∀ axis, box.getEnd.coord axis = other.getEnd.coord axis) : box = other := by
  have sizeEq : box.size = other.size := by
    ext axis
    have endEq := sameEnd axis
    rw [coord_getEnd, coord_getEnd, samePosition axis] at endEq
    exact add_left_cancel endEq
  exact AABB.ext (Vector3.ext_coord samePosition) sizeEq

end Exact

end AABB

/-- The value a signed 32-bit register holds after an arithmetic operation. -/
def wrap32 (n : ℤ) : ℤ :=
  n.bmod (2 ^ 32)

/-- The integers that a signed 32-bit register represents. -/
def InInt32 (n : ℤ) : Prop :=
  -2 ^ 31 ≤ n ∧ n < 2 ^ 31

instance (n : ℤ) : Decidable (InInt32 n) := by
  unfold InInt32
  infer_instance

theorem wrap32_of_inInt32 {n : ℤ} (inRange : InInt32 n) : wrap32 n = n := by
  unfold wrap32
  unfold InInt32 at inRange
  rw [Int.bmod_eq_of_le] <;> omega

/-- Conversion of a coordinate; out of range it is undefined in the source and wraps here. -/
def toInt32 (a : ℚ) : ℤ :=
  wrap32 (truncate a)

theorem toInt32_of_inInt32 {a : ℚ} (inRange : InInt32 (truncate a)) : toInt32 a = truncate a :=
  wrap32_of_inInt32 inRange

theorem truncate_lt_two_pow {a : ℚ} : truncate a < 2 ^ 31 ↔ a < 2 ^ 31 := by
  simp only [truncate]
  split
  · rw [Int.floor_lt]
    norm_num
  · have : ⌈a⌉ ≤ 0 := Int.ceil_le.mpr (by push_cast; linarith)
    constructor <;> intro _
    · linarith
    · omega

theorem neg_two_pow_le_truncate {a : ℚ} : -2 ^ 31 ≤ truncate a ↔ -2 ^ 31 - 1 < a := by
  simp only [truncate]
  split
  · have : 0 ≤ ⌊a⌋ := Int.floor_nonneg.mpr (by assumption)
    constructor <;> intro _
    · linarith
    · omega
  · rw [Int.le_ceil_iff]
    norm_num

/-- The coordinates that convert without leaving the 32-bit range. -/
theorem inInt32_truncate_iff {a : ℚ} : InInt32 (truncate a) ↔ -2 ^ 31 - 1 < a ∧ a < 2 ^ 31 :=
  and_congr neg_two_pow_le_truncate truncate_lt_two_pow

/-- Both corners of the box convert to signed 32-bit integers. -/
def AABB.InRange [Rounding] (box : AABB) : Prop :=
  ∀ axis, InInt32 (truncate (box.position.coord axis)) ∧
    InInt32 (truncate (box.getEnd.coord axis))

/-- Coordinates, ends and extents of the box are signed 32-bit integers. -/
def AABB.Integral [Rounding] (box : AABB) : Prop :=
  ∀ axis, InInt32 (truncate (box.position.coord axis)) ∧
    InInt32 (truncate (box.getEnd.coord axis)) ∧
    InInt32 (truncate (box.getEnd.coord axis) - truncate (box.position.coord axis)) ∧
    (truncate (box.position.coord axis) : ℚ) = box.position.coord axis ∧
    (truncate (box.getEnd.coord axis) : ℚ) = box.getEnd.coord axis

instance [Rounding] (box : AABB) : Decidable box.Integral := by
  unfold AABB.Integral
  infer_instance

instance [Rounding] (box : AABB) : Decidable box.InRange := by
  unfold AABB.InRange
  infer_instance

end GodotStream
