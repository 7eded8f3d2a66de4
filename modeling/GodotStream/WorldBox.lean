import GodotStream.Geometry
import GodotStream.Lib.LinearForm

/-!
# The world box of a stream object

Model of `StreamObjectNode::get_aabb` and of `transform_aabb` in
`stream_object.cpp`, with `AABB::has_point`, `AABB::expand_to` and
`Transform3D::xform` of the engine. The specification is `AABB.IsHull`: the least
box that holds a set of points. Expanding by a point and merging keep it, and an
affine map takes a box into the hull of its mapped corners. Coordinates are exact
numbers here.
-/

namespace GodotStream

open ExactArithmetic

namespace AABB

/-- `AABB::has_point`. -/
def hasPoint (box : AABB) (point : Vector3) : Prop :=
  ¬ point.x < box.position.x ∧
  ¬ point.y < box.position.y ∧
  ¬ point.z < box.position.z ∧
  ¬ point.x > box.position.x + box.size.x ∧
  ¬ point.y > box.position.y + box.size.y ∧
  ¬ point.z > box.position.z + box.size.z

/-- `AABB::expand_to`, returning the expanded box. -/
def expandTo (box : AABB) (vector : Vector3) : AABB :=
  let oldBegin := box.position
  let oldEnd := box.position + box.size
  let newBegin : Vector3 :=
    { x := if vector.x < oldBegin.x then vector.x else oldBegin.x
      y := if vector.y < oldBegin.y then vector.y else oldBegin.y
      z := if vector.z < oldBegin.z then vector.z else oldBegin.z }
  let newEnd : Vector3 :=
    { x := if vector.x > oldEnd.x then vector.x else oldEnd.x
      y := if vector.y > oldEnd.y then vector.y else oldEnd.y
      z := if vector.z > oldEnd.z then vector.z else oldEnd.z }
  { position := newBegin, size := newEnd - newBegin }

theorem hasPoint_iff {box : AABB} {point : Vector3} :
    box.hasPoint point ↔ ∀ axis, box.position.coord axis ≤ point.coord axis ∧
      point.coord axis ≤ box.getEnd.coord axis := by
  simp only [hasPoint, not_lt, gt_iff_lt]
  constructor
  · rintro ⟨x1, y1, z1, x2, y2, z2⟩ (_ | _ | _)
    · exact ⟨x1, x2⟩
    · exact ⟨y1, y2⟩
    · exact ⟨z1, z2⟩
  · intro inside
    exact ⟨(inside .x).1, (inside .y).1, (inside .z).1, (inside .x).2, (inside .y).2,
      (inside .z).2⟩

theorem coord_position_expandTo (box : AABB) (vector : Vector3) (axis : Axis) :
    (box.expandTo vector).position.coord axis =
      min (vector.coord axis) (box.position.coord axis) := by
  cases axis <;> simp only [expandTo, Vector3.coord, min_def] <;> split_ifs <;> grind

theorem coord_getEnd_expandTo (box : AABB) (vector : Vector3) (axis : Axis) :
    (box.expandTo vector).getEnd.coord axis =
      max (vector.coord axis) (box.getEnd.coord axis) := by
  rw [coord_getEnd, coord_getEnd, rounded_eq, rounded_eq]
  have sizeEq : (box.expandTo vector).size.coord axis =
      max (vector.coord axis) (box.position.coord axis + box.size.coord axis) -
        (box.expandTo vector).position.coord axis := by
    cases axis <;>
      simp only [expandTo, Vector3.coord, HSub.hSub, Sub.sub, HAdd.hAdd, Add.add, max_def,
        rounded_eq] <;>
      grind
  rw [sizeEq]
  ring

/-- The least box that holds the points. -/
structure IsHull (box : AABB) (points : Set Vector3) : Prop where
  holds : ∀ point ∈ points, box.hasPoint point
  least : ∀ other : AABB, (∀ point ∈ points, other.hasPoint point) → other.encloses box

section Hull

variable {box other : AABB} {points otherPoints : Set Vector3}

theorem IsHull.unique (hull : box.IsHull points) (otherHull : other.IsHull points) :
    box = other := by
  have inOther := encloses_iff.mp (hull.least other otherHull.holds)
  have inBox := encloses_iff.mp (otherHull.least box hull.holds)
  apply ext_corners
  · intro axis
    exact le_antisymm (inBox axis).1 (inOther axis).1
  · intro axis
    exact le_antisymm (inOther axis).2 (inBox axis).2

/-- Points that every box holds as soon as it holds the others do not change the hull. -/
theorem IsHull.of_subset (hull : box.IsHull points) (subset : points ⊆ otherPoints)
    (implied : ∀ other : AABB, (∀ point ∈ points, other.hasPoint point) →
      ∀ point ∈ otherPoints, other.hasPoint point) : box.IsHull otherPoints where
  holds := implied box hull.holds
  least other holds := hull.least other fun point pointMem => holds point (subset pointMem)

theorem isHull_point (point : Vector3) : (⟨point, ⟨0, 0, 0⟩⟩ : AABB).IsHull {point} := by
  have endEq (axis : Axis) : (⟨point, ⟨0, 0, 0⟩⟩ : AABB).getEnd.coord axis = point.coord axis := by
    rw [coord_getEnd]
    cases axis <;> exact add_zero _
  constructor
  · rintro _ rfl
    rw [hasPoint_iff]
    intro axis
    rw [endEq]
    exact ⟨le_rfl, le_rfl⟩
  · intro other holds
    rw [encloses_iff]
    intro axis
    rw [endEq]
    exact hasPoint_iff.mp (holds point rfl) axis

theorem IsHull.expandTo (hull : box.IsHull points) (vector : Vector3) :
    (box.expandTo vector).IsHull (insert vector points) := by
  constructor
  · rintro point (rfl | pointMem) <;> rw [hasPoint_iff] <;> intro axis <;>
      rw [coord_position_expandTo, coord_getEnd_expandTo]
    · exact ⟨min_le_left _ _, le_max_left _ _⟩
    · rcases hasPoint_iff.mp (hull.holds point pointMem) axis with ⟨above, below⟩
      exact ⟨(min_le_right _ _).trans above, below.trans (le_max_right _ _)⟩
  · intro other holds
    have vectorIn := hasPoint_iff.mp (holds vector (Set.mem_insert _ _))
    have boxIn := encloses_iff.mp (hull.least other fun point pointMem =>
      holds point (Set.mem_insert_of_mem _ pointMem))
    rw [encloses_iff]
    intro axis
    rw [coord_position_expandTo, coord_getEnd_expandTo]
    exact ⟨le_min (vectorIn axis).1 (boxIn axis).1, max_le (vectorIn axis).2 (boxIn axis).2⟩

theorem IsHull.mergeWith (hull : box.IsHull points) (otherHull : other.IsHull otherPoints) :
    (box.mergeWith other).IsHull (points ∪ otherPoints) := by
  constructor
  · rintro point (pointMem | pointMem) <;> rw [hasPoint_iff] <;> intro axis <;>
      rw [coord_position_mergeWith, coord_getEnd_mergeWith]
    · rcases hasPoint_iff.mp (hull.holds point pointMem) axis with ⟨above, below⟩
      exact ⟨(min_le_left _ _).trans above, below.trans (le_max_left _ _)⟩
    · rcases hasPoint_iff.mp (otherHull.holds point pointMem) axis with ⟨above, below⟩
      exact ⟨(min_le_right _ _).trans above, below.trans (le_max_right _ _)⟩
  · intro outer holds
    have boxIn := encloses_iff.mp (hull.least outer fun point pointMem =>
      holds point (Or.inl pointMem))
    have otherIn := encloses_iff.mp (otherHull.least outer fun point pointMem =>
      holds point (Or.inr pointMem))
    rw [encloses_iff]
    intro axis
    rw [coord_position_mergeWith, coord_getEnd_mergeWith]
    exact ⟨le_min (boxIn axis).1 (otherIn axis).1, max_le (boxIn axis).2 (otherIn axis).2⟩

theorem IsHull.foldl_expandTo (hull : box.IsHull points) (vectors : List Vector3) :
    (vectors.foldl AABB.expandTo box).IsHull ({vector | vector ∈ vectors} ∪ points) := by
  induction vectors generalizing box points with
  | nil => simpa using hull
  | cons vector rest ih =>
      rw [List.foldl_cons]
      have restHull := ih (hull.expandTo vector)
      have pointsEq : {other | other ∈ vector :: rest} ∪ points =
          {other | other ∈ rest} ∪ insert vector points := by
        ext other
        simp only [List.mem_cons, Set.mem_union, Set.mem_ofPred_eq, Set.mem_insert_iff]
        tauto
      rw [pointsEq]
      exact restHull

end Hull

end AABB

namespace Vector3

def dot (v w : Vector3) : ℚ :=
  v.x * w.x + v.y * w.y + v.z * w.z

theorem dot_eq_value (v w : Vector3) : v.dot w = LinearForm.value v.coord w.coord := by
  simp only [LinearForm.value]
  change _ = ∑ axis ∈ {Axis.x, Axis.y, Axis.z}, v.coord axis * w.coord axis
  simp [dot, coord, add_assoc]

end Vector3

/-- The rows of a basis matrix; nothing is assumed of it. -/
structure Basis where
  rowX : Vector3
  rowY : Vector3
  rowZ : Vector3
deriving DecidableEq

def Basis.row (basis : Basis) : Axis → Vector3
  | .x => basis.rowX
  | .y => basis.rowY
  | .z => basis.rowZ

structure Transform3D where
  basis : Basis
  origin : Vector3
deriving DecidableEq

/-- `Transform3D::xform`. -/
def Transform3D.xform (transform : Transform3D) (vector : Vector3) : Vector3 :=
  { x := transform.basis.rowX.dot vector + transform.origin.x
    y := transform.basis.rowY.dot vector + transform.origin.y
    z := transform.basis.rowZ.dot vector + transform.origin.z }

theorem Transform3D.coord_xform (transform : Transform3D) (vector : Vector3) (axis : Axis) :
    (transform.xform vector).coord axis =
      LinearForm.value (transform.basis.row axis).coord vector.coord +
        transform.origin.coord axis := by
  rw [← Vector3.dot_eq_value]
  cases axis <;> rfl

/-- The array `vertices` of `transform_aabb`, in its order. -/
def vertices (localAabb : AABB) : List Vector3 :=
  [ localAabb.position,
    localAabb.position + ⟨localAabb.size.x, 0, 0⟩,
    localAabb.position + ⟨0, localAabb.size.y, 0⟩,
    localAabb.position + ⟨0, 0, localAabb.size.z⟩,
    localAabb.position + ⟨localAabb.size.x, localAabb.size.y, 0⟩,
    localAabb.position + ⟨localAabb.size.x, 0, localAabb.size.z⟩,
    localAabb.position + ⟨0, localAabb.size.y, localAabb.size.z⟩,
    localAabb.position + localAabb.size ]

/-- `transform_aabb`. -/
def transformAabb (localAabb : AABB) (transform : Transform3D) : AABB :=
  let worldAabb : AABB := ⟨transform.xform localAabb.position, ⟨0, 0, 0⟩⟩
  (vertices localAabb).tail.foldl (fun worldAabb vertex =>
    worldAabb.expandTo (transform.xform vertex)) worldAabb

section OneBox

variable {box : AABB}

theorem Vector3.mk_add_mk (a b c x y z : ℚ) :
    (⟨a, b, c⟩ : Vector3) + ⟨x, y, z⟩ = ⟨a + x, b + y, c + z⟩ :=
  rfl

/-- The eight listed vertices are the corners of the box, each axis at either end. -/
theorem mem_vertices_iff {vertex : Vector3} :
    vertex ∈ vertices box ↔
      LinearForm.IsCorner box.position.coord box.getEnd.coord vertex.coord := by
  rcases box with ⟨⟨a, b, c⟩, ⟨width, height, depth⟩⟩
  rcases vertex with ⟨x, y, z⟩
  simp only [vertices, AABB.getEnd, Vector3.mk_add_mk, add_zero, List.mem_cons, List.not_mem_nil,
    or_false, Vector3.mk.injEq]
  constructor
  · rintro (h | h | h | h | h | h | h | h) (_ | _ | _) <;> simp [Vector3.coord, h]
  · intro corner
    have onX := corner .x
    have onY := corner .y
    have onZ := corner .z
    simp only [Vector3.coord] at onX onY onZ
    rcases onX with rfl | rfl <;> rcases onY with rfl | rfl <;> rcases onZ with rfl | rfl <;> simp

/-- A mapped point lies between mapped vertices on every axis. -/
theorem xform_between_vertices (transform : Transform3D) {point : Vector3}
    (inside : box.hasPoint point) (axis : Axis) :
    (∃ vertex ∈ vertices box,
      (transform.xform vertex).coord axis ≤ (transform.xform point).coord axis) ∧
    ∃ vertex ∈ vertices box,
      (transform.xform point).coord axis ≤ (transform.xform vertex).coord axis := by
  have within := AABB.hasPoint_iff.mp inside
  have coordEq (corner : Axis → ℚ) : (Vector3.ofCoords corner).coord = corner :=
    funext (Vector3.coord_ofCoords corner)
  constructor
  · rcases LinearForm.exists_corner_le (transform.basis.row axis).coord within with
      ⟨corner, isCorner, le⟩
    refine ⟨.ofCoords corner, ?_, ?_⟩
    · rw [mem_vertices_iff, coordEq]
      exact isCorner
    · rw [Transform3D.coord_xform, Transform3D.coord_xform, coordEq]
      exact add_le_add_left le _
  · rcases LinearForm.exists_corner_ge (transform.basis.row axis).coord within with
      ⟨corner, isCorner, le⟩
    refine ⟨.ofCoords corner, ?_, ?_⟩
    · rw [mem_vertices_iff, coordEq]
      exact isCorner
    · rw [Transform3D.coord_xform, Transform3D.coord_xform, coordEq]
      exact add_le_add_left le _

/-- The code expands by the mapped vertices one after another. -/
theorem isHull_vertices (box : AABB) (transform : Transform3D) :
    (transformAabb box transform).IsHull
      {vector | vector ∈ (vertices box).map transform.xform} := by
  have hull := (AABB.isHull_point (transform.xform box.position)).foldl_expandTo
    ((vertices box).tail.map transform.xform)
  have pointsEq : {vector | vector ∈ (vertices box).map transform.xform} =
      {vector | vector ∈ (vertices box).tail.map transform.xform} ∪
        {transform.xform box.position} := by
    ext vector
    simp only [vertices, List.tail_cons, List.map_cons, List.mem_cons, Set.mem_union,
      Set.mem_ofPred_eq, Set.mem_singleton_iff]
    tauto
  rw [pointsEq, transformAabb]
  rw [List.foldl_map] at hull
  exact hull

theorem mem_vertices_of_nonneg (nonneg : ∀ axis, 0 ≤ box.size.coord axis) {vertex : Vector3}
    (listed : vertex ∈ vertices box) : box.hasPoint vertex := by
  rw [AABB.hasPoint_iff]
  intro axis
  have extent := nonneg axis
  rw [AABB.coord_getEnd, rounded_eq]
  rcases mem_vertices_iff.mp listed axis with atPosition | atEnd
  · rw [atPosition]
    constructor <;> linarith
  · rw [atEnd, AABB.coord_getEnd, rounded_eq]
    constructor <;> linarith

/-- The transformed box is the least one that holds the image of the whole box. -/
theorem isHull_transformAabb (nonneg : ∀ axis, 0 ≤ box.size.coord axis)
    (transform : Transform3D) :
    (transformAabb box transform).IsHull (transform.xform '' {point | box.hasPoint point}) := by
  apply (isHull_vertices box transform).of_subset
  · rintro vector vectorMem
    rcases List.mem_map.mp vectorMem with ⟨vertex, listed, rfl⟩
    exact ⟨vertex, mem_vertices_of_nonneg nonneg listed, rfl⟩
  · rintro other holds _ ⟨point, inside, rfl⟩
    rw [AABB.hasPoint_iff]
    intro axis
    rcases xform_between_vertices transform inside axis with
      ⟨⟨low, lowListed, lowLe⟩, high, highListed, leHigh⟩
    have lowIn := AABB.hasPoint_iff.mp (holds _ (List.mem_map_of_mem lowListed)) axis
    have highIn := AABB.hasPoint_iff.mp (holds _ (List.mem_map_of_mem highListed)) axis
    exact ⟨lowIn.1.trans lowLe, leHigh.trans highIn.2⟩

end OneBox

structure VisualInstance3D where
  aabb : AABB
  globalTransform : Transform3D
  isInsideTree : Bool

/-- What a node path resolves to: a visual instance or a node of another class. -/
inductive PathTarget where
  | visual (vis : VisualInstance3D)
  | other

/-- The visual instance that a source contributes, if any. -/
def sourceInstance {NodePath : Type} (getNode : NodePath → Option PathTarget) (path : NodePath) :
    Option VisualInstance3D :=
  match getNode path with
  | some (.visual vis) => if vis.isInsideTree then some vis else none
  | some .other => none
  | none => none

/-- `StreamObjectNode::get_aabb`. -/
def getAabb {NodePath : Type} (getNode : NodePath → Option PathTarget) (globalPosition : Vector3)
    (aabbSources : List NodePath) : AABB :=
  let total : AABB := ⟨globalPosition, ⟨0, 0, 0⟩⟩
  if aabbSources.isEmpty then total
  else aabbSources.foldl (fun total path =>
    match sourceInstance getNode path with
    | some vis => total.mergeWith (transformAabb vis.aabb vis.globalTransform)
    | none => total) total

section Sources

variable {NodePath : Type} {getNode : NodePath → Option PathTarget} {globalPosition : Vector3}
  {aabbSources : List NodePath}

/-- The node position and the image of every point of every source box. -/
def worldPoints (getNode : NodePath → Option PathTarget) (globalPosition : Vector3)
    (aabbSources : List NodePath) : Set Vector3 :=
  {vector | vector = globalPosition ∨ ∃ path ∈ aabbSources, ∃ vis,
    sourceInstance getNode path = some vis ∧
      ∃ point, vis.aabb.hasPoint point ∧ vis.globalTransform.xform point = vector}

/-- The boxes of the sources have non-negative extents. -/
def SourcesNonneg (getNode : NodePath → Option PathTarget) (aabbSources : List NodePath) : Prop :=
  ∀ path ∈ aabbSources, ∀ vis, sourceInstance getNode path = some vis →
    ∀ axis, 0 ≤ vis.aabb.size.coord axis

theorem isHull_foldl_sources {total : AABB} {points : Set Vector3} (hull : total.IsHull points)
    (nonneg : SourcesNonneg getNode aabbSources) :
    (aabbSources.foldl (fun total path =>
      match sourceInstance getNode path with
      | some vis => total.mergeWith (transformAabb vis.aabb vis.globalTransform)
      | none => total) total).IsHull
      (points ∪ {vector | ∃ path ∈ aabbSources, ∃ vis, sourceInstance getNode path = some vis ∧
        ∃ point, vis.aabb.hasPoint point ∧ vis.globalTransform.xform point = vector}) := by
  induction aabbSources generalizing total points with
  | nil => simpa using hull
  | cons path rest ih =>
      have restNonneg : SourcesNonneg getNode rest :=
        fun other otherMem => nonneg other (List.mem_cons_of_mem _ otherMem)
      rw [List.foldl_cons]
      cases found : sourceInstance getNode path with
      | none =>
          convert ih hull restNonneg using 2
          ext vector
          simp [found]
      | some vis =>
          have merged := hull.mergeWith (isHull_transformAabb
            (nonneg path List.mem_cons_self vis found) vis.globalTransform)
          convert ih merged restNonneg using 1
          ext vector
          simp only [List.mem_cons, exists_eq_or_imp, found, Option.some.injEq, exists_eq_left',
            Set.mem_union, Set.mem_ofPred_eq, Set.mem_image, or_assoc]

theorem isHull_getAabb (nonneg : SourcesNonneg getNode aabbSources) :
    (getAabb getNode globalPosition aabbSources).IsHull
      (worldPoints getNode globalPosition aabbSources) := by
  have hull := isHull_foldl_sources (AABB.isHull_point globalPosition) nonneg
  unfold getAabb
  split
  case isTrue empty =>
    rw [List.isEmpty_iff] at empty
    subst empty
    exact hull
  case isFalse => exact hull

/-- The order and the repetition of the sources do not change the points. -/
theorem worldPoints_congr {others : List NodePath}
    (same : ∀ path, path ∈ others ↔ path ∈ aabbSources) :
    worldPoints getNode globalPosition others = worldPoints getNode globalPosition aabbSources := by
  simp only [worldPoints, same]

/-- `get_aabb` is the least box around the node position and the images of the source boxes, and
depends on the set of the sources only. -/
theorem getAabb_tight (nonneg : SourcesNonneg getNode aabbSources) :
    (getAabb getNode globalPosition aabbSources).IsHull
      (worldPoints getNode globalPosition aabbSources) ∧
    ∀ others : List NodePath, (∀ path, path ∈ others ↔ path ∈ aabbSources) →
      getAabb getNode globalPosition others = getAabb getNode globalPosition aabbSources := by
  refine ⟨isHull_getAabb nonneg, ?_⟩
  intro others same
  have othersNonneg : SourcesNonneg getNode others :=
    fun path pathMem => nonneg path ((same path).mp pathMem)
  have othersHull : (getAabb getNode globalPosition others).IsHull
      (worldPoints getNode globalPosition others) := isHull_getAabb othersNonneg
  rw [worldPoints_congr same] at othersHull
  exact othersHull.unique (isHull_getAabb nonneg)

/-- A unit cube under a singular shear. -/
def shearedInstance : VisualInstance3D :=
  { aabb := ⟨⟨0, 0, 0⟩, ⟨1, 1, 1⟩⟩
    globalTransform := ⟨⟨⟨1, -2, 0⟩, ⟨0, 1, 3⟩, ⟨0, 0, 0⟩⟩, ⟨5, 0, 1⟩⟩
    isInsideTree := true }

theorem getAabb_tight_sheared :
    (⟨⟨0, 0, 0⟩, ⟨6, 4, 1⟩⟩ : AABB).IsHull
      (worldPoints (fun _ : Unit => some (.visual shearedInstance)) ⟨0, 0, 0⟩ [()]) := by
  have nonneg : SourcesNonneg (fun _ : Unit => some (.visual shearedInstance)) [()] := by
    rintro _ _ vis found
    simp only [sourceInstance, shearedInstance, if_true, Option.some.injEq] at found
    subst found
    decide +kernel
  have computed : getAabb (fun _ : Unit => some (.visual shearedInstance)) ⟨0, 0, 0⟩ [()] =
      ⟨⟨0, 0, 0⟩, ⟨6, 4, 1⟩⟩ := by decide +kernel
  rw [← computed]
  exact (getAabb_tight nonneg).1

end Sources

end GodotStream
