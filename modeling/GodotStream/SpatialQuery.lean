import GodotStream.FlushTask

/-!
# Which intersecting queries find an object

An object is indexed under the tile that contains its truncated corner. The tile
is about as long as the largest extent of the box, but the box may start anywhere
inside it, so its far end can lie past the tile's upper face, where no query
finds the object. This file determines the boxes that every intersecting query
finds: those that reach the upper face by less than what truncation forgives,
in a tile that the R-tree can store. Coordinates are exact numbers here, and only the
logarithm of the extent is rounded.
-/

namespace GodotStream

open IntegerGrid Storage ExactArithmetic

namespace Chunk

/-- The upper face of the cell that holds the truncated corner, in the grid of the least level that
is kept for the largest extent. -/
def upperFace (box : AABB) (axis : Axis) : ℤ :=
  floorTo (4 ^ gridLevel (maxExtent box)) (truncate (box.position.coord axis)) +
    4 ^ gridLevel (maxExtent box)

/-- On every axis the box ends at the upper face of its grid cell or below, up to the fraction
that truncation drops above zero, and the face is a signed 32-bit integer. -/
def FitsCell (box : AABB) : Prop :=
  ∀ axis, upperFace box axis < 2 ^ 31 ∧
    box.getEnd.coord axis ≤ upperFace box axis + if 0 < box.getEnd.coord axis then 1 else 0

instance (box : AABB) : Decidable (FitsCell box) := by
  unfold FitsCell
  infer_instance

end Chunk

open Chunk

section Cell

variable {box : AABB}

theorem level_le (small : ∀ axis, box.size.coord axis ≤ 4 ^ 14) :
    gridLevel (maxExtent box) ≤ 14 :=
  gridLevel_le (maxExtent_le (by norm_num) small)

theorem level_computeChunk (small : ∀ axis, box.size.coord axis ≤ 4 ^ 14) :
    (computeChunk box).level = gridLevel (maxExtent box) := by
  apply computeLevel_eq
  apply (maxExtent_le (by norm_num) small).trans
  norm_num

theorem corner_computeChunk (inRange : box.InRange)
    (small : ∀ axis, box.size.coord axis ≤ 4 ^ 14) (axis : Axis) :
    (computeChunk box).coord axis = floorTo (4 ^ gridLevel (maxExtent box))
      (truncate (box.position.coord axis)) := by
  have levelEq := level_computeChunk small
  have atMost := level_le small
  rw [coord_computeChunk]
  change computeLevel (maxExtent box) = _ at levelEq
  rw [levelEq]
  exact tileCoord_eq (by omega) (inRange axis).1

/-- The cell starts inside the 32-bit range and ends at most one past it. -/
theorem cell_inRange (inRange : box.InRange)
    (small : ∀ axis, box.size.coord axis ≤ 4 ^ 14) (axis : Axis) :
    InInt32 ((computeChunk box).coord axis) ∧ upperFace box axis ≤ 2 ^ 31 ∧
      -2 ^ 31 < upperFace box axis := by
  have corner := corner_computeChunk inRange small axis
  have atMost := level_le small
  have inside := (inRange axis).1
  simp only [upperFace]
  rw [← corner]
  generalize gridLevel (maxExtent box) = level at corner atMost
  have positive : (0 : ℤ) < 4 ^ level := by positivity
  have below := floorTo_le positive (truncate (box.position.coord axis))
  have divides := four_pow_dvd (by omega : level ≤ 15)
  simp only [InInt32] at inside ⊢
  -- the ends of the range are multiples of the spacing, so no cell crosses them
  have lowerLe := (le_floorTo_iff positive (dvd_neg.mpr divides)).mpr inside.1
  have upperLe := (floorTo_add_le_iff positive divides).mpr inside.2
  rw [corner]
  exact ⟨⟨lowerLe, by omega⟩, upperLe, by omega⟩

theorem tileEdge_computeChunk (small : ∀ axis, box.size.coord axis ≤ 4 ^ 14) :
    tileEdge (computeChunk box).level = 4 ^ gridLevel (maxExtent box) := by
  rw [level_computeChunk small, tileEdge_eq ((level_le small).trans (by norm_num))]

theorem corner_add_tileEdge (inRange : box.InRange)
    (small : ∀ axis, box.size.coord axis ≤ 4 ^ 14) (axis : Axis) :
    (computeChunk box).coord axis + tileEdge (computeChunk box).level = upperFace box axis := by
  rw [corner_computeChunk inRange small, tileEdge_computeChunk small]
  rfl

/-- The stored row is the grid cell of the box. -/
theorem bounds_of_triggerRow (inRange : box.InRange)
    (small : ∀ axis, box.size.coord axis ≤ 4 ^ 14) {tile : BoxColumns}
    (stored : triggerRow (computeChunk box) = some tile) (axis : Axis) :
    upperFace box axis < 2 ^ 31 ∧ tile.lower axis = (computeChunk box).coord axis ∧
      tile.upper axis = upperFace box axis := by
  rcases cell_inRange inRange small axis with ⟨cornerIn, faceLe, faceGt⟩
  have edgeEq := corner_add_tileEdge inRange small axis
  have ordered := exists_triggerRow_iff.mp ⟨tile, stored⟩ axis
  rw [edgeEq, wrap32_of_inInt32 cornerIn] at ordered
  have faceLt : upperFace box axis < 2 ^ 31 := by
    by_contra large
    have faceEq : upperFace box axis = 2 ^ 31 := by omega
    -- the bound past the range wraps to the least integer, below the corner
    have wrapped : wrap32 (2 ^ 31) = -2 ^ 31 := by decide
    rw [faceEq, wrapped] at ordered
    have edgeLe : tileEdge (computeChunk box).level ≤ 2 ^ 28 := by
      rw [tileEdge_computeChunk small]
      calc (4 : ℤ) ^ gridLevel (maxExtent box) ≤ 4 ^ 14 :=
            pow_le_pow_right₀ (by norm_num) (level_le small)
        _ = 2 ^ 28 := by norm_num
    omega
  refine ⟨faceLt, ?_, ?_⟩
  · rw [lower_triggerRow stored, wrap32_of_inInt32 cornerIn]
  · rw [upper_triggerRow stored, edgeEq, wrap32_of_inInt32 ⟨by omega, faceLt⟩]

theorem exists_triggerRow (inRange : box.InRange)
    (small : ∀ axis, box.size.coord axis ≤ 4 ^ 14)
    (faces : ∀ axis, upperFace box axis < 2 ^ 31) :
    ∃ tile, triggerRow (computeChunk box) = some tile := by
  apply exists_triggerRow_iff.mpr
  intro axis
  rcases cell_inRange inRange small axis with ⟨cornerIn, _, faceGt⟩
  have edgeEq := corner_add_tileEdge inRange small axis
  rw [edgeEq, wrap32_of_inInt32 cornerIn, wrap32_of_inInt32 ⟨by omega, faces axis⟩, ← edgeEq]
  have : 0 ≤ tileEdge (computeChunk box).level := by
    rw [tileEdge_computeChunk small]
    positivity
  omega

/-- The lower face never hides an object: truncation is monotone. -/
theorem corner_le_of_lt (inRange : box.InRange)
    (small : ∀ axis, box.size.coord axis ≤ 4 ^ 14) {axis : Axis} {a : ℚ}
    (above : box.position.coord axis < a) : (computeChunk box).coord axis ≤ truncate a := by
  rw [corner_computeChunk inRange small]
  exact (floorTo_le (by positivity) _).trans (truncate_mono above.le)

end Cell

section Query

variable {box : AABB}

/-- A box in a fitting cell is met by every intersecting query. -/
theorem overlapsBox_of_fitsCell (inRange : box.InRange)
    (small : ∀ axis, box.size.coord axis ≤ 4 ^ 14) (fits : FitsCell box) {query : AABB}
    (queryInRange : query.InRange) (meets : box.intersects query) :
    ∃ tile, triggerRow (computeChunk box) = some tile ∧
      StreamSqliteDB.overlapsBox tile query := by
  rcases exists_triggerRow inRange small (fun axis => (fits axis).1) with ⟨tile, stored⟩
  refine ⟨tile, stored, ?_⟩
  rw [StreamSqliteDB.overlapsBox_iff]
  intro axis
  rcases bounds_of_triggerRow inRange small stored axis with ⟨_, lowerEq, upperEq⟩
  rcases AABB.intersects_iff.mp meets axis with ⟨startsBefore, endsAfter⟩
  rw [lowerEq, upperEq, toInt32_of_inInt32 (queryInRange axis).1,
    toInt32_of_inInt32 (queryInRange axis).2]
  exact ⟨corner_le_of_lt inRange small startsBefore, truncate_le_of_lt endsAfter (fits axis).2⟩

/-- On every axis some interval inside the 32-bit range overlaps the box; when the box reaches
past its cell the interval can be chosen to start past the upper face. -/
theorem exists_interval (inRange : box.InRange) (axis : Axis) (face : ℤ) :
    ∃ start stop : ℚ, InInt32 (truncate start) ∧ InInt32 (truncate stop) ∧ start < stop ∧
      box.position.coord axis < stop ∧ start < box.getEnd.coord axis ∧
      ((face : ℚ) + (if 0 < box.getEnd.coord axis then 1 else 0) < box.getEnd.coord axis →
        face < truncate start) := by
  rcases inInt32_truncate_iff.mp (inRange axis).1 with ⟨_, positionLt⟩
  rcases inInt32_truncate_iff.mp (inRange axis).2 with ⟨endGt, endLt⟩
  have start_exists : ∃ start : ℚ, -2 ^ 31 - 1 < start ∧ start < box.getEnd.coord axis ∧
      ((face : ℚ) + (if 0 < box.getEnd.coord axis then 1 else 0) < box.getEnd.coord axis →
        face < truncate start) := by
    by_cases past : (face : ℚ) + (if 0 < box.getEnd.coord axis then 1 else 0) <
        box.getEnd.coord axis
    · rcases exists_lt_truncate past endGt with ⟨start, startGt, startLt, beyond⟩
      exact ⟨start, startGt, startLt, fun _ => beyond⟩
    · rcases exists_between endGt with ⟨start, startGt, startLt⟩
      exact ⟨start, startGt, startLt, fun h => absurd h past⟩
  rcases start_exists with ⟨start, startGt, startLt, beyond⟩
  have room : max (box.position.coord axis) start < 2 ^ 31 :=
    max_lt positionLt (startLt.trans endLt)
  rcases exists_between room with ⟨stop, stopGt, stopLt⟩
  have startStop : start < stop := (le_max_right _ _).trans_lt stopGt
  refine ⟨start, stop, ?_, ?_, startStop, (le_max_left _ _).trans_lt stopGt, startLt, beyond⟩
  · exact inInt32_truncate_iff.mpr ⟨startGt, startLt.trans endLt⟩
  · exact inInt32_truncate_iff.mpr ⟨startGt.trans startStop, stopLt⟩

/-- A box that is met by every intersecting query lies in a fitting cell. -/
theorem fitsCell_of_overlapsBox (inRange : box.InRange)
    (small : ∀ axis, box.size.coord axis ≤ 4 ^ 14)
    (complete : ∀ query : AABB, query.InRange → box.intersects query →
      ∃ tile, triggerRow (computeChunk box) = some tile ∧
        StreamSqliteDB.overlapsBox tile query) : FitsCell box := by
  choose start stop startIn stopIn startStop stopGt startLt beyond using
    fun axis => exists_interval inRange axis (upperFace box axis)
  let query : AABB :=
    { position := .ofCoords start
      size := .ofCoords fun axis => stop axis - start axis }
  have endEq (axis : Axis) : query.getEnd.coord axis = stop axis := by
    simp [query, AABB.coord_getEnd]
  have queryInRange : query.InRange := by
    intro axis
    rw [endEq]
    simpa [query] using ⟨startIn axis, stopIn axis⟩
  have meets : box.intersects query := by
    apply AABB.intersects_iff.mpr
    intro axis
    rw [endEq]
    simpa [query] using ⟨stopGt axis, startLt axis⟩
  rcases complete query queryInRange meets with ⟨tile, stored, overlap⟩
  intro axis
  rcases bounds_of_triggerRow inRange small stored axis with ⟨faceLt, _, upperEq⟩
  refine ⟨faceLt, ?_⟩
  by_contra past
  push Not at past
  have reached := (StreamSqliteDB.overlapsBox_iff.mp overlap axis).2
  rw [upperEq, toInt32_of_inInt32 (queryInRange axis).1] at reached
  have beyondFace := beyond axis past
  simp only [query, Vector3.coord_ofCoords] at reached
  omega

/-- Every query that intersects the box an object's chunk was computed from finds the object,
alone and in every list, exactly when the box fits its grid cell. -/
theorem queryObjects_complete_iff (db : StreamSqliteDB) (uuid : Uuid) (inRange : box.InRange)
    (small : ∀ axis, box.size.coord axis ≤ 4 ^ 14)
    (inChunk : db.chunkOf uuid = some (computeChunk box)) :
    (∀ query : AABB, query.InRange → box.intersects query →
      (∃ tile, triggerRow (computeChunk box) = some tile ∧
        StreamSqliteDB.overlapsBox tile query) ∧
      uuid ∈ db.queryObjects query ∧
      ∀ queries : List AABB, query ∈ queries → uuid ∈ db.queryObjectsAny queries) ↔
    FitsCell box := by
  constructor
  · intro complete
    apply fitsCell_of_overlapsBox inRange small
    intro query queryInRange meets
    exact (complete query queryInRange meets).1
  · intro fits query queryInRange meets
    have overlap := overlapsBox_of_fitsCell inRange small fits queryInRange meets
    refine ⟨overlap, ?_, ?_⟩
    · rw [StreamSqliteDB.queryObjects, StreamSqliteDB.mem_collectObjects_of_chunkOf inChunk]
      simpa using overlap
    · intro queries listed
      have nonempty : queries.isEmpty = false := by
        cases queries with
        | nil => simp at listed
        | cons => rfl
      rw [StreamSqliteDB.queryObjectsAny, nonempty, if_neg (by simp),
        StreamSqliteDB.mem_collectObjects_of_chunkOf inChunk]
      rcases overlap with ⟨tile, stored, overlaps⟩
      refine ⟨tile, stored, ?_⟩
      simp only [List.any_eq_true, decide_eq_true_eq]
      exact ⟨query, listed, (StreamSqliteDB.overlapsBound_bindAabb tile query).mpr overlaps⟩

end Query

section Overhang

/-- The flush of one new object with the given box into a fresh database. -/
def flushOne (box : AABB) : Option FlushState :=
  flushTask ⟨[(1, {})], ∅, Table.insert ∅ 1 box⟩ StreamSqliteDB.create

/-- A query that meets both boxes below. -/
def pastFaceQuery : AABB :=
  { position := ⟨6, 0, 0⟩, size := ⟨1, 1, 1⟩ }

/-- A box that ends at the upper face of its tile. -/
def fittingBox : AABB :=
  { position := ⟨4, 0, 0⟩, size := ⟨4, 4, 4⟩ }

theorem queryObjects_finds_fittingBox :
    1 ∈ ((flushOne fittingBox).elim .create FlushState.db).queryObjects pastFaceQuery := by
  have inRange : fittingBox.InRange := by decide +kernel
  have fits : FitsCell fittingBox := by decide +kernel
  have complete := (queryObjects_complete_iff ((flushOne fittingBox).elim .create FlushState.db) 1
    inRange (by decide +kernel) (by decide +kernel)).mpr fits
  exact (complete pastFaceQuery (by decide +kernel) (by decide +kernel)).2.1

/-- A box of the same extents that starts one unit below the upper face of its tile. -/
def overhangingBox : AABB :=
  { position := ⟨3, 0, 0⟩, size := ⟨4, 4, 4⟩ }

theorem queryObjects_misses_overhangingBox :
    overhangingBox.InRange ∧ (∀ axis, overhangingBox.size.coord axis ≤ 4 ^ 14) ∧
    pastFaceQuery.InRange ∧ overhangingBox.intersects pastFaceQuery ∧
    ∃ state ∈ flushOne overhangingBox, state.boxes.get? 1 = some overhangingBox ∧
      state.db.chunkOf 1 = some (computeChunk overhangingBox) ∧
      1 ∉ state.db.queryObjects pastFaceQuery ∧
      1 ∉ state.db.queryObjectsAny [pastFaceQuery] := by
  decide +kernel

end Overhang

end GodotStream
