import GodotStream.ChunkIndex

/-!
# The tiles of chunks

A chunk of level `n` names the cube of edge `4 ^ n` whose least corner it holds.
Up to level 15 the bit mask rounds the truncated corner of a box down to the grid
of the level, so that tiles are cells of nested grids. The first part draws the
hierarchy from that. The second determines the boxes whose tile reaches the
R-tree: from level 16 on the mask is zero and the edge vanishes modulo `2 ^ 32`,
and the last tile below `2 ^ 31` has an upper bound that wraps.
-/

namespace GodotStream

open IntegerGrid Storage

namespace Chunk

/-- The integer points of a chunk, in unbounded integers. -/
def tile (chunk : Chunk) : Set (Axis → ℤ) :=
  cube chunk.coord (4 ^ chunk.level)

/-- The truncated position of a box. -/
def cornerPoint (box : AABB) : Axis → ℤ :=
  fun axis => truncate (box.position.coord axis)

theorem ext_coord {chunk other : Chunk} (sameLevel : chunk.level = other.level)
    (same : ∀ axis, chunk.coord axis = other.coord axis) : chunk = other := by
  cases chunk
  cases other
  have onX := same .x
  have onY := same .y
  have onZ := same .z
  simp only [coord] at onX onY onZ sameLevel
  rw [onX, onY, onZ, sameLevel]

section Hierarchy

variable {box other : AABB}

theorem coord_computeChunk_of_level_le (inRange : ∀ axis, InInt32 (cornerPoint box axis))
    (fits : (computeChunk box).level ≤ 15) (axis : Axis) :
    (computeChunk box).coord axis =
      floorTo (4 ^ (computeChunk box).level) (cornerPoint box axis) := by
  rw [coord_computeChunk]
  exact tileCoord_eq fits (inRange axis)

theorem tile_computeChunk (inRange : ∀ axis, InInt32 (cornerPoint box axis))
    (fits : (computeChunk box).level ≤ 15) :
    (computeChunk box).tile = cellOf (4 ^ (computeChunk box).level) (cornerPoint box) := by
  have coordEq := funext (coord_computeChunk_of_level_le inRange fits)
  rw [tile, cellOf, coordEq]

/-- Chunks of one level are the same when their tiles share the corner points. -/
theorem computeChunk_eq_iff (inRange : ∀ axis, InInt32 (cornerPoint box axis))
    (otherInRange : ∀ axis, InInt32 (cornerPoint other axis))
    (fits : (computeChunk other).level ≤ 15)
    (sameLevel : (computeChunk box).level = (computeChunk other).level) :
    computeChunk box = computeChunk other ↔
      cornerPoint box ∈ (computeChunk other).tile ∧
        cornerPoint other ∈ (computeChunk box).tile := by
  have boxFits : (computeChunk box).level ≤ 15 := by omega
  have positive : (0 : ℤ) < 4 ^ (computeChunk other).level := by positivity
  rw [tile_computeChunk inRange boxFits, tile_computeChunk otherInRange fits, sameLevel]
  constructor
  · intro same
    have cellEq : cellOf (4 ^ (computeChunk other).level) (cornerPoint box) =
        cellOf (4 ^ (computeChunk other).level) (cornerPoint other) := by
      rw [← tile_computeChunk otherInRange fits, ← same, tile_computeChunk inRange boxFits]
    rw [← cellEq]
    exact ⟨self_mem_cellOf positive _, cellEq ▸ self_mem_cellOf positive _⟩
  · rintro ⟨inOther, _⟩
    apply ext_coord sameLevel
    intro axis
    rw [coord_computeChunk_of_level_le inRange boxFits,
      coord_computeChunk_of_level_le otherInRange fits, sameLevel]
    exact (mem_cellOf_iff positive).mp inOther axis

/-- The tile of a box holds its truncated position, tiles are nested or disjoint, and chunks of
one level are the same exactly when each tile holds the other's truncated position. -/
theorem tiles_form_hierarchy (inRange : ∀ axis, InInt32 (cornerPoint box axis))
    (otherInRange : ∀ axis, InInt32 (cornerPoint other axis))
    (levelLe : (computeChunk box).level ≤ (computeChunk other).level)
    (fits : (computeChunk other).level ≤ 15) :
    cornerPoint box ∈ (computeChunk box).tile ∧
    ((computeChunk box).tile ⊆ (computeChunk other).tile ∨
      Disjoint (computeChunk box).tile (computeChunk other).tile) ∧
    ((computeChunk box).level = (computeChunk other).level →
      (computeChunk box = computeChunk other ↔
        cornerPoint box ∈ (computeChunk other).tile ∧
          cornerPoint other ∈ (computeChunk box).tile)) := by
  have boxFits := levelLe.trans fits
  refine ⟨?_, ?_, computeChunk_eq_iff inRange otherInRange fits⟩
  · rw [tile_computeChunk inRange boxFits]
    exact self_mem_cellOf (by positivity) _
  · rw [tile_computeChunk inRange boxFits, tile_computeChunk otherInRange fits]
    apply cellOf_subset_or_disjoint (by positivity) _ (by positivity)
    exact pow_dvd_pow 4 levelLe

/-- A unit box and a larger one below zero. -/
def smallBox : AABB :=
  { position := ⟨-5, -1, -4⟩, size := ⟨1, 1, 1⟩ }

def largeBox : AABB :=
  { position := ⟨-7, -3 / 2, -1⟩, size := ⟨6, 2, 1⟩ }

theorem tiles_form_hierarchy_nested :
    (computeChunk smallBox).level < (computeChunk largeBox).level ∧
    ((computeChunk smallBox).tile ⊆ (computeChunk largeBox).tile ∨
      Disjoint (computeChunk smallBox).tile (computeChunk largeBox).tile) := by
  have lower : (computeChunk smallBox).level < (computeChunk largeBox).level := by decide +kernel
  have nested := tiles_form_hierarchy
    (by decide +kernel : ∀ axis, InInt32 (cornerPoint smallBox axis))
    (by decide +kernel : ∀ axis, InInt32 (cornerPoint largeBox axis)) lower.le (by decide +kernel)
  exact ⟨lower, nested.2.1⟩

end Hierarchy

section Storage

variable {box : AABB}

/-- Up to level 15 of the grid the truncated position stays below `2 ^ 31` when the edge of the tile
is added; up to level 31 it is zero on every axis, and past that the tiles are unit cubes. -/
def TileFits (box : AABB) : Prop :=
  ∀ axis,
    if gridLevel (maxExtent box) ≤ 15 then
      cornerPoint box axis + 4 ^ gridLevel (maxExtent box) < 2 ^ 31
    else if gridLevel (maxExtent box) ≤ 31 then cornerPoint box axis = 0
    else cornerPoint box axis + 1 < 2 ^ 31

instance (box : AABB) : Decidable (TileFits box) := by
  unfold TileFits
  infer_instance

/-- A cell of a grid up to level 15 keeps its bounds, or its upper bound wraps below them. -/
theorem wrap32_cell {level : ℕ} {n : ℤ} (fits : level ≤ 15) (inRange : InInt32 n) :
    (n + 4 ^ level < 2 ^ 31 ∧ wrap32 (floorTo (4 ^ level) n) = floorTo (4 ^ level) n ∧
      wrap32 (floorTo (4 ^ level) n + 4 ^ level) = floorTo (4 ^ level) n + 4 ^ level) ∨
    (¬ n + 4 ^ level < 2 ^ 31 ∧
      wrap32 (floorTo (4 ^ level) n + 4 ^ level) < wrap32 (floorTo (4 ^ level) n)) := by
  have positive : (0 : ℤ) < 4 ^ level := by positivity
  have edgeLe : (4 : ℤ) ^ level ≤ 4 ^ 15 := pow_le_pow_right₀ (by norm_num) fits
  have divides := four_pow_dvd fits
  have below := floorTo_le positive n
  have lowerLe := (le_floorTo_iff positive (dvd_neg.mpr divides)).mpr inRange.1
  have upperLe := (floorTo_add_le_iff positive divides).mpr inRange.2
  have lastCell : (2 : ℤ) ^ 31 - 4 ^ level ≤ floorTo (4 ^ level) n ↔ 2 ^ 31 - 4 ^ level ≤ n :=
    le_floorTo_iff positive (dvd_sub divides dvd_rfl)
  have previousCell : floorTo (4 ^ level) n + 4 ^ level ≤ 2 ^ 31 - 4 ^ level ↔
      n < 2 ^ 31 - 4 ^ level := floorTo_add_le_iff positive (dvd_sub divides dvd_rfl)
  have upperIn := inRange.2
  have cornerIn : InInt32 (floorTo (4 ^ level) n) := ⟨lowerLe, by omega⟩
  rw [wrap32_of_inInt32 cornerIn]
  by_cases inside : n + 4 ^ level < 2 ^ 31
  · left
    have upperFits := previousCell.mpr (by omega)
    exact ⟨inside, rfl, wrap32_of_inInt32 ⟨by omega, by omega⟩⟩
  · right
    have faceEq : floorTo (4 ^ level) n + 4 ^ level = 2 ^ 31 := by
      have := lastCell.mpr (by omega)
      omega
    have wrapped : wrap32 (2 ^ 31) = -2 ^ 31 := by decide
    rw [faceEq, wrapped]
    exact ⟨inside, by norm_num at edgeLe; omega⟩

/-- From level 16 on every coordinate is masked to zero. -/
theorem tileCoord_of_large {level : ℕ} (large : 15 < level) (a : ℚ) : tileCoord level a = 0 := by
  simp only [tileCoord, mask, if_neg (by omega : ¬ 2 * level < 32), BitVec.and_zero]
  rfl

/-- From level 16 on the edge vanishes in a 32-bit register. -/
theorem wrap32_tileEdge_of_large {level : ℕ} (large : 15 < level) (atMost : level ≤ 31) :
    wrap32 (tileEdge level) = 0 := by
  have power : (4 : ℤ) ^ level = 2 ^ (2 * level) := by
    rw [pow_mul]
    norm_num
  rw [tileEdge_eq atMost, power]
  apply Int.bmod_eq_zero_of_dvd
  exact_mod_cast pow_dvd_pow (2 : ℤ) (by omega : 32 ≤ 2 * level)

/-- The row holds the truncated position of the box, and is as long as the tile when that length
is a 32-bit number. -/
def CoversCorner (row : BoxColumns) (box : AABB) : Prop :=
  ∀ axis, row.lower axis ≤ cornerPoint box axis ∧ cornerPoint box axis ≤ row.upper axis ∧
    (4 ^ (computeChunk box).level < (2 : ℤ) ^ 32 →
      row.upper axis - row.lower axis = 4 ^ (computeChunk box).level)

instance (row : BoxColumns) (box : AABB) : Decidable (CoversCorner row box) := by
  unfold CoversCorner
  infer_instance

/-- The interval that the trigger computes on one axis. -/
theorem exists_coversCorner_iff :
    (∃ row, triggerRow (computeChunk box) = some row ∧ CoversCorner row box) ↔ ∀ axis,
      wrap32 ((computeChunk box).coord axis) ≤ cornerPoint box axis ∧
      cornerPoint box axis ≤
        wrap32 ((computeChunk box).coord axis + tileEdge (computeChunk box).level) ∧
      (4 ^ (computeChunk box).level < (2 : ℤ) ^ 32 →
        wrap32 ((computeChunk box).coord axis + tileEdge (computeChunk box).level) -
          wrap32 ((computeChunk box).coord axis) = 4 ^ (computeChunk box).level) := by
  constructor
  · rintro ⟨row, stored, covers⟩ axis
    rw [← lower_triggerRow stored, ← upper_triggerRow stored]
    exact covers axis
  · intro covers
    have ordered := exists_triggerRow_iff.mpr fun axis => (covers axis).1.trans (covers axis).2.1
    rcases ordered with ⟨row, stored⟩
    refine ⟨row, stored, fun axis => ?_⟩
    rw [lower_triggerRow stored, upper_triggerRow stored]
    exact covers axis

theorem coversAxis_iff_of_le {level : ℕ} {n : ℤ} (fits : level ≤ 15) (inRange : InInt32 n) :
    (wrap32 (floorTo (4 ^ level) n) ≤ n ∧ n ≤ wrap32 (floorTo (4 ^ level) n + tileEdge level) ∧
      (4 ^ level < (2 : ℤ) ^ 32 → wrap32 (floorTo (4 ^ level) n + tileEdge level) -
        wrap32 (floorTo (4 ^ level) n) = 4 ^ level)) ↔ n + 4 ^ level < 2 ^ 31 := by
  have positive : (0 : ℤ) < 4 ^ level := by positivity
  rw [tileEdge_eq (by omega)]
  rcases wrap32_cell fits inRange with ⟨inside, lowerEq, upperEq⟩ | ⟨outside, disordered⟩
  · rw [lowerEq, upperEq]
    have below := floorTo_le positive n
    have above := lt_floorTo_add positive n
    refine iff_of_true ⟨below, above.le, fun _ => by omega⟩ inside
  · constructor
    · rintro ⟨starts, ends, _⟩
      omega
    · intro inside
      exact absurd inside outside

theorem four_pow_lt_iff {level : ℕ} : (4 : ℤ) ^ level < 2 ^ 32 ↔ level ≤ 15 := by
  have power : (2 : ℤ) ^ 32 = 4 ^ 16 := by norm_num
  rw [power, pow_lt_pow_iff_right₀ (by norm_num)]
  omega

theorem coversAxis_iff_of_large {level : ℕ} {n : ℤ} (large : 15 < level) (atMost : level ≤ 31) :
    (wrap32 0 ≤ n ∧ n ≤ wrap32 (0 + tileEdge level) ∧
      (4 ^ level < (2 : ℤ) ^ 32 → wrap32 (0 + tileEdge level) - wrap32 0 = 4 ^ level)) ↔
    n = 0 := by
  have zero : wrap32 0 = 0 := rfl
  rw [zero_add, wrap32_tileEdge_of_large large atMost, zero, four_pow_lt_iff]
  omega

/-- The trigger stores a row that holds the truncated position exactly when the tile fits. -/
theorem exists_coversCorner_iff_tileFits (inRange : ∀ axis, InInt32 (cornerPoint box axis))
    (single : maxExtent box < 2 ^ 128) :
    (∃ row, triggerRow (computeChunk box) = some row ∧ CoversCorner row box) ↔ TileFits box := by
  have levelEq : (computeChunk box).level =
      if gridLevel (maxExtent box) ≤ 31 then gridLevel (maxExtent box) else 0 :=
    computeLevel_of_single single
  rw [exists_coversCorner_iff]
  apply forall_congr'
  intro axis
  by_cases fits : gridLevel (maxExtent box) ≤ 15
  · rw [if_pos (by omega)] at levelEq
    rw [coord_computeChunk_of_level_le inRange (levelEq ▸ fits), levelEq, if_pos fits]
    exact coversAxis_iff_of_le fits (inRange axis)
  · rw [if_neg fits]
    by_cases bounded : gridLevel (maxExtent box) ≤ 31
    · rw [if_pos bounded] at levelEq ⊢
      have large : 15 < gridLevel (maxExtent box) := not_le.mp fits
      have coordEq : (computeChunk box).coord axis = 0 := by
        change computeLevel (maxExtent box) = _ at levelEq
        rw [coord_computeChunk, levelEq]
        exact tileCoord_of_large large _
      rw [coordEq, levelEq]
      exact coversAxis_iff_of_large large bounded
    · rw [if_neg bounded] at levelEq ⊢
      rw [coord_computeChunk_of_level_le inRange (levelEq ▸ Nat.zero_le 15), levelEq]
      exact coversAxis_iff_of_le (Nat.zero_le 15) (inRange axis)

/-- Inserting the chunk of a box stores a row of the R-tree that holds the truncated position
exactly when the tile fits. -/
theorem insert_storesTile_iff {index : ChunkIndex}
    (inRange : ∀ axis, InInt32 (cornerPoint box axis)) (single : maxExtent box < 2 ^ 128)
    (missing : index.find (computeChunk box) = none) :
    (∃ id row, (index.insert (computeChunk box)).1 = some id ∧
      (index.insert (computeChunk box)).2.chunkRtree.get? id = some row ∧
      CoversCorner row box) ↔ TileFits box := by
  rw [← exists_coversCorner_iff_tileFits inRange single]
  rcases ChunkIndex.insert_of_find_none missing with ⟨idEq, metadataEq⟩
  have rowEq : (index.insert (computeChunk box)).2.chunkRtree.get? index.nextId =
      triggerRow (computeChunk box) := by
    rw [ChunkIndex.mirrored, metadataEq, Table.get?_insert_self, Option.bind_some]
  constructor
  · rintro ⟨id, row, returned, stored, covers⟩
    rw [idEq, Option.some.injEq] at returned
    rw [← returned, rowEq] at stored
    exact ⟨row, stored, covers⟩
  · rintro ⟨row, stored, covers⟩
    exact ⟨index.nextId, row, idEq, rowEq.trans stored, covers⟩

theorem insert_storesTile_largeBox :
    ∃ id row, (ChunkIndex.empty.insert (computeChunk largeBox)).1 = some id ∧
      (ChunkIndex.empty.insert (computeChunk largeBox)).2.chunkRtree.get? id = some row ∧
      CoversCorner row largeBox := by
  apply (insert_storesTile_iff (by decide +kernel) (by decide +kernel) (by decide +kernel)).mpr
  decide +kernel

/-- A box in the last tile of its level, whose upper face is `2 ^ 31`. -/
def lastTileBox : AABB :=
  { position := ⟨2 ^ 31 - 128, 0, 0⟩, size := ⟨128, 1, 1⟩ }

/-- A box whose level has an edge of `2 ^ 32`. -/
def hugeBox : AABB :=
  { position := ⟨1000, 0, 0⟩, size := ⟨2 ^ 31, 1, 1⟩ }

theorem insert_losesTile :
    (∀ axis, InInt32 (cornerPoint lastTileBox axis)) ∧
    (ChunkIndex.empty.insert (computeChunk lastTileBox)).1 = some 1 ∧
    (ChunkIndex.empty.insert (computeChunk lastTileBox)).2.chunkRtree.get? 1 = none ∧
    (∀ axis, InInt32 (cornerPoint hugeBox axis)) ∧ (computeChunk hugeBox).level = 16 ∧
    (ChunkIndex.empty.insert (computeChunk hugeBox)).1 = some 1 ∧
    ∃ row ∈ (ChunkIndex.empty.insert (computeChunk hugeBox)).2.chunkRtree.get? 1,
      ¬ CoversCorner row hugeBox := by
  decide +kernel

end Storage

end Chunk

end GodotStream
