import GodotStream.Chunk
import GodotStream.ObjectTable

/-!
# The chunk tables

`chunk_metadata` names chunks, and the trigger `after_insert_chunk_metadata`
stores the tile of every new chunk in the R-tree `chunk_rtree`. The tree holds
signed 32-bit coordinates: it keeps the low 32 bits of what it is given and
refuses a row whose lower bound exceeds its upper bound, which the trigger
ignores. Chunk rows are never deleted.
-/

namespace GodotStream

open Storage

/-- The SQL expression `1 << (2 * level)` on 64-bit integers. -/
def tileEdge (level : ℕ) : ℤ :=
  (1#64 <<< (2 * level)).toInt

/-- The R-tree row that the trigger stores for a chunk, if the tree accepts it. -/
def triggerRow (chunk : Chunk) : Option BoxColumns :=
  let row : BoxColumns :=
    { minX := wrap32 chunk.x
      maxX := wrap32 (chunk.x + tileEdge chunk.level)
      minY := wrap32 chunk.y
      maxY := wrap32 (chunk.y + tileEdge chunk.level)
      minZ := wrap32 chunk.z
      maxZ := wrap32 (chunk.z + tileEdge chunk.level) }
  if row.minX > row.maxX ∨ row.minY > row.maxY ∨ row.minZ > row.maxZ then none else some row

section TriggerRow

theorem lower_triggerRow {chunk : Chunk} {tile : BoxColumns} (stored : triggerRow chunk = some tile)
    (axis : Axis) : tile.lower axis = wrap32 (chunk.coord axis) := by
  simp only [triggerRow] at stored
  split at stored
  · simp at stored
  · simp only [Option.some.injEq] at stored
    subst stored
    cases axis <;> rfl

theorem upper_triggerRow {chunk : Chunk} {tile : BoxColumns} (stored : triggerRow chunk = some tile)
    (axis : Axis) : tile.upper axis = wrap32 (chunk.coord axis + tileEdge chunk.level) := by
  simp only [triggerRow] at stored
  split at stored
  · simp at stored
  · simp only [Option.some.injEq] at stored
    subst stored
    cases axis <;> rfl

/-- The tree stores the tile when its bounds are ordered after the wrap. -/
theorem exists_triggerRow_iff {chunk : Chunk} :
    (∃ tile, triggerRow chunk = some tile) ↔ ∀ axis,
      wrap32 (chunk.coord axis) ≤ wrap32 (chunk.coord axis + tileEdge chunk.level) := by
  simp only [triggerRow]
  constructor
  · rintro ⟨tile, stored⟩
    split at stored
    case isTrue => simp at stored
    case isFalse ordered =>
      push Not at ordered
      rintro (_ | _ | _)
      · exact ordered.1
      · exact ordered.2.1
      · exact ordered.2.2
  · intro ordered
    rw [if_neg]
    · exact ⟨_, rfl⟩
    · push Not
      exact ⟨ordered .x, ordered .y, ordered .z⟩

theorem tileEdge_eq {level : ℕ} (fits : level ≤ 31) : tileEdge level = 4 ^ level := by
  have power : 2 ^ (2 * level) < 2 ^ 63 := Nat.pow_lt_pow_right (by decide) (by omega)
  have split63 : (2 : ℕ) ^ 64 = 2 * 2 ^ 63 := by norm_num
  have natEq : (1#64 <<< (2 * level)).toNat = 2 ^ (2 * level) := by
    rw [BitVec.toNat_shiftLeft, BitVec.toNat_ofNat, Nat.shiftLeft_eq]
    omega
  rw [tileEdge, BitVec.toInt_eq_toNat_of_lt (by rw [natEq]; omega), natEq, pow_mul]
  norm_num

end TriggerRow

/-- `chunk_metadata` together with the R-tree that its triggers maintain. -/
structure ChunkIndex where
  chunkMetadata : Table ℤ Chunk
  chunkRtree : Table ℤ BoxColumns
  uniqueCoords : ∀ id other chunk, chunkMetadata.get? id = some chunk →
    chunkMetadata.get? other = some chunk → id = other
  mirrored : ∀ id, chunkRtree.get? id = (chunkMetadata.get? id).bind triggerRow

namespace ChunkIndex

def empty : ChunkIndex :=
  { chunkMetadata := ∅
    chunkRtree := ∅
    uniqueCoords := by simp
    mirrored := by simp }

/-- `SELECT id FROM chunk_metadata WHERE level = ? AND ..`. -/
def find (index : ChunkIndex) (chunk : Chunk) : Option ℤ :=
  (index.chunkMetadata.entries.find? fun entry => entry.2 = chunk).map Prod.fst

/-- The rowid that SQLite gives a new row. -/
def nextId (index : ChunkIndex) : ℤ :=
  index.chunkMetadata.keys.foldl max 0 + 1

theorem le_foldl_max (ids : List ℤ) (start : ℤ) :
    start ≤ ids.foldl max start ∧ ∀ id ∈ ids, id ≤ ids.foldl max start := by
  induction ids generalizing start with
  | nil => simp
  | cons first rest ih =>
      simp only [List.foldl_cons, List.mem_cons, forall_eq_or_imp]
      rcases ih (max start first) with ⟨atLeast, each⟩
      exact ⟨(le_max_left _ _).trans atLeast, (le_max_right _ _).trans atLeast, each⟩

theorem nextId_fresh (index : ChunkIndex) : index.nextId ∉ index.chunkMetadata := by
  intro present
  have := (le_foldl_max index.chunkMetadata.keys 0).2 _ present
  simp only [nextId] at this
  omega

theorem find_eq_some {index : ChunkIndex} {chunk : Chunk} {id : ℤ} :
    index.find chunk = some id ↔ index.chunkMetadata.get? id = some chunk := by
  simp only [find, Option.map_eq_some_iff]
  constructor
  · rintro ⟨⟨found, coords⟩, isFirst, rfl⟩
    have coordsEq := List.find?_some isFirst
    simp only [decide_eq_true_eq] at coordsEq
    subst coordsEq
    exact Table.get?_eq_some.mpr (List.mem_of_find?_eq_some isFirst)
  · intro stored
    have entryMem := Table.get?_eq_some.mp stored
    cases isFirst : index.chunkMetadata.entries.find? fun entry => entry.2 = chunk with
    | none =>
        have := List.find?_eq_none.mp isFirst _ entryMem
        simp at this
    | some entry =>
        have coordsEq := List.find?_some isFirst
        simp only [decide_eq_true_eq] at coordsEq
        refine ⟨entry, rfl, ?_⟩
        apply index.uniqueCoords entry.1 id chunk _ stored
        apply Table.get?_eq_some.mpr
        rw [← coordsEq]
        exact List.mem_of_find?_eq_some isFirst

/-- `INSERT INTO chunk_rtree .. ` from the trigger body. -/
def rtreeAfter (index : ChunkIndex) (chunk : Chunk) : Table ℤ BoxColumns :=
  match triggerRow chunk with
  | none => index.chunkRtree
  | some row => index.chunkRtree.insert index.nextId row

/-- `INSERT INTO chunk_metadata .. ON CONFLICT DO NOTHING RETURNING id`. -/
def insert (index : ChunkIndex) (chunk : Chunk) : Option ℤ × ChunkIndex :=
  match stored : index.find chunk with
  | some _ => (none, index)
  | none =>
      (some index.nextId,
        { chunkMetadata := index.chunkMetadata.insert index.nextId chunk
          chunkRtree := index.rtreeAfter chunk
          uniqueCoords := by
            have absent : ∀ id, index.chunkMetadata.get? id ≠ some chunk := by
              intro id found
              rw [find_eq_some.mpr found] at stored
              simp at stored
            intro id other coords idFound otherFound
            rw [Table.get?_insert] at idFound otherFound
            split at idFound <;> split at otherFound
            case _ idNew otherNew => rw [idNew, otherNew]
            case _ => exact absurd (idFound ▸ otherFound) (absent other)
            case _ => exact absurd (otherFound ▸ idFound) (absent id)
            case _ => exact index.uniqueCoords id other coords idFound otherFound
          mirrored := by
            intro id
            have noRow : index.chunkRtree.get? index.nextId = none := by
              rw [index.mirrored, Table.get?_eq_none.mpr index.nextId_fresh, Option.bind_none]
            rw [Table.get?_insert]
            by_cases isNew : id = index.nextId
            · subst isNew
              simp only [rtreeAfter, if_true, Option.bind_some]
              split
              case _ refused => rw [noRow, refused]
              case _ row accepted => rw [Table.get?_insert_self, accepted]
            · simp only [rtreeAfter, isNew, if_false]
              split
              · exact index.mirrored id
              · rw [Table.get?_insert_of_ne _ isNew]
                exact index.mirrored id })

theorem insert_of_find_none {index : ChunkIndex} {chunk : Chunk}
    (missing : index.find chunk = none) :
    (index.insert chunk).1 = some index.nextId ∧
      (index.insert chunk).2.chunkMetadata = index.chunkMetadata.insert index.nextId chunk := by
  simp only [insert]
  split
  case _ found => rw [missing] at found; simp at found
  case _ => exact ⟨rfl, rfl⟩

/-- An insert that meets the unique coordinates does nothing and returns no row. -/
theorem insert_of_find_some {index : ChunkIndex} {chunk : Chunk} {id : ℤ}
    (stored : index.find chunk = some id) : index.insert chunk = (none, index) := by
  simp only [insert]
  split
  case _ => rfl
  case _ missing => rw [stored] at missing; simp at missing

/-- An insert keeps every row. -/
theorem get?_insert_of_stored {index : ChunkIndex} (chunk : Chunk) {id : ℤ} {other : Chunk}
    (stored : index.chunkMetadata.get? id = some other) :
    (index.insert chunk).2.chunkMetadata.get? id = some other := by
  cases found : index.find chunk with
  | some _ =>
      rw [insert_of_find_some found]
      exact stored
  | none =>
      have distinct : id ≠ index.nextId := by
        rintro rfl
        exact index.nextId_fresh (Table.mem_of_get? stored)
      rw [(insert_of_find_none found).2, Table.get?_insert_of_ne _ distinct]
      exact stored

end ChunkIndex

end GodotStream
