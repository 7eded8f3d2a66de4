import GodotStream.FlushOrder

/-!
# Rows without a box

`query_children_aabb` and `get_object_aabb` stand the default box at the origin for a
row whose box columns are NULL, and the chunk loop merges it like any other. The
computations of the loop are recorded in their order, each with the database it
reads and the box it holds for the object itself. A computation is right when no box is
missing; when one is and its sums are not rounded, it is right exactly when the boxes that
are set reach the origin on every axis.
-/

namespace GodotStream

open Storage Rounding

/-- One computation of a chunk: the object, the box held for it, whether that box is the new one of
the batch, and the database that the boxes of the children are read from. -/
structure ChunkPass where
  db : StreamSqliteDB
  uuid : Uuid
  own : AABB
  newlySet : Bool

namespace ChunkPass

/-- The box that is handed to `compute_chunk`. -/
def box (pass : ChunkPass) : AABB :=
  pass.db.aggregate pass.own pass.uuid

/-- The object itself has a box. -/
def IsSet (pass : ChunkPass) : Prop :=
  pass.newlySet = true ∨ (pass.db.objects.aabbOf pass.uuid).isSome

instance (pass : ChunkPass) : Decidable pass.IsSet := by
  unfold IsSet
  infer_instance

/-- The boxes of the object and of its direct children that have one. -/
def contributions (pass : ChunkPass) : List AABB :=
  (if pass.IsSet then [pass.own] else []) ++
    (childRows pass.db.objects.rows pass.uuid).filterMap fun child =>
      (pass.db.objects.aabbOf child).map readAabb

/-- The object or a direct child has no box. -/
def SomeUnset (pass : ChunkPass) : Prop :=
  ¬ pass.IsSet ∨ ∃ child ∈ childRows pass.db.objects.rows pass.uuid,
    pass.db.objects.aabbOf child = none

instance (pass : ChunkPass) : Decidable pass.SomeUnset := by
  unfold SomeUnset
  infer_instance

/-- The boxes that are merged. -/
def mergedBoxes (pass : ChunkPass) : List AABB :=
  pass.own :: pass.db.childBoxes pass.uuid

/-- When a box is missing, on every axis some box that is set starts at the origin or below and
some ends there or above. -/
def ReachesOrigin (pass : ChunkPass) : Prop :=
  pass.SomeUnset → ∀ axis,
    (∃ box ∈ pass.contributions, box.position.coord axis ≤ 0) ∧
    ∃ box ∈ pass.contributions, 0 ≤ box.getEnd.coord axis

instance (pass : ChunkPass) : Decidable pass.ReachesOrigin := by
  unfold ReachesOrigin
  infer_instance

/-- The box held for the object is the new one of the batch, or it is read from the columns of the
row or stored in them. -/
def OwnBox (dirtyData : List (Uuid × AABB)) (pass : ChunkPass) : Prop :=
  if pass.newlySet then (pass.uuid, pass.own) ∈ dirtyData
  else ∀ columns, pass.db.objects.aabbOf pass.uuid = some columns →
    pass.own = readAabb columns ∨ bindAabb pass.own = columns

end ChunkPass

/-- The merge of a list of boxes, which has to have one. -/
def mergeAll : List AABB → Option AABB
  | [] => none
  | first :: rest => some (rest.foldl AABB.mergeWith first)

/-- The box handed over is the merge of exactly the boxes that are set. -/
def ChunkPass.Exact (dirtyData : List (Uuid × AABB)) (pass : ChunkPass) : Prop :=
  pass.OwnBox dirtyData ∧ mergeAll pass.contributions = some pass.box

/-- On every axis the ends of the boxes, and the extents from the start of any to the end of any,
are computed without rounding. -/
def Unrounded (boxes : List AABB) : Prop :=
  ∀ box ∈ boxes, ∀ axis,
    rounded (box.position.coord axis + box.size.coord axis) =
        box.position.coord axis + box.size.coord axis ∧
      ∀ other ∈ boxes, rounded (box.getEnd.coord axis - other.position.coord axis) =
        box.getEnd.coord axis - other.position.coord axis

instance (boxes : List AABB) : Decidable (Unrounded boxes) := by
  unfold Unrounded
  infer_instance

/-- On every axis a box of the list starts where this one does, one ends where this one does, and
its extent is their distance. -/
def Spans (boxes : List AABB) (merged : AABB) : Prop :=
  ∀ axis, ∃ low ∈ boxes, ∃ high ∈ boxes,
    merged.position.coord axis = low.position.coord axis ∧
    merged.getEnd.coord axis = high.getEnd.coord axis ∧
    merged.size.coord axis = high.getEnd.coord axis - low.position.coord axis

section MergeAll

variable {boxes : List AABB} {merged box : AABB}

theorem Unrounded.spans (unrounded : Unrounded boxes) (listed : box ∈ boxes) :
    Spans boxes box := by
  intro axis
  refine ⟨box, listed, box, listed, rfl, rfl, ?_⟩
  rw [AABB.coord_getEnd, (unrounded box listed axis).1]
  ring

/-- A merge of spanning boxes is computed without rounding. -/
theorem Spans.mergeWith (spans : Spans boxes merged) (unrounded : Unrounded boxes)
    (listed : box ∈ boxes) :
    Spans boxes (merged.mergeWith box) ∧
      ∀ axis, (merged.mergeWith box).getEnd.coord axis =
        max (merged.getEnd.coord axis) (box.getEnd.coord axis) := by
  have both : ∀ axis, ∃ low ∈ boxes, ∃ high ∈ boxes,
      (merged.mergeWith box).position.coord axis = low.position.coord axis ∧
      max (merged.getEnd.coord axis) (box.getEnd.coord axis) = high.getEnd.coord axis := by
    intro axis
    rcases spans axis with ⟨low, lowMem, high, highMem, lowEq, highEq, _⟩
    have lowExists : ∃ low ∈ boxes,
        (merged.mergeWith box).position.coord axis = low.position.coord axis := by
      rw [AABB.coord_position_mergeWith]
      rcases min_choice (merged.position.coord axis) (box.position.coord axis) with same | same
      · exact ⟨low, lowMem, same.trans lowEq⟩
      · exact ⟨box, listed, same⟩
    have highExists : ∃ high ∈ boxes,
        max (merged.getEnd.coord axis) (box.getEnd.coord axis) = high.getEnd.coord axis := by
      rcases max_choice (merged.getEnd.coord axis) (box.getEnd.coord axis) with same | same
      · exact ⟨high, highMem, same.trans highEq⟩
      · exact ⟨box, listed, same⟩
    rcases lowExists with ⟨newLow, newLowMem, newLowEq⟩
    rcases highExists with ⟨newHigh, newHighMem, newHighEq⟩
    exact ⟨newLow, newLowMem, newHigh, newHighMem, newLowEq, newHighEq⟩
  have exactSize : ∀ axis, ∃ low ∈ boxes, ∃ high ∈ boxes,
      (merged.mergeWith box).position.coord axis = low.position.coord axis ∧
      max (merged.getEnd.coord axis) (box.getEnd.coord axis) = high.getEnd.coord axis ∧
      (merged.mergeWith box).size.coord axis =
        high.getEnd.coord axis - low.position.coord axis ∧
      (merged.mergeWith box).getEnd.coord axis = high.getEnd.coord axis := by
    intro axis
    rcases both axis with ⟨low, lowMem, high, highMem, lowEq, highEq⟩
    have sizeEq : (merged.mergeWith box).size.coord axis =
        high.getEnd.coord axis - low.position.coord axis := by
      rw [AABB.coord_size_mergeWith, highEq, ← AABB.coord_position_mergeWith, lowEq,
        (unrounded high highMem axis).2 low lowMem]
    refine ⟨low, lowMem, high, highMem, lowEq, highEq, sizeEq, ?_⟩
    rw [AABB.coord_getEnd, lowEq, sizeEq, add_sub_cancel, AABB.coord_getEnd,
      (unrounded high highMem axis).1, (unrounded high highMem axis).1]
  constructor
  · intro axis
    rcases exactSize axis with ⟨low, lowMem, high, highMem, lowEq, _, sizeEq, endEq⟩
    exact ⟨low, lowMem, high, highMem, lowEq, endEq, sizeEq⟩
  · intro axis
    rcases exactSize axis with ⟨_, _, _, _, _, highEq, _, endEq⟩
    rw [endEq, highEq]

theorem foldl_mergeWith_position (rest : List AABB) (start : AABB) (axis : Axis) (bound : ℚ) :
    (rest.foldl AABB.mergeWith start).position.coord axis ≤ bound ↔
      ∃ box ∈ start :: rest, box.position.coord axis ≤ bound := by
  have folded := StreamSqliteDB.foldl_mergeWith_position_le
    (rest.map fun box => (Uuid.nil, box)) start axis bound
  simpa [List.foldl_map] using folded

/-- A merge of a list without rounding ends where the last of the boxes does. -/
theorem foldl_mergeWith_getEnd (unrounded : Unrounded boxes) {rest : List AABB}
    (listed : ∀ box ∈ rest, box ∈ boxes) {start : AABB} (spans : Spans boxes start) :
    Spans boxes (rest.foldl AABB.mergeWith start) ∧
      ∀ axis bound, bound ≤ (rest.foldl AABB.mergeWith start).getEnd.coord axis ↔
        ∃ box ∈ start :: rest, bound ≤ box.getEnd.coord axis := by
  induction rest generalizing start with
  | nil => simpa using spans
  | cons box rest ih =>
      rcases spans.mergeWith unrounded (listed box List.mem_cons_self) with ⟨next, endEq⟩
      rcases ih (fun other otherMem => listed other (List.mem_cons_of_mem _ otherMem)) next with
        ⟨spansAll, ends⟩
      refine ⟨spansAll, ?_⟩
      intro axis bound
      rw [List.foldl_cons, ends]
      simp only [List.mem_cons, exists_eq_or_imp, endEq, le_max_iff, or_assoc]

theorem Spans.ext_corners (spans : Spans boxes merged) {other : AABB} {otherBoxes : List AABB}
    (otherSpans : Spans otherBoxes other)
    (samePosition : ∀ axis, merged.position.coord axis = other.position.coord axis)
    (sameEnd : ∀ axis, merged.getEnd.coord axis = other.getEnd.coord axis) : merged = other := by
  have sizeEq : merged.size = other.size := by
    ext axis
    rcases spans axis with ⟨low, _, high, _, lowEq, highEq, size⟩
    rcases otherSpans axis with ⟨otherLow, _, otherHigh, _, otherLowEq, otherHighEq, otherSize⟩
    rw [size, otherSize, ← lowEq, ← highEq, ← otherLowEq, ← otherHighEq, samePosition axis,
      sameEnd axis]
  exact AABB.ext (Vector3.ext_coord samePosition) sizeEq

/-- A merge without rounding reaches as far as the boxes do. -/
theorem mergeAll_eq_some_iff (unrounded : Unrounded boxes) {otherBoxes : List AABB}
    (spans : Spans otherBoxes merged) :
    mergeAll boxes = some merged ↔ boxes ≠ [] ∧ ∀ axis bound,
      (merged.position.coord axis ≤ bound ↔
        ∃ box ∈ boxes, box.position.coord axis ≤ bound) ∧
      (bound ≤ merged.getEnd.coord axis ↔ ∃ box ∈ boxes, bound ≤ box.getEnd.coord axis) := by
  cases boxes with
  | nil => simp [mergeAll]
  | cons first rest =>
      rcases foldl_mergeWith_getEnd unrounded (fun _ => List.mem_cons_of_mem first)
        (unrounded.spans List.mem_cons_self) with ⟨foldSpans, ends⟩
      simp only [mergeAll, Option.some.injEq, ne_eq, reduceCtorEq, not_false_eq_true, true_and]
      constructor
      · rintro rfl axis bound
        exact ⟨foldl_mergeWith_position rest first axis bound, ends axis bound⟩
      · intro reach
        apply foldSpans.ext_corners spans
        · intro axis
          apply eq_of_forall_ge_iff
          intro bound
          rw [foldl_mergeWith_position, (reach axis bound).1]
        · intro axis
          apply eq_of_forall_le_iff
          intro bound
          rw [ends, (reach axis bound).2]

end MergeAll

namespace ChunkPass

variable {pass : ChunkPass}

theorem mem_contributions {box : AABB} :
    box ∈ pass.contributions ↔ (pass.IsSet ∧ box = pass.own) ∨
      ∃ child, pass.db.objects.IsChild pass.uuid child ∧
        ∃ columns, pass.db.objects.aabbOf child = some columns ∧ readAabb columns = box := by
  simp only [contributions, List.mem_append, List.mem_filterMap, ObjectTable.mem_childRows_iff,
    Option.map_eq_some_iff]
  apply or_congr_left
  by_cases isSet : pass.IsSet <;> simp [isSet]

/-- What is merged: the boxes that are set, and the default box when one is missing. -/
theorem exists_merged_iff (unset : ¬ pass.IsSet → pass.own = default) (meets : AABB → Prop) :
    (meets pass.own ∨ ∃ child, pass.db.objects.IsChild pass.uuid child ∧
      meets (pass.db.storedAabb child)) ↔
    (∃ box ∈ pass.contributions, meets box) ∨ (pass.SomeUnset ∧ meets default) := by
  simp only [mem_contributions, SomeUnset, ObjectTable.mem_childRows_iff,
    StreamSqliteDB.storedAabb_eq_readColumns]
  constructor
  · rintro (own | ⟨child, isChild, meetsChild⟩)
    · by_cases isSet : pass.IsSet
      · exact Or.inl ⟨pass.own, Or.inl ⟨isSet, rfl⟩, own⟩
      · exact Or.inr ⟨Or.inl isSet, unset isSet ▸ own⟩
    · cases stored : pass.db.objects.aabbOf child with
      | none =>
          rw [stored] at meetsChild
          exact Or.inr ⟨Or.inr ⟨child, isChild, stored⟩, meetsChild⟩
      | some columns =>
          rw [stored] at meetsChild
          exact Or.inl ⟨_, Or.inr ⟨child, isChild, columns, stored, rfl⟩, meetsChild⟩
  · rintro (⟨box, ⟨_, rfl⟩ | ⟨child, isChild, columns, stored, rfl⟩, meetsBox⟩ |
      ⟨isUnset | ⟨child, isChild, missing⟩, meetsDefault⟩)
    · exact Or.inl meetsBox
    · exact Or.inr ⟨child, isChild, by rw [stored]; exact meetsBox⟩
    · exact Or.inl (unset isUnset ▸ meetsDefault)
    · exact Or.inr ⟨child, isChild, by rw [missing]; exact meetsDefault⟩

theorem coord_position_default (axis : Axis) : (default : AABB).position.coord axis = 0 := by
  cases axis <;> rfl

theorem coord_getEnd_default (axis : Axis) : (default : AABB).getEnd.coord axis = 0 := by
  cases axis <;> decide +kernel

theorem position_box_le_iff (unset : ¬ pass.IsSet → pass.own = default) (axis : Axis)
    (bound : ℚ) :
    pass.box.position.coord axis ≤ bound ↔
      (∃ box ∈ pass.contributions, box.position.coord axis ≤ bound) ∨
        (pass.SomeUnset ∧ 0 ≤ bound) := by
  rw [box, StreamSqliteDB.position_aggregate_le_iff]
  have merged := exists_merged_iff unset fun box => box.position.coord axis ≤ bound
  rwa [coord_position_default] at merged

theorem box_eq_foldl (pass : ChunkPass) :
    pass.box = (pass.db.childBoxes pass.uuid).foldl AABB.mergeWith pass.own :=
  StreamSqliteDB.aggregate_eq_foldl _ _ _

theorem le_getEnd_box_iff (unset : ¬ pass.IsSet → pass.own = default)
    (unrounded : Unrounded pass.mergedBoxes) :
    Spans pass.mergedBoxes pass.box ∧ ∀ axis bound, bound ≤ pass.box.getEnd.coord axis ↔
      (∃ box ∈ pass.contributions, bound ≤ box.getEnd.coord axis) ∨
        (pass.SomeUnset ∧ bound ≤ 0) := by
  rcases foldl_mergeWith_getEnd unrounded (fun _ => List.mem_cons_of_mem pass.own)
    (unrounded.spans List.mem_cons_self) with ⟨spans, ends⟩
  rw [box_eq_foldl]
  refine ⟨spans, ?_⟩
  intro axis bound
  have merged := exists_merged_iff unset fun box => bound ≤ box.getEnd.coord axis
  rw [coord_getEnd_default] at merged
  rw [ends, ← merged]
  simp [StreamSqliteDB.childBoxes, ObjectTable.mem_childRows_iff]

theorem contributions_subset {box : AABB} (listed : box ∈ pass.contributions) :
    box ∈ pass.mergedBoxes := by
  rcases mem_contributions.mp listed with ⟨_, rfl⟩ | ⟨child, isChild, columns, stored, rfl⟩
  · exact List.mem_cons_self
  · apply List.mem_cons_of_mem
    apply List.mem_map.mpr
    exact ⟨child, ObjectTable.mem_childRows_iff.mpr isChild,
      StreamSqliteDB.storedAabb_of_aabbOf stored⟩

/-- With every box set, the merge is of the boxes that are set. -/
theorem mergeAll_contributions (allSet : ¬ pass.SomeUnset) :
    mergeAll pass.contributions = some pass.box := by
  simp only [SomeUnset, not_or, not_not, not_exists, not_and] at allSet
  have children : (childRows pass.db.objects.rows pass.uuid).filterMap
      (fun child => (pass.db.objects.aabbOf child).map readAabb) =
        pass.db.childBoxes pass.uuid := by
    rw [StreamSqliteDB.childBoxes, ← List.filterMap_eq_map]
    apply List.filterMap_congr
    intro child listed
    rcases Option.ne_none_iff_exists'.mp (allSet.2 child listed) with ⟨columns, stored⟩
    rw [stored, Option.map_some, Function.comp_apply,
      StreamSqliteDB.storedAabb_of_aabbOf stored]
  rw [contributions, if_pos allSet.1, children, box_eq_foldl]
  rfl

/-- Without rounding, the default box changes the merge unless the boxes that are set reach the
origin. -/
theorem mergeAll_contributions_iff (unset : ¬ pass.IsSet → pass.own = default)
    (unrounded : pass.SomeUnset → Unrounded pass.mergedBoxes) :
    mergeAll pass.contributions = some pass.box ↔ pass.ReachesOrigin := by
  by_cases someUnset : pass.SomeUnset
  case neg =>
    exact iff_of_true (mergeAll_contributions someUnset) fun missing => absurd missing someUnset
  rcases le_getEnd_box_iff unset (unrounded someUnset) with ⟨spans, ends⟩
  have unroundedSet : Unrounded pass.contributions := by
    intro box listed axis
    rcases unrounded someUnset box (contributions_subset listed) axis with ⟨sum, extents⟩
    exact ⟨sum, fun other otherMem => extents other (contributions_subset otherMem)⟩
  rw [mergeAll_eq_some_iff unroundedSet spans]
  constructor
  · rintro ⟨_, reach⟩ _ axis
    constructor
    · apply (reach axis 0).1.mp
      exact (position_box_le_iff unset axis 0).mpr (Or.inr ⟨someUnset, le_rfl⟩)
    · apply (reach axis 0).2.mp
      exact (ends axis 0).mpr (Or.inr ⟨someUnset, le_rfl⟩)
  · intro reaches
    constructor
    · intro empty
      rcases (reaches someUnset .x).1 with ⟨box, boxMem, _⟩
      rw [empty] at boxMem
      exact List.not_mem_nil boxMem
    · intro axis bound
      rw [position_box_le_iff unset, ends]
      refine ⟨or_iff_left_of_imp ?_, or_iff_left_of_imp ?_⟩
      · rintro ⟨_, nonneg⟩
        rcases (reaches someUnset axis).1 with ⟨box, boxMem, atMost⟩
        exact ⟨box, boxMem, atMost.trans nonneg⟩
      · rintro ⟨_, nonpos⟩
        rcases (reaches someUnset axis).2 with ⟨box, boxMem, atLeast⟩
        exact ⟨box, boxMem, nonpos.trans atLeast⟩

end ChunkPass

namespace FlushState

/-- The computations along the parent chain. -/
def walkPasses : ℕ → Uuid → FlushState → List ChunkPass
  | 0, _, _ => []
  | fuel + 1, parent, state =>
      if parent = Uuid.nil then []
      else
        let own := state.db.getObjectAabb parent
        { db := own.2, uuid := parent, own := own.1, newlySet := false } ::
          walkPasses fuel (state.db.queryObject parent).parentUuid (state.visit parent)

/-- The computations for one changed object and its ancestors. -/
def refreshPasses (fuel : ℕ) (state : FlushState) (entry : Uuid × AABB) : List ChunkPass :=
  let next := state.writeChunk entry.1 (state.db.aggregate entry.2 entry.1)
  { db := state.db, uuid := entry.1, own := entry.2, newlySet := true } ::
    walkPasses fuel (next.db.queryObject entry.1).parentUuid next

/-- The computations of the chunk loop. -/
def refreshAllPasses (fuel : ℕ) : List (Uuid × AABB) → FlushState → List ChunkPass
  | [], _ => []
  | entry :: rest, state =>
      refreshPasses fuel state entry ++
        ((state.refresh fuel entry).elim [] (refreshAllPasses fuel rest))

/-- The boxes that a list of computations hands over, the last one for each object. -/
def handOver (boxes : Table Uuid AABB) (passes : List ChunkPass) : Table Uuid AABB :=
  passes.foldl (fun boxes pass => boxes.insert pass.uuid pass.box) boxes

/-- The walk hands over the boxes of its computations. -/
theorem boxes_walkParents {fuel : ℕ} {uuid : Uuid} {state final : FlushState}
    (ended : walkParents fuel uuid state = some final) :
    final.boxes = handOver state.boxes (walkPasses fuel uuid state) := by
  induction fuel generalizing uuid state with
  | zero => simp [walkParents] at ended
  | succ fuel ih =>
      by_cases isNil : uuid = Uuid.nil
      · simp only [walkParents, isNil, if_true, Option.some.injEq] at ended
        simp only [walkPasses, isNil, if_true, ended, handOver, List.foldl_nil]
      · simp only [walkParents, isNil, if_false] at ended
        simp only [walkPasses, isNil, if_false]
        exact ih ended

theorem boxes_refreshAll {fuel : ℕ} {entries : List (Uuid × AABB)} {state final : FlushState}
    (ended : refreshAll fuel entries state = some final) :
    final.boxes = handOver state.boxes (refreshAllPasses fuel entries state) := by
  induction entries generalizing state with
  | nil =>
      rw [← Option.some.inj ended]
      rfl
  | cons entry rest ih =>
      rcases Option.bind_eq_some_iff.mp ended with ⟨middle, middleEq, restEnded⟩
      have middleBoxes : middle.boxes = handOver state.boxes (refreshPasses fuel state entry) :=
        boxes_walkParents middleEq
      simp only [refreshAllPasses, middleEq, Option.elim_some]
      rw [ih restEnded, middleBoxes, handOver, handOver, handOver, List.foldl_append]

section Rule

variable {origin : StreamSqliteDB} {entries : List (Uuid × AABB)} {holds : FlushState → Prop}
  {good : ChunkPass → Prop} {fuel : ℕ} {uuid : Uuid} {state : FlushState}

/-- The computation that a visit of an ancestor makes. -/
def visitPass (state : FlushState) (parent : Uuid) : ChunkPass :=
  let own := state.db.getObjectAabb parent
  { db := own.2, uuid := parent, own := own.1, newlySet := false }

theorem forall_walkPasses
    (parents : ∀ state, holds state →
      ∀ uuid, state.db.objects.parentOf uuid = origin.objects.parentOf uuid)
    (visited : ∀ state, holds state → ∀ upper, origin.objects.Below upper uuid →
      uuid ≠ Uuid.nil → holds (state.visit upper) ∧ good (state.visitPass upper))
    (start : holds state) : ∀ pass ∈ walkPasses fuel uuid state, good pass := by
  induction fuel generalizing uuid state with
  | zero => simp [walkPasses]
  | succ fuel ih =>
      by_cases isNil : uuid = Uuid.nil
      · simp [walkPasses, isNil]
      · rcases visited state start uuid Relation.ReflTransGen.refl isNil with ⟨next, goodPass⟩
        simp only [walkPasses, isNil, if_false, parentUuid_queryObject (parents state start uuid),
          List.mem_cons, forall_eq_or_imp]
        refine ⟨goodPass, ?_⟩
        cases parentEq : origin.objects.parentOf uuid with
        | none => exact ih (fun _ _ _ _ nonNil => absurd rfl nonNil) next
        | some parent =>
            exact ih (fun other otherHolds upper below _ =>
              visited other otherHolds upper (below.tail parentEq) isNil) next

/-- Every computation of the loop is good when each is in a state that satisfies the invariant. -/
theorem forall_refreshAllPasses (invariant : LoopInvariant origin entries holds)
    (changed : ∀ state, holds state → ∀ entry ∈ entries,
      good { db := state.db, uuid := entry.1, own := entry.2, newlySet := true })
    (visited : ∀ state, holds state → ∀ entry ∈ entries, ∀ upper,
      origin.objects.Ancestor upper entry.1 → good (state.visitPass upper))
    {rest : List (Uuid × AABB)} (listed : ∀ entry ∈ rest, entry ∈ entries) (start : holds state) :
    ∀ pass ∈ refreshAllPasses fuel rest state, good pass := by
  induction rest generalizing state with
  | nil => simp [refreshAllPasses]
  | cons entry rest ih =>
      have listedEntry := listed entry List.mem_cons_self
      have startOwn := invariant.changed state start entry listedEntry
      intro pass passMem
      rcases List.mem_append.mp passMem with own | later
      · rcases List.mem_cons.mp own with rfl | above
        · exact changed state start entry listedEntry
        · rw [parentUuid_queryObject (invariant.parents _ startOwn entry.1)] at above
          refine forall_walkPasses invariant.parents ?_ startOwn pass above
          intro other otherHolds upper below nonNil
          refine ⟨invariant.visited_parent listedEntry other otherHolds upper below nonNil, ?_⟩
          cases parentEq : origin.objects.parentOf entry.1 with
          | none => simp [parentEq, readNullableUuid] at nonNil
          | some parent =>
              rw [parentEq] at below
              exact visited other otherHolds entry listedEntry upper
                (ObjectTable.ancestor_iff.mpr ⟨parent, parentEq, below⟩)
      · cases refreshed : state.refresh fuel entry with
        | none => simp [refreshed] at later
        | some middle =>
            rw [refreshed, Option.elim_some] at later
            exact ih (fun other otherMem => listed other (List.mem_cons_of_mem _ otherMem))
              (refresh_rule invariant listedEntry start refreshed).1 pass later

end Rule

end FlushState

section Distortion

/-- A cached box that belongs to the columns: the default box when they are NULL, and otherwise
read from them or stored in them. -/
def BelongsTo (columns : Option BoxColumns) (box : AABB) : Prop :=
  match columns with
  | none => box = default
  | some stored => box = readAabb stored ∨ bindAabb box = stored

theorem belongsTo_readColumns (columns : Option BoxColumns) :
    BelongsTo columns (StreamSqliteDB.readColumns columns) := by
  cases columns with
  | none => rfl
  | some stored => exact Or.inl rfl

/-- The chunk loop keeps the table it started at and a cache whose boxes belong to the rows. -/
structure KeepsBoxes (origin : StreamSqliteDB) (state : FlushState) : Prop where
  present : ∀ uuid, uuid ∈ state.db.objects.rows ↔ uuid ∈ origin.objects.rows
  parents : ∀ uuid, state.db.objects.parentOf uuid = origin.objects.parentOf uuid
  columns : ∀ uuid, state.db.objects.aabbOf uuid = origin.objects.aabbOf uuid
  cached : state.db.CacheFits fun _ => BelongsTo

variable {origin : StreamSqliteDB} {state : FlushState}

theorem KeepsBoxes.writeChunk (keeps : KeepsBoxes origin state) (uuid : Uuid) (box : AABB) :
    KeepsBoxes origin (state.writeChunk uuid box) where
  present := by simpa [FlushState.writeChunk] using keeps.present
  parents := by simpa [FlushState.writeChunk] using keeps.parents
  columns := by simpa [FlushState.writeChunk] using keeps.columns
  cached := keeps.cached.writeChunk uuid box

theorem KeepsBoxes.getObjectAabb (keeps : KeepsBoxes origin state) (uuid : Uuid) :
    KeepsBoxes origin { state with db := (state.db.getObjectAabb uuid).2 } where
  present := by simpa using keeps.present
  parents := by simpa using keeps.parents
  columns := by simpa using keeps.columns
  cached := (keeps.cached.getObjectAabb (fun _ => belongsTo_readColumns) uuid).2

theorem loopInvariant_keepsBoxes {entries : List (Uuid × AABB)} :
    FlushState.LoopInvariant origin entries (KeepsBoxes origin) where
  parents := fun _ keeps => keeps.parents
  changed := fun _ keeps entry _ => keeps.writeChunk entry.1 _
  visited := fun _ keeps _ _ upper _ => (keeps.getObjectAabb upper).writeChunk upper _

/-- The box held for the object is what the batch or the database has for it. -/
def ChunkPass.Faithful (dirtyData : List (Uuid × AABB)) (pass : ChunkPass) : Prop :=
  if pass.newlySet then (pass.uuid, pass.own) ∈ dirtyData
  else BelongsTo (pass.db.objects.aabbOf pass.uuid) pass.own

variable {dirtyData : List (Uuid × AABB)} {pass : ChunkPass}

theorem ChunkPass.Faithful.unset (faithful : pass.Faithful dirtyData) (notSet : ¬ pass.IsSet) :
    pass.own = default := by
  simp only [ChunkPass.IsSet, not_or, Option.not_isSome_iff_eq_none] at notSet
  simp only [ChunkPass.Faithful, notSet.1, Bool.false_eq_true, if_false, notSet.2,
    BelongsTo] at faithful
  exact faithful

theorem ChunkPass.Faithful.ownBox (faithful : pass.Faithful dirtyData) :
    pass.OwnBox dirtyData := by
  unfold ChunkPass.Faithful at faithful
  unfold ChunkPass.OwnBox
  split
  case isTrue isNew =>
    rw [if_pos isNew] at faithful
    exact faithful
  case isFalse old =>
    rw [if_neg old] at faithful
    intro columns stored
    rw [stored] at faithful
    exact faithful

theorem ChunkPass.exact_iff (faithful : pass.Faithful dirtyData)
    (unrounded : pass.SomeUnset → Unrounded pass.mergedBoxes) :
    pass.Exact dirtyData ↔ pass.ReachesOrigin := by
  rw [ChunkPass.Exact, ChunkPass.mergeAll_contributions_iff faithful.unset unrounded]
  exact and_iff_right faithful.ownBox

/-- The computations of the last two loops of the task. -/
def dirtyPasses (dirtyData : List (Uuid × AABB)) (db : StreamSqliteDB) : List ChunkPass :=
  let prepared := StreamSqliteDB.runBoxes dirtyData db
  FlushState.refreshAllPasses (prepared.objects.rows.entries.length + 1) dirtyData
    { db := prepared, boxes := ∅ }

/-- They hand over the boxes that the loop hands to `compute_chunk`. -/
theorem boxes_flushDirty {db : StreamSqliteDB} {final : FlushState}
    (ended : flushDirty dirtyData db = some final) :
    final.boxes = FlushState.handOver ∅ (dirtyPasses dirtyData db) :=
  FlushState.boxes_refreshAll ended

theorem faithful_of_mem_dirtyPasses {db : StreamSqliteDB}
    (cached : db.CacheFits fun _ => BelongsTo) :
    ∀ pass ∈ dirtyPasses dirtyData db, pass.Faithful dirtyData := by
  have start : KeepsBoxes (StreamSqliteDB.runBoxes dirtyData db)
      { db := StreamSqliteDB.runBoxes dirtyData db, boxes := ∅ } :=
    { present := fun _ => Iff.rfl
      parents := fun _ => rfl
      columns := fun _ => rfl
      cached := cached.runBoxes fun _ _ => Or.inr rfl }
  intro pass passMem
  refine FlushState.forall_refreshAllPasses loopInvariant_keepsBoxes ?_ ?_
    (fun _ listed => listed) start pass passMem
  · intro state _ entry listed
    exact listed
  · intro state keeps entry _ upper ancestor
    rcases ObjectTable.ancestor_iff.mp ancestor with ⟨parent, child, below⟩
    have present := (keeps.present upper).mpr
      (ObjectTable.mem_of_below below (ObjectTable.parent_mem child))
    have answer := (keeps.cached.getObjectAabb (fun _ => belongsTo_readColumns) upper).1 present
    simpa [ChunkPass.Faithful, FlushState.visitPass] using answer

/-- On every acyclic table the loop ends, and every box that it hands to `compute_chunk` is the
merge of exactly the boxes that are set, precisely when in each computation with a missing box the
others reach the origin; the sums of such a computation are taken not to be rounded. -/
theorem flushDirty_exact_iff {db : StreamSqliteDB} (acyclic : db.objects.Acyclic)
    (cached : db.CacheFits fun _ => BelongsTo)
    (unrounded : ∀ pass ∈ dirtyPasses dirtyData db, pass.SomeUnset → Unrounded pass.mergedBoxes) :
    ((∃ final, flushDirty dirtyData db = some final ∧
        final.boxes = FlushState.handOver ∅ (dirtyPasses dirtyData db)) ∧
      ∀ pass ∈ dirtyPasses dirtyData db, pass.Exact dirtyData) ↔
    ∀ pass ∈ dirtyPasses dirtyData db, pass.ReachesOrigin := by
  have faithful : ∀ pass ∈ dirtyPasses dirtyData db, pass.Faithful dirtyData :=
    faithful_of_mem_dirtyPasses cached
  constructor
  · rintro ⟨_, allExact⟩ pass passMem
    exact (ChunkPass.exact_iff (faithful pass passMem) (unrounded pass passMem)).mp
      (allExact pass passMem)
  · intro reaches
    constructor
    · rcases FlushState.exists_refreshAll FlushState.loopInvariant_keepsRows
        (fun entry _ => (acyclic_runBoxes acyclic).rooted entry.1) (fun _ listed => listed)
        FlushState.KeepsRows.start with ⟨final, ended⟩
      exact ⟨final, ended, boxes_flushDirty ended⟩
    · intro pass passMem
      exact (ChunkPass.exact_iff (faithful pass passMem) (unrounded pass passMem)).mpr
        (reaches pass passMem)

theorem cacheFits_nestedDb : nestedDb.CacheFits fun _ => BelongsTo := by
  intro uuid _ box cached
  simp [nestedDb, StreamSqliteDB.runUpserts, StreamSqliteDB.upsertObjectUuids,
    StreamSqliteDB.create] at cached

/-- The box of the middle object starts at the origin, where its parent and its child have none. -/
theorem flushDirty_exact_atOrigin :
    (∃ final, flushDirty [(2, unitBox)] nestedDb = some final ∧
      final.boxes = FlushState.handOver ∅ (dirtyPasses [(2, unitBox)] nestedDb)) ∧
    ∀ pass ∈ dirtyPasses [(2, unitBox)] nestedDb, pass.Exact [(2, unitBox)] := by
  have reaches : ∀ pass ∈ dirtyPasses [(2, unitBox)] nestedDb, pass.ReachesOrigin := by
    decide +kernel
  exact (flushDirty_exact_iff (by decide +kernel) cacheFits_nestedDb (by decide +kernel)).mpr
    reaches

/-- The middle object has no box, and its child's is far from the origin. -/
theorem flushDirty_distorts_farBox :
    nestedDb.objects.Acyclic ∧ nestedDb.CacheFits (fun _ => BelongsTo) ∧
    (∃ pass ∈ dirtyPasses [(3, farBox)] nestedDb, pass.uuid = 2 ∧
      mergeAll pass.contributions = some farBox ∧ pass.box = ⟨⟨0, 0, 0⟩, ⟨101, 1, 1⟩⟩) ∧
    ¬ ∀ pass ∈ dirtyPasses [(3, farBox)] nestedDb, pass.Exact [(3, farBox)] := by
  have distorted : ∃ pass ∈ dirtyPasses [(3, farBox)] nestedDb, pass.uuid = 2 ∧
      mergeAll pass.contributions = some farBox ∧ pass.box = ⟨⟨0, 0, 0⟩, ⟨101, 1, 1⟩⟩ := by
    decide +kernel
  refine ⟨by decide +kernel, cacheFits_nestedDb, distorted, ?_⟩
  intro allExact
  rcases distorted with ⟨pass, passMem, _, merged, boxEq⟩
  have wrong := (allExact pass passMem).2
  rw [merged, boxEq] at wrong
  exact absurd wrong (by decide +kernel)

end Distortion

end GodotStream
