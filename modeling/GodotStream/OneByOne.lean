import GodotStream.Lib.Run
import GodotStream.SubtreeRemoval

/-!
# Batching

Between two flushes the manager collects additions, updates and removals, and the next
flush runs their deletes and then their upserts. Beside the manager stands here the table
in which every operation runs its statements at once. The database cascades along the
parents of the last flush while a removal one by one cascades along the present ones, so
the two agree as long as no removal separates these.
-/

namespace GodotStream

open Storage Run

namespace ObjectTable

/-- In this order an upsert is accepted exactly when its object is `present` in the end. -/
def UpsertsMatch (present available : Uuid → Prop) : List (Uuid × ObjectData) → Prop
  | [] => True
  | entry :: rest =>
      (present entry.1 ↔ entry.2.parentUuid = Uuid.nil ∨ entry.2.parentUuid = entry.1 ∨
        available entry.2.parentUuid) ∧
      UpsertsMatch present (fun uuid => uuid = entry.1 ∧ present entry.1 ∨ available uuid) rest

instance decidableUpsertsMatch (present available : Uuid → Prop) [DecidablePred present]
    [DecidablePred available] : ∀ upsertData, Decidable (UpsertsMatch present available upsertData)
  | [] => isTrue trivial
  | entry :: rest =>
      have := decidableUpsertsMatch present
        (fun uuid => uuid = entry.1 ∧ present entry.1 ∨ available uuid) rest
      inferInstanceAs (Decidable (_ ∧ _))

theorem upsertedRow_congr {table other : ObjectTable} {uuid : Uuid}
    (same : table.rows.get? uuid = other.rows.get? uuid) (parentUuid : Uuid) :
    table.upsertedRow uuid parentUuid = other.upsertedRow uuid parentUuid := by
  simp only [upsertedRow, same]

/-- A later upsert of the same object decides its parent. -/
theorem upsertedRow_of_upserted {table other : ObjectTable} {uuid parentUuid : Uuid}
    (upserted : table.rows.get? uuid = some (other.upsertedRow uuid parentUuid))
    (later : Uuid) : table.upsertedRow uuid later = other.upsertedRow uuid later := by
  simp only [upsertedRow, upserted]
  cases other.rows.get? uuid <;> rfl

variable {table meant : ObjectTable} {upsertData rest : List (Uuid × ObjectData)}
  {entry : Uuid × ObjectData}

/-- `meant` differs from `table` in the upserts at most: an object with an upsert has the row that
the upsert leaves, or it has no row in either. -/
structure Describes (upsertData : List (Uuid × ObjectData)) (table meant : ObjectTable) : Prop where
  others : ∀ uuid ∉ upsertData.map Prod.fst, meant.rows.get? uuid = table.rows.get? uuid
  listed : ∀ entry ∈ upsertData,
    meant.rows.get? entry.1 = some (table.upsertedRow entry.1 entry.2.parentUuid) ∨
      meant.rows.get? entry.1 = none ∧ table.rows.get? entry.1 = none

/-- An upsert that is accepted exactly when it is meant to be leaves the other ones to do. -/
theorem Describes.next (describes : Describes (entry :: rest) table meant)
    (unlisted : entry.1 ∉ rest.map Prod.fst)
    (accepts : entry.1 ∈ meant.rows ↔ table.Accepts entry.1 entry.2.parentUuid) :
    Describes rest (table.upsert entry.1 entry.2.parentUuid) meant := by
  have own : meant.rows.get? entry.1 =
      (table.upsert entry.1 entry.2.parentUuid).rows.get? entry.1 := by
    rcases describes.listed entry List.mem_cons_self with upserted | ⟨absent, unstored⟩
    · rw [get?_upsert (accepts.mp (Table.mem_of_get? upserted)), if_pos rfl, upserted]
    · have refused : ¬ table.Accepts entry.1 entry.2.parentUuid := by
        rw [← accepts]
        exact Table.get?_eq_none.mp absent
      rw [upsert_of_not_accepts refused, absent, unstored]
  have spared (uuid : Uuid) (distinct : uuid ≠ entry.1) :
      (table.upsert entry.1 entry.2.parentUuid).rows.get? uuid = table.rows.get? uuid := by
    by_cases accepted : table.Accepts entry.1 entry.2.parentUuid
    · rw [get?_upsert accepted, if_neg distinct]
    · rw [upsert_of_not_accepts accepted]
  refine ⟨?_, ?_⟩
  · intro uuid uuidUnlisted
    by_cases same : uuid = entry.1
    · exact same ▸ own
    · rw [spared uuid same]
      apply describes.others uuid
      simpa [same] using uuidUnlisted
  · intro other otherListed
    have distinct : other.1 ≠ entry.1 := by
      intro same
      exact unlisted (same ▸ List.mem_map_of_mem otherListed)
    rw [spared other.1 distinct, upsertedRow_congr (spared other.1 distinct)]
    exact describes.listed other (List.mem_cons_of_mem _ otherListed)

/-- What is available after an upsert that is accepted exactly when it is meant to be. -/
theorem upsertsMatch_next
    (accepts : entry.1 ∈ meant.rows ↔ table.Accepts entry.1 entry.2.parentUuid) :
    UpsertsMatch (· ∈ meant.rows)
        (fun uuid => uuid = entry.1 ∧ entry.1 ∈ meant.rows ∨ uuid ∈ table.rows) rest ↔
      UpsertsMatch (· ∈ meant.rows)
        (· ∈ (table.upsert entry.1 entry.2.parentUuid).rows) rest := by
  have available : (fun uuid => uuid = entry.1 ∧ entry.1 ∈ meant.rows ∨ uuid ∈ table.rows) =
      (· ∈ (table.upsert entry.1 entry.2.parentUuid).rows) := by
    funext uuid
    rw [mem_upsert, accepts]
  rw [available]

/-- When the upserts match, they leave the rows that are meant. -/
theorem Describes.get?_upsertAll (describes : Describes upsertData table meant)
    (distinct : (upsertData.map Prod.fst).Nodup)
    (accepted : UpsertsMatch (· ∈ meant.rows) (· ∈ table.rows) upsertData) (uuid : Uuid) :
    (table.upsertAll upsertData).rows.get? uuid = meant.rows.get? uuid := by
  induction upsertData generalizing table with
  | nil => exact (describes.others uuid List.not_mem_nil).symm
  | cons entry rest ih =>
      simp only [List.map_cons, List.nodup_cons] at distinct
      have accepts : entry.1 ∈ meant.rows ↔ table.Accepts entry.1 entry.2.parentUuid := accepted.1
      exact ih (describes.next distinct.1 accepts) distinct.2
        ((upsertsMatch_next accepts).mp accepted.2)

/-- Upserts that leave the row of the first one as it is meant have accepted it exactly when it is
meant to be. -/
theorem Describes.accepts_iff (describes : Describes (entry :: rest) table meant)
    (unlisted : entry.1 ∉ rest.map Prod.fst)
    (sameRow : entry.1 ∈ ((table.upsert entry.1 entry.2.parentUuid).upsertAll rest).rows ↔
      entry.1 ∈ meant.rows)
    (sameParent : ((table.upsert entry.1 entry.2.parentUuid).upsertAll rest).parentOf entry.1 =
      meant.parentOf entry.1) :
    entry.1 ∈ meant.rows ↔ table.Accepts entry.1 entry.2.parentUuid := by
  have own : ((table.upsert entry.1 entry.2.parentUuid).upsertAll rest).rows.get? entry.1 =
      (table.upsert entry.1 entry.2.parentUuid).rows.get? entry.1 :=
    get?_upsertAll_of_not_mem unlisted
  constructor
  · intro present
    by_contra refused
    rcases describes.listed entry List.mem_cons_self with upserted | ⟨absent, _⟩
    · -- the row would have kept the parent that is meant, which then has a row
      have nonNil : entry.2.parentUuid ≠ Uuid.nil := fun isNil => refused (Or.inl isNil)
      have isChild : table.parentOf entry.1 = some entry.2.parentUuid := by
        rw [parentOf, own, upsert_of_not_accepts refused, parentOf, upserted, Option.bind_some,
          parentUuid_upsertedRow, toColumn_of_ne_nil nonNil] at sameParent
        exact sameParent
      exact refused (Or.inr (Or.inr (parent_mem isChild)))
    · exact Table.get?_eq_none.mp absent present
  · intro accepted
    apply sameRow.mp
    rw [Table.mem_iff_get?, own, get?_upsert accepted, if_pos rfl]
    exact ⟨_, rfl⟩

/-- The upserts leave the meant rows and parents exactly when they match. -/
theorem Describes.upsertsMatch_iff (describes : Describes upsertData table meant)
    (distinct : (upsertData.map Prod.fst).Nodup) :
    ((∀ uuid, uuid ∈ (table.upsertAll upsertData).rows ↔ uuid ∈ meant.rows) ∧
      ∀ uuid, (table.upsertAll upsertData).parentOf uuid = meant.parentOf uuid) ↔
    UpsertsMatch (· ∈ meant.rows) (· ∈ table.rows) upsertData := by
  constructor
  · rintro ⟨sameRows, sameParents⟩
    induction upsertData generalizing table with
    | nil => trivial
    | cons entry rest ih =>
        simp only [List.map_cons, List.nodup_cons] at distinct
        change ∀ uuid, uuid ∈ ((table.upsert entry.1 entry.2.parentUuid).upsertAll rest).rows ↔
          _ at sameRows
        change ∀ uuid, ((table.upsert entry.1 entry.2.parentUuid).upsertAll rest).parentOf uuid =
          _ at sameParents
        have accepts := describes.accepts_iff distinct.1 (sameRows entry.1) (sameParents entry.1)
        refine ⟨accepts, (upsertsMatch_next accepts).mpr ?_⟩
        exact ih (describes.next distinct.1 accepts) distinct.2 sameRows sameParents
  · intro accepted
    have same := describes.get?_upsertAll distinct accepted
    refine ⟨?_, ?_⟩
    · intro uuid
      rw [Table.mem_iff_get?, Table.mem_iff_get?, same]
    · intro uuid
      rw [parentOf, parentOf, same]

end ObjectTable

inductive Operation where
  | addObject (id : ObjectID) (node : StreamObjectNode)
  | updateObject (id : ObjectID) (node : StreamObjectNode)
  | onObjectAabbChanged (node : StreamObjectNode)
  | _removeObject (uuid : Uuid)

/-- The manager that collects a batch, and the table in which its operations run at once. -/
structure OneByOne where
  world : World
  objects : ObjectTable

namespace OneByOne

/-- `upsert_object_uuids`, which has to succeed. -/
def upsert (state : OneByOne) (node : StreamObjectNode) : Option OneByOne :=
  if state.objects.Accepts node.uuid node.parentUuid then
    some { state with objects := state.objects.upsert node.uuid node.parentUuid }
  else none

/-- The next operation, when its statements succeed. -/
def step (state : OneByOne) : Operation → Option OneByOne
  | .addObject id node =>
      let next := { state with
        world := { state.world with manager := state.world.manager.addObject id node } }
      if node.uuid = Uuid.nil then some next else next.upsert node
  | .updateObject id node =>
      let next := { state with
        world := { state.world with manager := state.world.manager.updateObject id node } }
      if node.uuid ∈ state.world.manager.registry then next.upsert node else some next
  | .onObjectAabbChanged node =>
      some { state with
        world := { state.world with manager := state.world.manager.onObjectAabbChanged node } }
  | ._removeObject uuid =>
      some {
        world := state.world._removeObject uuid
        objects := state.objects.deleteAll (state.world.manager.collectDescendants uuid) }

/-- What the deletes that are pending so far leave of the table of the last flush. -/
def spared (origin : ObjectTable) (state : OneByOne) : ObjectTable :=
  origin.deleteAll state.world.manager.toRemove.keys

/-- Of the other rows that are left from the last flush, a removal takes with it one by one those
that lay below the removed objects then. -/
def Undivided (origin : ObjectTable) (state : OneByOne) : Operation → Prop
  | ._removeObject uuid =>
      ∀ other ∈ (state.spared origin).rows.keys, other ∉ state.world.deleted uuid →
        (state.objects.Spares (state.world.manager.collectDescendants uuid) other ↔
          origin.Spares (state.world.deleted uuid) other)
  | .addObject .. | .updateObject .. | .onObjectAabbChanged _ => True

instance (origin : ObjectTable) (state : OneByOne) :
    ∀ operation, Decidable (state.Undivided origin operation)
  | ._removeObject _ => inferInstanceAs (Decidable (∀ other ∈ _, _ → (_ ↔ _)))
  | .addObject .. | .updateObject .. | .onObjectAabbChanged _ => isTrue trivial

variable {origin : ObjectTable} {state next : OneByOne}

/-- The pending sets describe how the table one by one differs from the table of the last flush. -/
structure Follows (origin : ObjectTable) (state : OneByOne) : Prop where
  registered : ∀ uuid ∈ state.world.manager.toUpsertUuids, uuid ∈ state.world.manager.registry
  others : ∀ uuid ∉ state.world.manager.toUpsertUuids,
    state.objects.rows.get? uuid = (state.spared origin).rows.get? uuid
  pending : ∀ uuid ∈ state.world.manager.toUpsertUuids, ∀ data,
    state.world.manager.registry.get? uuid = some data →
      state.objects.rows.get? uuid =
          some ((state.spared origin).upsertedRow uuid data.parentUuid) ∨
        state.objects.rows.get? uuid = none ∧ (state.spared origin).rows.get? uuid = none

/-- An upsert leaves the same row in both tables. -/
theorem Follows.upsertedRow (follows : Follows origin state) (uuid parentUuid : Uuid) :
    state.objects.upsertedRow uuid parentUuid =
      (state.spared origin).upsertedRow uuid parentUuid := by
  by_cases marked : uuid ∈ state.world.manager.toUpsertUuids
  · rcases Table.mem_iff_get?.mp (follows.registered uuid marked) with ⟨data, found⟩
    rcases follows.pending uuid marked data found with upserted | ⟨absent, unstored⟩
    · exact ObjectTable.upsertedRow_of_upserted upserted parentUuid
    · exact ObjectTable.upsertedRow_congr (absent.trans unstored.symm) parentUuid
  · exact ObjectTable.upsertedRow_congr (follows.others uuid marked) parentUuid

/-- An operation that marks an object and runs its upsert. -/
theorem Follows.marks (follows : Follows origin state) {uuid : Uuid} {data : ObjectData}
    (accepted : state.objects.Accepts uuid data.parentUuid)
    (objects : next.objects = state.objects.upsert uuid data.parentUuid)
    (toRemove : next.world.manager.toRemove = state.world.manager.toRemove)
    (toUpsertUuids : next.world.manager.toUpsertUuids =
      state.world.manager.toUpsertUuids.insert uuid ())
    (registry : ∀ other, next.world.manager.registry.get? other =
      if other = uuid then some data else state.world.manager.registry.get? other) :
    Follows origin next := by
  have sameSpared : next.spared origin = state.spared origin := by
    rw [spared, spared, toRemove]
  refine ⟨?_, ?_, ?_⟩
  · intro other marked
    rw [toUpsertUuids, Table.mem_insert] at marked
    rw [Table.mem_iff_get?, registry]
    split
    case isTrue => exact ⟨data, rfl⟩
    case isFalse distinct =>
      exact Table.mem_iff_get?.mp (follows.registered other (marked.resolve_left distinct))
  · intro other unmarked
    rw [toUpsertUuids, Table.mem_insert, not_or] at unmarked
    rw [objects, ObjectTable.get?_upsert accepted, if_neg unmarked.1, sameSpared]
    exact follows.others other unmarked.2
  · intro other marked otherData found
    rw [toUpsertUuids, Table.mem_insert] at marked
    rw [registry] at found
    rw [objects, ObjectTable.get?_upsert accepted, sameSpared]
    split
    case isTrue same =>
      rw [if_pos same, Option.some.injEq] at found
      left
      rw [← found, ← same, follows.upsertedRow]
    case isFalse distinct =>
      rw [if_neg distinct] at found
      exact follows.pending other (marked.resolve_left distinct) otherData found

/-- A removal adds its deletes to the pending ones. -/
theorem get?_spared_removeObject {uuid other : Uuid}
    (removed : next.world = state.world._removeObject uuid) :
    (next.spared origin).rows.get? other =
      if origin.Spares (state.world.deleted uuid) other then
        (state.spared origin).rows.get? other
      else none := by
  have pending : origin.Spares next.world.manager.toRemove.keys other ↔
      origin.Spares (state.world.deleted uuid) other ∧
        origin.Spares state.world.manager.toRemove.keys other := by
    simp only [ObjectTable.Spares, removed, ← Table.mem_def, World.mem_deleted,
      (World.deletes_removeObject state.world uuid).removals, or_imp, forall_and]
  simp only [spared, ObjectTable.get?_deleteAll, pending]
  by_cases sparesNew : origin.Spares (state.world.deleted uuid) other <;> simp [sparesNew]

/-- A removal that takes the same rows with it in both tables. -/
theorem Follows.removes (follows : Follows origin state) {uuid : Uuid}
    (undivided : state.Undivided origin (._removeObject uuid))
    (world : next.world = state.world._removeObject uuid)
    (objects : next.objects =
      state.objects.deleteAll (state.world.manager.collectDescendants uuid)) :
    Follows origin next := by
  have deletes := World.deletes_removeObject state.world uuid
  have marked (other : Uuid) : other ∈ next.world.manager.toUpsertUuids ↔
      other ∉ state.world.deleted uuid ∧ other ∈ state.world.manager.toUpsertUuids := by
    rw [world]
    exact World.mem_toUpsertUuids_removeObject
  have oneByOne (other : Uuid) : next.objects.rows.get? other =
      if state.objects.Spares (state.world.manager.collectDescendants uuid) other then
        state.objects.rows.get? other
      else none := by
    rw [objects]
    exact ObjectTable.get?_deleteAll _ _ _
  have batched (other : Uuid) : (next.spared origin).rows.get? other =
      if origin.Spares (state.world.deleted uuid) other then
        (state.spared origin).rows.get? other
      else none := get?_spared_removeObject world
  have together (other : Uuid) (stays : other ∉ state.world.deleted uuid)
      (left : other ∈ (state.spared origin).rows) :
      state.objects.Spares (state.world.manager.collectDescendants uuid) other ↔
        origin.Spares (state.world.deleted uuid) other :=
    undivided other (Table.mem_def.mp left) stays
  refine ⟨?_, ?_, ?_⟩
  · intro other otherMarked
    rcases (marked other).mp otherMarked with ⟨stays, before⟩
    have registered := follows.registered other before
    have uncollected : other ∉ state.world.manager.collectDescendants uuid :=
      fun collected => stays (World.mem_deleted.mpr ⟨collected, registered⟩)
    rw [world, Table.mem_iff_get?, deletes.registry, if_neg uncollected]
    exact Table.mem_iff_get?.mp registered
  · intro other unmarked
    rw [oneByOne, batched]
    by_cases isDeleted : other ∈ state.world.deleted uuid
    · have collected := (World.mem_deleted.mp isDeleted).1
      rw [if_neg fun spares => spares other collected Relation.ReflTransGen.refl,
        if_neg fun spares => spares other isDeleted Relation.ReflTransGen.refl]
    · have before : other ∉ state.world.manager.toUpsertUuids :=
        fun pending => unmarked ((marked other).mpr ⟨isDeleted, pending⟩)
      rw [follows.others other before]
      by_cases left : other ∈ (state.spared origin).rows
      · simp only [together other isDeleted left]
      · rw [Table.get?_eq_none.mpr left, ite_self, ite_self]
  · intro other otherMarked data found
    rcases (marked other).mp otherMarked with ⟨stays, before⟩
    rw [world, deletes.registry] at found
    split at found
    case isTrue => simp at found
    case isFalse =>
      rw [oneByOne, batched]
      rcases follows.pending other before data found with upserted | ⟨absent, unstored⟩
      · by_cases spares : state.objects.Spares
          (state.world.manager.collectDescendants uuid) other
        · left
          have sameRow : (next.spared origin).rows.get? other =
              (state.spared origin).rows.get? other := by
            rw [batched]
            by_cases left : other ∈ (state.spared origin).rows
            · rw [if_pos ((together other stays left).mp spares)]
            · rw [Table.get?_eq_none.mpr left, ite_self]
          rw [if_pos spares, upserted, ObjectTable.upsertedRow_congr sameRow]
        · right
          refine ⟨if_neg spares, ?_⟩
          by_cases left : other ∈ (state.spared origin).rows
          · exact if_neg fun kept => spares ((together other stays left).mpr kept)
          · rw [Table.get?_eq_none.mpr left, ite_self]
      · right
        rw [absent, unstored, ite_self, ite_self]
        exact ⟨rfl, rfl⟩

theorem Follows.step (follows : Follows origin state) {operation : Operation}
    (undivided : state.Undivided origin operation)
    (stepped : state.step operation = some next) : Follows origin next := by
  cases operation with
  | addObject id node =>
      simp only [OneByOne.step] at stepped
      split at stepped
      case isTrue isNil =>
        rw [← Option.some.inj stepped]
        simpa only [StreamManager.addObject, isNil, if_true] using follows
      case isFalse named =>
        simp only [upsert] at stepped
        split at stepped
        case isFalse => simp at stepped
        case isTrue accepted =>
          rcases StreamManager.exists_addObject state.world.manager id node named with
            ⟨childrenMap, registers⟩
          rw [← Option.some.inj stepped, registers]
          exact follows.marks accepted rfl rfl rfl fun other => Table.get?_insert _ _ _ _
  | updateObject id node =>
      simp only [OneByOne.step] at stepped
      rcases StreamManager.updateObject_cases state.world.manager id node with
        ⟨absent, same⟩ | ⟨registered, registry, childrenMap, same, entries⟩
      · rw [if_neg absent, same] at stepped
        exact Option.some.inj stepped ▸ follows
      · rw [if_pos registered, same] at stepped
        simp only [upsert] at stepped
        split at stepped
        case isFalse => simp at stepped
        case isTrue accepted =>
          rw [← Option.some.inj stepped]
          let data : ObjectData := { parentUuid := node.parentUuid, nodeRoot := id }
          have dataAccepted : state.objects.Accepts node.uuid data.parentUuid := accepted
          exact follows.marks dataAccepted rfl rfl rfl entries
  | onObjectAabbChanged node =>
      rw [← Option.some.inj stepped]
      rcases StreamManager.exists_onObjectAabbChanged state.world.manager node with ⟨_, same⟩
      rw [same]
      exact ⟨follows.registered, follows.others, follows.pending⟩
  | _removeObject uuid =>
      rw [← Option.some.inj stepped]
      exact follows.removes undivided rfl rfl

/-- The state of a flush: nothing is pending. -/
theorem follows_start (nothingMarked : state.world.manager.toUpsertUuids = ∅)
    (nothingRemoved : state.world.manager.toRemove = ∅) :
    Follows state.objects state := by
  have same : state.spared state.objects = state.objects := by
    rw [spared, nothingRemoved]
    rfl
  refine ⟨?_, ?_, ?_⟩
  · intro uuid marked
    rw [nothingMarked] at marked
    exact absurd marked (Table.not_mem_empty uuid)
  · intro uuid _
    rw [same]
  · intro uuid marked
    rw [nothingMarked] at marked
    exact absurd marked (Table.not_mem_empty uuid)

theorem follows_of_reaches {start : OneByOne}
    (nothingMarked : start.world.manager.toUpsertUuids = ∅)
    (nothingRemoved : start.world.manager.toRemove = ∅)
    (reached : Reaches OneByOne.step (Undivided start.objects) start state) :
    Follows start.objects state :=
  reached.invariant (follows_start nothingMarked nothingRemoved)
    fun _ _ _ follows undivided stepped => follows.step undivided stepped

theorem Follows.describes (follows : Follows origin state) :
    ObjectTable.Describes state.world.manager.upsertData (state.spared origin) state.objects := by
  refine ⟨?_, ?_⟩
  · intro uuid unlisted
    apply follows.others uuid
    intro marked
    exact unlisted (StreamManager.mem_upsertData.mpr ⟨marked, follows.registered uuid marked⟩)
  · intro entry listed
    rcases StreamManager.get?_of_mem_upsertData listed with ⟨marked, found⟩
    exact follows.pending entry.1 marked entry.2 found

end OneByOne

/-- A flush leaves the rows that are meant with their parents, and their boxes and chunks unless
the box is in the batch. -/
structure FlushBatch.Achieves (batch : FlushBatch) (meant after : ObjectTable) : Prop where
  present : ∀ uuid, uuid ∈ after.rows ↔ uuid ∈ meant.rows
  parents : ∀ uuid, after.parentOf uuid = meant.parentOf uuid
  boxes : ∀ uuid ∉ batch.dirtyData, after.aabbOf uuid = meant.aabbOf uuid
  chunks : ∀ uuid ∉ batch.dirtyData,
    (after.rows.get? uuid).bind ObjectRow.chunkId = (meant.rows.get? uuid).bind ObjectRow.chunkId

/-- No object without a changed box lies above one with a changed box, whose merge would give it a
new chunk. -/
def FlushBatch.SparesUpper (batch : FlushBatch) (meant : ObjectTable) : Prop :=
  ∀ uuid ∈ meant.rows.keys, uuid ∉ batch.dirtyData →
    ∀ entry ∈ batch.dirtyData.entries, ¬ meant.Below uuid entry.1

instance (batch : FlushBatch) (meant : ObjectTable) : Decidable (batch.SparesUpper meant) :=
  inferInstanceAs (Decidable (∀ uuid ∈ _, _ → ∀ entry ∈ _, _))

namespace FlushBatch

variable {batch : FlushBatch} {db : StreamSqliteDB} {meant : ObjectTable}

/-- The box statements leave the rows of the other objects. -/
theorem get?_prepare_of_not_mem {uuid : Uuid} (unchanged : uuid ∉ batch.dirtyData) :
    (db.prepare batch).objects.rows.get? uuid = (batch.rowsAfter db).rows.get? uuid := by
  rw [StreamSqliteDB.prepare, StreamSqliteDB.get?_runBoxes_of_not_mem unchanged,
    StreamSqliteDB.objects_runUpserts, StreamSqliteDB.objects_runDeletes]
  rfl

/-- When the deletes and upserts leave the rows that are meant, so does the task. -/
theorem achieves_of_rowsAfter {state : FlushState} (ended : flushTask batch db = some state)
    (same : ∀ uuid, (batch.rowsAfter db).rows.get? uuid = meant.rows.get? uuid)
    (sparesUpper : batch.SparesUpper meant) : batch.Achieves meant state.db.objects := by
  have keeps := flushTask_keepsRows ended
  have sameParents (uuid : Uuid) : (db.prepare batch).objects.parentOf uuid =
      meant.parentOf uuid := by
    rw [parentOf_prepare, ObjectTable.parentOf, ObjectTable.parentOf, same]
  refine ⟨?_, ?_, ?_, ?_⟩
  · intro uuid
    rw [keeps.present, mem_prepare, Table.mem_iff_get?, Table.mem_iff_get?, same]
  · intro uuid
    rw [keeps.parents, sameParents]
  · intro uuid unchanged
    rw [keeps.columns, ObjectTable.aabbOf, ObjectTable.aabbOf, get?_prepare_of_not_mem unchanged,
      same]
  · intro uuid unchanged
    have edges := ObjectTable.isChild_congr sameParents
    have untouched : ¬ FlushState.Touched (db.prepare batch) batch.dirtyData.entries uuid := by
      rintro ⟨entry, listed, own | above⟩
      · exact unchanged (own ▸ Table.mem_of_get? (Table.get?_eq_some.mpr listed))
      · rw [ObjectTable.Ancestor, edges] at above
        rcases Relation.TransGen.head'_iff.mp above with ⟨_, isChild, _⟩
        exact sparesUpper uuid (Table.mem_def.mp (ObjectTable.parent_mem isChild)) unchanged
          entry listed above.to_reflTransGen
    rw [keeps.untouched uuid untouched, get?_prepare_of_not_mem unchanged, same]

end FlushBatch

namespace OneByOne

variable {start state : OneByOne}

/-- A root, its child with a box, and a child of that child. -/
def lineDb : StreamSqliteDB :=
  (StreamSqliteDB.create.runUpserts
    [(1, {}), (2, { parentUuid := 1 }), (3, { parentUuid := 2 })]).setObjectAabb 2 World.unitBox

/-- A manager over `lineDb` that has merged the root and its child. -/
def seeingLine : World :=
  { World.make lineDb ∅ 2 2 World.counting with
    manager := (StreamManager.make "" 2 2).applyObjects
      ((Table.insert ∅ 1 {}).insert 2 { parentUuid := 1 }) }

end OneByOne

end GodotStream
