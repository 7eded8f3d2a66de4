import GodotStream.BatchOrder
import GodotStream.ChildrenIndex

/-!
# Removing a subtree

A removal deletes the scene files of the objects that `_remove_object` collects, and
the flush that follows deletes the rows of these objects, to which the foreign key adds
every row below them. The collection follows the children of registered objects, so the
two agree when the rows below a removed object are registered.
-/

namespace GodotStream

open Storage

namespace ObjectTable

variable {table : ObjectTable} {remove : List Uuid} {upper lower : Uuid}

/-- Nothing but itself lies above a row that is its own parent. -/
theorem eq_of_below_selfParent (below : table.Below upper lower)
    (selfParent : table.parentOf lower = some lower) : upper = lower := by
  induction below with
  | refl => rfl
  | tail _ isChild ih =>
      rw [IsChild, selfParent, Option.some.injEq] at isChild
      subst isChild
      exact ih selfParent

/-- An upsert does not delete rows. -/
theorem mem_upsertAll_of_mem {upsertData : List (Uuid × ObjectData)} {uuid : Uuid}
    (present : uuid ∈ table.rows) : uuid ∈ (table.upsertAll upsertData).rows := by
  apply List.foldlRecOn (motive := fun other : ObjectTable => uuid ∈ other.rows) _ _ present
  intro other otherPresent entry _
  exact mem_upsert.mpr (Or.inr otherPresent)

/-- Upserts with the parents of `table` do not bring back a row that the deletes took, unless the
row is listed in both. -/
theorem spares_of_mem_upsertAll {upsertData : List (Uuid × ObjectData)}
    (sameParents : ∀ entry ∈ upsertData,
      entry.2.parentUuid = readNullableUuid (table.parentOf entry.1))
    (unlisted : ∀ entry ∈ upsertData, entry.1 ∉ remove) {uuid : Uuid}
    (present : uuid ∈ ((table.deleteAll remove).upsertAll upsertData).rows) :
    table.Spares remove uuid := by
  have spared : ∀ other ∈ ((table.deleteAll remove).upsertAll upsertData).rows,
      table.Spares remove other := by
    apply List.foldlRecOn (motive := fun after : ObjectTable =>
      ∀ other ∈ after.rows, table.Spares remove other)
    · intro other remains
      exact (mem_deleteAll.mp remains).2
    · intro after afterSpared entry listed other remains
      rcases mem_upsert.mp remains with ⟨rfl, accepted⟩ | old
      case inr => exact afterSpared other old
      intro root rootListed below
      rcases Relation.ReflTransGen.cases_tail below with same | ⟨parent, rootAbove, isChild⟩
      · exact unlisted entry listed (same ▸ rootListed)
      -- the parent of the row was deleted with it, so the foreign key refuses the upsert
      have parentEq : entry.2.parentUuid = parent := by
        rw [sameParents entry listed, isChild]
        rfl
      rw [Accepts, parentEq] at accepted
      rcases accepted with isNil | own | parentRemains
      · exact parent_ne_nil isChild isNil
      · rw [own] at isChild
        have same := eq_of_below_selfParent below isChild
        exact unlisted entry listed (same ▸ rootListed)
      · exact afterSpared parent parentRemains root rootListed rootAbove
  exact spared uuid present

/-- Upserts with the parents of `table` give rows no other parents. -/
theorem parentOf_of_upsertAll {upsertData : List (Uuid × ObjectData)}
    (sameParents : ∀ entry ∈ upsertData,
      entry.2.parentUuid = readNullableUuid (table.parentOf entry.1)) {uuid parent : Uuid}
    (isChild : ((table.deleteAll remove).upsertAll upsertData).parentOf uuid = some parent) :
    table.parentOf uuid = some parent := by
  have kept : ∀ child upper,
      ((table.deleteAll remove).upsertAll upsertData).parentOf child = some upper →
        table.parentOf child = some upper := by
    apply List.foldlRecOn (motive := fun after : ObjectTable =>
      ∀ child upper, after.parentOf child = some upper → table.parentOf child = some upper)
    · intro child upper childEq
      simp only [parentOf, get?_deleteAll] at childEq ⊢
      split at childEq
      · exact childEq
      · simp at childEq
    · intro after afterKept entry listed child upper childEq
      by_cases accepted : after.Accepts entry.1 entry.2.parentUuid
      case neg =>
        rw [upsert_of_not_accepts accepted] at childEq
        exact afterKept child upper childEq
      case pos =>
        simp only [parentOf, get?_upsert accepted] at childEq
        split at childEq
        case isFalse => exact afterKept child upper childEq
        case isTrue same =>
          subst same
          simp only [Option.bind_some, parentUuid_upsertedRow, sameParents entry listed] at childEq
          cases stored : table.parentOf entry.1 with
          | none => simp [stored, readNullableUuid] at childEq
          | some above =>
              simpa [stored, readNullableUuid, toColumn_of_ne_nil (parent_ne_nil stored)]
                using childEq
  exact kept uuid parent isChild

end ObjectTable

namespace World

variable {world : World} {db : StreamSqliteDB}

/-- The objects whose scene file and cached scene `_remove_object` deletes. -/
def deleted (world : World) (uuid : Uuid) : List Uuid :=
  (world.manager.collectDescendants uuid).filter (· ∈ world.manager.registry)

theorem mem_deleted {uuid other : Uuid} : other ∈ world.deleted uuid ↔
    other ∈ world.manager.collectDescendants uuid ∧ other ∈ world.manager.registry := by
  simp only [deleted, List.mem_filter, decide_eq_true_eq]

/-- Deleting the registered ones among `ids` leads from one state to the other. -/
structure Deletes (ids : List Uuid) (before after : World) : Prop where
  frame : after = { before with
    files := after.files
    manager := { before.manager with
      cache := after.manager.cache
      registry := after.manager.registry
      childrenMap := after.manager.childrenMap
      toUpsertUuids := after.manager.toUpsertUuids
      toRemove := after.manager.toRemove
      dirtyAabb := after.manager.dirtyAabb } }
  registry : ∀ uuid, after.manager.registry.get? uuid =
    if uuid ∈ ids then none else before.manager.registry.get? uuid
  files : ∀ uuid, after.files.get? (before.manager.objectScenePath uuid) =
    if uuid ∈ ids ∧ uuid ∈ before.manager.registry then none
    else before.files.get? (before.manager.objectScenePath uuid)
  scenes : ∀ uuid, after.manager.cache.sceneCache.peek uuid =
    if uuid ∈ ids ∧ uuid ∈ before.manager.registry then none
    else before.manager.cache.sceneCache.peek uuid
  removals : ∀ uuid, uuid ∈ after.manager.toRemove ↔
    uuid ∈ ids ∧ uuid ∈ before.manager.registry ∨ uuid ∈ before.manager.toRemove

theorem deletes_removeCollected (world : World) (id : Uuid) :
    Deletes [id] world (world.removeCollected id) := by
  cases registered : world.manager.registry.get? id with
  | none =>
      have absent := Table.get?_eq_none.mp registered
      simp only [removeCollected, registered]
      refine ⟨rfl, ?_, ?_, ?_, ?_⟩
      · intro uuid
        by_cases same : uuid = id <;> simp [same, registered]
      · intro uuid
        by_cases same : uuid = id <;> simp [same, absent]
      · intro uuid
        by_cases same : uuid = id <;> simp [same, absent]
      · intro uuid
        by_cases same : uuid = id <;> simp [same, absent]
  | some data =>
      have present := Table.mem_of_get? registered
      rcases StreamManager.exists_eraseChild
        { world.manager with
          cache := (world.manager.cache.removeScene id).removeScene id } data.parentUuid id with
        ⟨childrenMap, erased⟩
      have removed : world.removeCollected id = { world with
          files := world.files.erase (world.manager.objectScenePath id)
          manager := { world.manager with
            cache := (world.manager.cache.removeScene id).removeScene id
            childrenMap
            registry := (world.manager.registry.erase id).erase id
            toRemove := world.manager.toRemove.insert id ()
            dirtyAabb := world.manager.dirtyAabb.erase id
            toUpsertUuids := world.manager.toUpsertUuids.erase id } } := by
        simp only [removeCollected, registered, deleteObjectScene, erased,
          StreamManager.eraseRegistryEntry]
      rw [removed]
      refine ⟨rfl, ?_, ?_, ?_, ?_⟩
      · intro uuid
        by_cases same : uuid = id <;> simp [Table.get?_erase, same]
      · intro uuid
        by_cases same : uuid = id <;>
          simp [Table.get?_erase, StreamManager.objectScenePath, same, present]
      · intro uuid
        by_cases same : uuid = id <;>
          simp [ObjectSceneCache.removeScene, FixedSizedCache.peek_remove, same, present]
      · intro uuid
        by_cases same : uuid = id <;> simp [same, present]

theorem Deletes.cons {id : Uuid} {rest : List Uuid} {before middle after : World}
    (first : Deletes [id] before middle) (others : Deletes rest middle after) :
    Deletes (id :: rest) before after := by
  have samePath (uuid : Uuid) :
      middle.manager.objectScenePath uuid = before.manager.objectScenePath uuid := by
    rw [first.frame]
    rfl
  have registered (uuid : Uuid) :
      uuid ∈ middle.manager.registry ↔ uuid ≠ id ∧ uuid ∈ before.manager.registry := by
    simp only [Table.mem_iff_get?, first.registry, List.mem_singleton]
    by_cases same : uuid = id <;> simp [same]
  refine ⟨?_, ?_, ?_, ?_, ?_⟩
  · calc
      after = _ := others.frame
      _ = _ := by rw [first.frame]
  · intro uuid
    rw [others.registry, first.registry]
    by_cases same : uuid = id <;> simp [same]
  · intro uuid
    rw [← samePath, others.files, samePath, first.files]
    by_cases same : uuid = id <;> simp [registered, same]
  · intro uuid
    rw [others.scenes, first.scenes]
    by_cases same : uuid = id <;> simp [registered, same]
  · intro uuid
    rw [others.removals, first.removals, registered]
    by_cases same : uuid = id <;> simp [same]

theorem deletes_foldl_removeCollected (ids : List Uuid) (world : World) :
    Deletes ids world (ids.foldl removeCollected world) := by
  induction ids generalizing world with
  | nil => exact ⟨rfl, by simp, by simp, by simp, by simp⟩
  | cons id rest ih => exact (deletes_removeCollected world id).cons (ih _)

/-- A removal deletes the registered objects among those it collects. -/
theorem deletes_removeObject (world : World) (uuid : Uuid) :
    Deletes (world.manager.collectDescendants uuid) world (world._removeObject uuid) := by
  rcases deletes_foldl_removeCollected (world.manager.collectDescendants uuid) world with
    ⟨frame, registry, files, scenes, removals⟩
  exact ⟨congrArg (fun other : World => { other with
      manager := { other.manager with
        childrenMap := (world._removeObject uuid).manager.childrenMap } }) frame,
    registry, files, scenes, removals⟩

theorem Deletes.mem_registry {ids : List Uuid} {before after : World}
    (deletes : Deletes ids before after) {uuid : Uuid} :
    uuid ∈ after.manager.registry ↔ uuid ∉ ids ∧ uuid ∈ before.manager.registry := by
  rw [Table.mem_iff_get?, deletes.registry]
  by_cases listed : uuid ∈ ids
  · simp [listed]
  · simp [listed, Table.mem_iff_get?]

/-- A link is lost only at a removed end. -/
theorem mem_childrenOf_removeCollected {id parent child : Uuid} :
    (child ∈ (world.removeCollected id).manager.childrenOf parent →
      child ∈ world.manager.childrenOf parent) ∧
    (child ∈ world.manager.childrenOf parent → child ≠ id →
      child ∈ (world.removeCollected id).manager.childrenOf parent) := by
  cases registered : world.manager.registry.get? id with
  | none =>
      simp only [removeCollected, registered]
      exact ⟨fun listed => listed, fun listed _ => listed⟩
  | some data =>
      have links : child ∈ (world.removeCollected id).manager.childrenOf parent ↔
          ¬ (data.parentUuid ≠ Uuid.nil ∧ parent = data.parentUuid ∧ child = id) ∧
            child ∈ world.manager.childrenOf parent := by
        simp only [removeCollected, registered]
        exact StreamManager.mem_childrenOf_eraseChild
      rw [links]
      exact ⟨And.right, fun listed other => ⟨fun erased => other erased.2.2, listed⟩⟩

theorem mem_childrenOf_foldl_removeCollected (ids : List Uuid) (world : World)
    {parent child : Uuid} :
    (child ∈ (ids.foldl removeCollected world).manager.childrenOf parent →
      child ∈ world.manager.childrenOf parent) ∧
    (child ∈ world.manager.childrenOf parent → child ∉ ids →
      child ∈ (ids.foldl removeCollected world).manager.childrenOf parent) := by
  induction ids generalizing world with
  | nil => exact ⟨fun listed => listed, fun listed _ => listed⟩
  | cons id rest ih =>
      rw [List.foldl_cons]
      rcases ih (world.removeCollected id) with ⟨kept, spared⟩
      refine ⟨fun listed => mem_childrenOf_removeCollected.1 (kept listed), ?_⟩
      intro listed outside
      rw [List.mem_cons, not_or] at outside
      exact spared (mem_childrenOf_removeCollected.2 listed outside.1) outside.2

theorem mem_childrenOf_removeObject {root parent child : Uuid} :
    (child ∈ (world._removeObject root).manager.childrenOf parent →
      child ∈ world.manager.childrenOf parent) ∧
    (child ∈ world.manager.childrenOf parent →
      parent ∉ world.manager.collectDescendants root →
      child ∉ world.manager.collectDescendants root →
      child ∈ (world._removeObject root).manager.childrenOf parent) := by
  rcases mem_childrenOf_foldl_removeCollected (world.manager.collectDescendants root) world
    with ⟨kept, spared⟩
  rw [show (world._removeObject root).manager.childrenOf parent = _ from
    childrenOf_foldl_erase _ _ parent]
  refine ⟨?_, ?_⟩
  · intro listed
    split at listed
    · cases listed
    · exact kept listed
  · intro listed parentSpared childSpared
    rw [if_neg parentSpared]
    exact spared listed childSpared

/-- A removal leaves what is above an object that it spares. -/
theorem reaches_removeObject_iff {root upper lower : Uuid}
    (spared : ¬ Worklist.Reaches world.manager.childrenOf root lower) :
    Worklist.Reaches (world._removeObject root).manager.childrenOf upper lower ↔
      Worklist.Reaches world.manager.childrenOf upper lower := by
  constructor
  · exact Relation.ReflTransGen.mono (fun _ _ link => mem_childrenOf_removeObject.1 link) _ _
  · intro reaches
    induction reaches using Relation.ReflTransGen.head_induction_on with
    | refl => exact Relation.ReflTransGen.refl
    | head link rest ih =>
        -- a collected end of the link would have `lower` collected too
        have uncollected {other : Uuid}
            (above : Worklist.Reaches world.manager.childrenOf other lower) :
            other ∉ world.manager.collectDescendants root := fun collected =>
          spared ((StreamManager.mem_collectDescendants.mp collected).trans above)
        have kept := mem_childrenOf_removeObject.2 link (uncollected (rest.head link))
          (uncollected rest)
        exact ih.head kept

/-- What is left after some removals: what was registered and is not below a removed object. -/
theorem mem_registry_foldl_removeObject (removals : List Uuid) (world : World) (uuid : Uuid) :
    uuid ∈ (removals.foldl _removeObject world).manager.registry ↔
      uuid ∈ world.manager.registry ∧
        ∀ removed ∈ removals, ¬ Worklist.Reaches world.manager.childrenOf removed uuid := by
  induction removals generalizing world with
  | nil => simp
  | cons root rest ih =>
      have registered : uuid ∈ (world._removeObject root).manager.registry ↔
          ¬ Worklist.Reaches world.manager.childrenOf root uuid ∧
            uuid ∈ world.manager.registry := by
        rw [← StreamManager.mem_collectDescendants]
        exact (deletes_removeObject world root).mem_registry
      rw [List.foldl_cons, ih, registered, List.forall_mem_cons, and_assoc, and_left_comm]
      apply and_congr_right
      intro _
      apply and_congr_right
      intro spared
      apply forall_congr'
      intro removed
      rw [reaches_removeObject_iff spared]

/-- The body of the loop takes its object out of `marks` when the object is registered. -/
def Unmarks (marks : World → Table Uuid Unit) : Prop :=
  ∀ world id other, other ∈ marks (removeCollected world id) ↔
    ¬ (other = id ∧ other ∈ world.manager.registry) ∧ other ∈ marks world

theorem unmarks_removeCollected :
    Unmarks (·.manager.toUpsertUuids) ∧ Unmarks (·.manager.dirtyAabb) := by
  rw [Unmarks, Unmarks, ← forall_and]
  intro world
  rw [← forall_and]
  intro id
  rw [← forall_and]
  intro other
  cases registered : world.manager.registry.get? id with
  | none =>
      have absent := Table.get?_eq_none.mp registered
      simp only [removeCollected, registered]
      by_cases same : other = id <;> simp [same, absent]
  | some data =>
      have present := Table.mem_of_get? registered
      rcases StreamManager.exists_eraseChild
        { world.manager with cache := (world.manager.cache.removeScene id).removeScene id }
        data.parentUuid id with ⟨childrenMap, erased⟩
      simp only [removeCollected, registered, deleteObjectScene, erased,
        StreamManager.eraseRegistryEntry, Table.mem_erase]
      by_cases same : other = id <;> simp [same, present]

theorem Unmarks.foldl {marks : World → Table Uuid Unit} (unmarks : Unmarks marks)
    (ids : List Uuid) (world : World) (other : Uuid) :
    other ∈ marks (ids.foldl removeCollected world) ↔
      ¬ (other ∈ ids ∧ other ∈ world.manager.registry) ∧ other ∈ marks world := by
  induction ids generalizing world with
  | nil => simp
  | cons id rest ih =>
      rw [List.foldl_cons, ih, unmarks, Table.mem_iff_get?, get?_registry_removeCollected,
        ← and_assoc, Table.mem_iff_get?]
      by_cases same : other = id <;> simp [same]

/-- A removal unmarks the objects that it removes. -/
theorem mem_toUpsertUuids_removeObject {world : World} {uuid other : Uuid} :
    other ∈ (world._removeObject uuid).manager.toUpsertUuids ↔
      other ∉ world.deleted uuid ∧ other ∈ world.manager.toUpsertUuids := by
  rw [mem_deleted]
  exact unmarks_removeCollected.1.foldl _ world other

/-- The scene files and the cached scenes of `ids` are deleted, and no others. -/
def ScenesDeleted (before after : World) (ids : List Uuid) : Prop :=
  ∀ uuid,
    after.files.get? (before.manager.objectScenePath uuid) =
      (if uuid ∈ ids then none else before.files.get? (before.manager.objectScenePath uuid)) ∧
    after.manager.cache.sceneCache.peek uuid =
      (if uuid ∈ ids then none else before.manager.cache.sceneCache.peek uuid)

theorem scenesDeleted_removeObject (world : World) (uuid : Uuid) :
    ScenesDeleted world (world._removeObject uuid) (world.deleted uuid) := by
  have deletes := deletes_removeObject world uuid
  intro other
  simp only [mem_deleted]
  exact ⟨deletes.files other, deletes.scenes other⟩

/-- The registry holds a part of the stored hierarchy, with the stored parents. -/
structure HoldsPart (world : World) (db : StreamSqliteDB) : Prop where
  parents : ∀ uuid data, world.manager.registry.get? uuid = some data →
    ∃ row, db.objects.rows.get? uuid = some row ∧
      data.parentUuid = readNullableUuid row.parentUuid
  indexed : world.Indexed

theorem HoldsPart.mem_rows (part : world.HoldsPart db) {uuid : Uuid}
    (registered : uuid ∈ world.manager.registry) : uuid ∈ db.objects.rows := by
  rcases Table.mem_iff_get?.mp registered with ⟨data, found⟩
  rcases part.parents uuid data found with ⟨row, rowFound, _⟩
  exact Table.mem_of_get? rowFound

/-- The index lists every registered child row. -/
theorem HoldsPart.mem_childrenOf (part : world.HoldsPart db) {upper lower : Uuid}
    (isChild : db.objects.IsChild upper lower) (registered : lower ∈ world.manager.registry) :
    lower ∈ world.manager.childrenOf upper := by
  rcases Table.mem_iff_get?.mp registered with ⟨data, found⟩
  rcases part.parents lower data found with ⟨row, rowFound, parentEq⟩
  refine (part.indexed upper lower).mpr ⟨ObjectTable.parent_ne_nil isChild, data, found, ?_⟩
  have columnEq : row.parentUuid = some upper := by
    simpa [ObjectTable.IsChild, ObjectTable.parentOf, rowFound] using isChild
  rw [parentEq, columnEq]
  rfl

/-- What a removal leaves pending is not removed and has the stored parent. -/
theorem HoldsPart.pending (part : world.HoldsPart db) {removed : Uuid} {entry : Uuid × ObjectData}
    (listed : entry ∈ (world._removeObject removed).manager.upsertData) :
    entry.1 ∉ world.deleted removed ∧
      entry.2.parentUuid = readNullableUuid (db.objects.parentOf entry.1) := by
  simp only [StreamManager.upsertData, List.mem_filterMap, Option.map_eq_some_iff] at listed
  rcases listed with ⟨other, _, data, found, rfl⟩
  rw [(deletes_removeObject world removed).registry] at found
  split at found
  case isTrue => simp at found
  case isFalse uncollected =>
    rcases part.parents other data found with ⟨row, rowFound, parentEq⟩
    refine ⟨fun isDeleted => uncollected (mem_deleted.mp isDeleted).1, ?_⟩
    simp only [parentEq, ObjectTable.parentOf, rowFound, Option.bind_some]

theorem exists_flushTask_removal (part : world.HoldsPart db) (acyclic : db.objects.Acyclic)
    (removed : Uuid) :
    ∃ state, flushTask (world._removeObject removed).captureBatch db = some state := by
  apply exists_flushTask_of_acyclic
  intro uuid ancestor
  apply acyclic uuid
  refine Relation.TransGen.mono ?_ _ _ ancestor
  intro upper lower isChild
  rw [ObjectTable.IsChild, FlushBatch.parentOf_prepare] at isChild
  exact ObjectTable.parentOf_of_upsertAll (fun entry listed => (part.pending listed).2) isChild

/-- The flush after a removal deletes the rows below the deleted objects. -/
theorem mem_rows_flushTask (part : world.HoldsPart db) (nothingRemoved : world.manager.toRemove = ∅)
    {removed : Uuid} {state : FlushState}
    (ended : flushTask (world._removeObject removed).captureBatch db = some state) {uuid : Uuid}
    (present : uuid ∈ db.objects.rows) :
    uuid ∈ state.db.objects.rows ↔
      ∀ upper ∈ world.deleted removed, ¬ db.objects.Below upper uuid := by
  have removeIff (other : Uuid) :
      other ∈ (world._removeObject removed).manager.toRemove.keys ↔
        other ∈ world.deleted removed := by
    rw [← Table.mem_def, (deletes_removeObject world removed).removals, mem_deleted, nothingRemoved]
    simp
  have sparesIff : db.objects.Spares (world._removeObject removed).manager.toRemove.keys uuid ↔
      ∀ upper ∈ world.deleted removed, ¬ db.objects.Below upper uuid := by
    simp only [ObjectTable.Spares, removeIff]
  rw [(flushTask_keepsRows ended).present, FlushBatch.mem_prepare, ← sparesIff]
  constructor
  · intro remains
    exact ObjectTable.spares_of_mem_upsertAll (fun entry listed => (part.pending listed).2)
      (fun entry listed listedToo => (part.pending listed).1 ((removeIff _).mp listedToo)) remains
  · intro spared
    exact ObjectTable.mem_upsertAll_of_mem (ObjectTable.mem_deleteAll.mpr ⟨present, spared⟩)

/-- A removal deletes the scenes of `deleted`; the rows that vanish with its flush are the same
exactly when no registered object that it collects has an unregistered child row. -/
theorem removal_deletesSame_iff (part : world.HoldsPart db) (acyclic : db.objects.Acyclic)
    (nothingRemoved : world.manager.toRemove = ∅) (removed : Uuid) :
    ScenesDeleted world (world._removeObject removed) (world.deleted removed) ∧
    ((∃ state, flushTask (world._removeObject removed).captureBatch db = some state ∧
        ∀ uuid, uuid ∈ db.objects.rows ∧ uuid ∉ state.db.objects.rows ↔
          uuid ∈ world.deleted removed) ↔
      ∀ upper ∈ world.manager.collectDescendants removed, upper ∈ world.manager.registry →
        ∀ lower, db.objects.IsChild upper lower → lower ∈ world.manager.registry) := by
  refine ⟨scenesDeleted_removeObject world removed, ?_⟩
  rcases exists_flushTask_removal part acyclic removed with ⟨state, ended⟩
  have vanishes {uuid : Uuid} (present : uuid ∈ db.objects.rows) :
      uuid ∉ state.db.objects.rows ↔
        ∃ upper ∈ world.deleted removed, db.objects.Below upper uuid := by
    rw [mem_rows_flushTask part nothingRemoved ended present]
    simp only [not_forall, not_not, exists_prop]
  constructor
  · rintro ⟨other, otherEnded, same⟩ upper collected registered lower isChild
    rw [ended, Option.some.injEq] at otherEnded
    subst otherEnded
    have lowerVanishes : lower ∉ state.db.objects.rows :=
      (vanishes (ObjectTable.mem_of_parentOf isChild)).mpr
        ⟨upper, mem_deleted.mpr ⟨collected, registered⟩, Relation.ReflTransGen.single isChild⟩
    exact (mem_deleted.mp ((same lower).mp
      ⟨ObjectTable.mem_of_parentOf isChild, lowerVanishes⟩)).2
  · intro covered
    refine ⟨state, ended, fun uuid => ⟨?_, ?_⟩⟩
    · rintro ⟨present, gone⟩
      rcases (vanishes present).mp gone with ⟨upper, isDeleted, below⟩
      clear gone present
      induction below with
      | refl => exact isDeleted
      | tail _ isChild ih =>
          rcases mem_deleted.mp ih with ⟨collected, registered⟩
          have lowerRegistered := covered _ collected registered _ isChild
          refine mem_deleted.mpr ⟨?_, lowerRegistered⟩
          rw [StreamManager.mem_collectDescendants] at collected ⊢
          exact collected.tail (part.mem_childrenOf isChild lowerRegistered)
    · intro isDeleted
      have present := part.mem_rows (mem_deleted.mp isDeleted).2
      exact ⟨present, (vanishes present).mpr ⟨uuid, isDeleted, Relation.ReflTransGen.refl⟩⟩

/-- A parent with one child in the database. -/
def familyDb : StreamSqliteDB :=
  StreamSqliteDB.create.runUpserts [(1, {}), (2, { parentUuid := 1 })]

/-- A manager over `familyDb` that has merged a query result. -/
def seeing (dbObjects : Table Uuid ObjectData) : World :=
  { make familyDb ∅ 2 2 counting with
    manager := (StreamManager.make "" 2 2).applyObjects dbObjects }

/-- A query result of the database has been merged. -/
theorem holdsPart_merged {manager : StreamManager} {dbObjects : Table Uuid ObjectData}
    (merged : world.manager = manager.applyObjects dbObjects)
    (stored : ∀ entry ∈ world.manager.registry.entries,
      (db.objects.rows.get? entry.1).any (entry.2.parentUuid = readNullableUuid ·.parentUuid)) :
    world.HoldsPart db := by
  refine ⟨?_, ?_⟩
  · intro uuid data found
    have parentEq := stored (uuid, data) (Table.get?_eq_some.mp found)
    cases rowFound : db.objects.rows.get? uuid with
    | none => simp [rowFound] at parentEq
    | some row => exact ⟨row, rfl, by simpa [rowFound] using parentEq⟩
  · rw [Indexed, merged]
    exact StreamManager.mirrors_applyObjects _ _

theorem removal_deletesSame_family :
    let world := seeing ((Table.insert ∅ 1 {}).insert 2 { parentUuid := 1 })
    ∃ state, flushTask (world._removeObject 1).captureBatch familyDb = some state ∧
      ∀ uuid, uuid ∈ familyDb.objects.rows ∧ uuid ∉ state.db.objects.rows ↔
        uuid ∈ world.deleted 1 := by
  intro world
  have part : world.HoldsPart familyDb := holdsPart_merged rfl (by decide +kernel)
  refine (removal_deletesSame_iff part (by decide +kernel) (by rfl) 1).2.mpr ?_
  have registered : ∀ entry ∈ familyDb.objects.rows.entries,
      entry.1 ∈ world.manager.registry := by decide +kernel
  intro upper _ _ lower isChild
  rcases Table.mem_iff_get?.mp (ObjectTable.mem_of_parentOf isChild) with ⟨row, found⟩
  exact registered (lower, row) (Table.get?_eq_some.mp found)

/-- With the child out of range its row vanishes and its scene file stays. -/
theorem removal_leavesScene :
    let world := seeing (Table.insert ∅ 1 {})
    world.HoldsPart familyDb ∧ familyDb.objects.Acyclic ∧ world.manager.toRemove = ∅ ∧
    ∃ state, flushTask (world._removeObject 1).captureBatch familyDb = some state ∧
      2 ∈ familyDb.objects.rows ∧ 2 ∉ state.db.objects.rows ∧ 2 ∉ world.deleted 1 := by
  intro world
  have ended : ∃ state ∈ flushTask (world._removeObject 1).captureBatch familyDb,
      2 ∈ familyDb.objects.rows ∧ 2 ∉ state.db.objects.rows ∧ 2 ∉ world.deleted 1 := by
    decide +kernel
  exact ⟨holdsPart_merged rfl (by decide +kernel), by decide +kernel, by rfl, ended⟩

end World

end GodotStream
