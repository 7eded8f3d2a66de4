import GodotStream.FlushTask

/-!
# The order of a batch

The upserts of a task run in the storage order of a hash set, against a foreign key
that is checked at each statement. This file computes the rows that a run of deletes
and a run of upserts leave, shows that the chunk loop does not touch them, and
determines the orders in which every row of a batch is persisted.
-/

namespace GodotStream

open Storage

namespace ObjectTable

section Deletes

theorem parentOf_delete (table : ObjectTable) (root uuid : Uuid) :
    (table.delete root).parentOf uuid =
      if table.Below root uuid then none else table.parentOf uuid := by
  simp only [parentOf, get?_delete]
  split <;> rfl

/-- A deletion does not change what lies above the rows that it spares. -/
theorem below_delete {table : ObjectTable} {root upper lower : Uuid}
    (spared : ¬ table.Below root lower) :
    (table.delete root).Below upper lower ↔ table.Below upper lower := by
  constructor
  · intro below
    refine below.lift id ?_
    intro parent child isChild
    rw [IsChild, parentOf_delete] at isChild
    split at isChild
    · simp at isChild
    · exact isChild
  · intro below
    induction below with
    | refl => exact Relation.ReflTransGen.refl
    | tail _ isChild ih =>
        refine (ih fun rootBelow => spared (rootBelow.tail isChild)).tail ?_
        rw [IsChild, parentOf_delete, if_neg spared]
        exact isChild

/-- The deletes of a task. -/
def deleteAll (table : ObjectTable) (remove : List Uuid) : ObjectTable :=
  remove.foldl delete table

/-- No removed object lies above `uuid`. -/
def Spares (table : ObjectTable) (remove : List Uuid) (uuid : Uuid) : Prop :=
  ∀ root ∈ remove, ¬ table.Below root uuid

instance (table : ObjectTable) (remove : List Uuid) (uuid : Uuid) :
    Decidable (table.Spares remove uuid) :=
  inferInstanceAs (Decidable (∀ root ∈ remove, _))

/-- A run of deletes removes what lies below a listed object in the table it started from. -/
theorem get?_deleteAll (table : ObjectTable) (remove : List Uuid) (uuid : Uuid) :
    (table.deleteAll remove).rows.get? uuid =
      if table.Spares remove uuid then table.rows.get? uuid else none := by
  simp only [deleteAll]
  induction remove generalizing table with
  | nil => simp [Spares]
  | cons root rest ih =>
      rw [List.foldl_cons, ih, get?_delete]
      by_cases below : table.Below root uuid
      · simp [Spares, below]
      · simp only [Spares, below_delete below, below, if_false, List.mem_cons, forall_eq_or_imp,
          not_false_eq_true, true_and]

theorem mem_deleteAll {table : ObjectTable} {remove : List Uuid} {uuid : Uuid} :
    uuid ∈ (table.deleteAll remove).rows ↔ uuid ∈ table.rows ∧ table.Spares remove uuid := by
  simp only [Table.mem_iff_get?, get?_deleteAll]
  by_cases spares : table.Spares remove uuid <;> simp [spares]

end Deletes

section Upserts

/-- The upserts of a task. -/
def upsertAll (table : ObjectTable) (upsertData : List (Uuid × ObjectData)) : ObjectTable :=
  upsertData.foldl (fun table entry => table.upsert entry.1 entry.2.parentUuid) table

/-- Every parent is nil, the object itself, available, or the object of an earlier entry. -/
def ParentsFirst (available : Uuid → Prop) : List (Uuid × ObjectData) → Prop
  | [] => True
  | entry :: rest =>
      (entry.2.parentUuid = Uuid.nil ∨ entry.2.parentUuid = entry.1 ∨
        available entry.2.parentUuid) ∧
      ParentsFirst (fun uuid => uuid = entry.1 ∨ available uuid) rest

instance decidableParentsFirst (available : Uuid → Prop) [DecidablePred available] :
    ∀ upsertData, Decidable (ParentsFirst available upsertData)
  | [] => isTrue trivial
  | entry :: rest =>
      have := decidableParentsFirst (fun uuid => uuid = entry.1 ∨ available uuid) rest
      inferInstanceAs (Decidable (_ ∧ _))

theorem parentsFirst_congr {available other : Uuid → Prop}
    (same : ∀ uuid, available uuid ↔ other uuid) (upsertData : List (Uuid × ObjectData)) :
    ParentsFirst available upsertData ↔ ParentsFirst other upsertData := by
  rw [show available = other from funext fun uuid => propext (same uuid)]

/-- After an accepted upsert its own row is available too. -/
theorem parentsFirst_upsert {table : ObjectTable} {uuid parentUuid : Uuid}
    (accepted : table.Accepts uuid parentUuid) (rest : List (Uuid × ObjectData)) :
    ParentsFirst (· ∈ (table.upsert uuid parentUuid).rows) rest ↔
      ParentsFirst (fun other => other = uuid ∨ other ∈ table.rows) rest := by
  apply parentsFirst_congr
  intro other
  simp only [mem_upsert, accepted, and_true]

theorem get?_upsertAll_of_not_mem {table : ObjectTable} {upsertData : List (Uuid × ObjectData)}
    {uuid : Uuid} (unlisted : uuid ∉ upsertData.map Prod.fst) :
    (table.upsertAll upsertData).rows.get? uuid = table.rows.get? uuid := by
  simp only [upsertAll]
  induction upsertData generalizing table with
  | nil => rfl
  | cons entry rest ih =>
      simp only [List.map_cons, List.mem_cons, not_or] at unlisted
      rw [List.foldl_cons, ih unlisted.2]
      by_cases accepted : table.Accepts entry.1 entry.2.parentUuid
      · rw [get?_upsert accepted, if_neg unlisted.1]
      · rw [upsert_of_not_accepts accepted]

theorem upsertedRow_upsert_of_ne {table : ObjectTable} {uuid parentUuid other : Uuid}
    (accepted : table.Accepts uuid parentUuid) (distinct : other ≠ uuid) (otherParent : Uuid) :
    (table.upsert uuid parentUuid).upsertedRow other otherParent =
      table.upsertedRow other otherParent := by
  simp only [upsertedRow, get?_upsert accepted, if_neg distinct]

/-- With the parents first, every upsert is accepted. -/
theorem get?_upsertAll {table : ObjectTable} {upsertData : List (Uuid × ObjectData)}
    (distinct : (upsertData.map Prod.fst).Nodup)
    (first : ParentsFirst (· ∈ table.rows) upsertData) (uuid : Uuid) :
    (table.upsertAll upsertData).rows.get? uuid =
      match upsertData.lookup uuid with
      | some data => some (table.upsertedRow uuid data.parentUuid)
      | none => table.rows.get? uuid := by
  induction upsertData generalizing table with
  | nil => rfl
  | cons entry rest ih =>
      simp only [List.map_cons, List.nodup_cons] at distinct
      have accepted : table.Accepts entry.1 entry.2.parentUuid := first.1
      have restFirst := (parentsFirst_upsert accepted rest).mpr first.2
      simp only [upsertAll, List.foldl_cons]
      change ((table.upsert entry.1 entry.2.parentUuid).upsertAll rest).rows.get? uuid = _
      rw [List.lookup_cons]
      by_cases same : uuid = entry.1
      · subst same
        rw [get?_upsertAll_of_not_mem distinct.1, get?_upsert accepted]
        simp
      · rw [ih distinct.2 restFirst]
        simp only [beq_eq_false_iff_ne.mpr same]
        cases rest.lookup uuid with
        | none => simp only [get?_upsert accepted, if_neg same]
        | some data => simp only [upsertedRow_upsert_of_ne accepted same]

theorem mem_upsertAll {table : ObjectTable} {upsertData : List (Uuid × ObjectData)}
    (first : ParentsFirst (· ∈ table.rows) upsertData) {uuid : Uuid} :
    uuid ∈ (table.upsertAll upsertData).rows ↔
      uuid ∈ upsertData.map Prod.fst ∨ uuid ∈ table.rows := by
  simp only [upsertAll]
  induction upsertData generalizing table with
  | nil => simp
  | cons entry rest ih =>
      have accepted : table.Accepts entry.1 entry.2.parentUuid := first.1
      rw [List.foldl_cons, ih ((parentsFirst_upsert accepted rest).mpr first.2), List.map_cons,
        List.mem_cons, mem_upsert]
      tauto

/-- A run of upserts leaves every listed object with its parent exactly when the parents come
first. -/
theorem upsertAll_keeps_iff {table : ObjectTable} {upsertData : List (Uuid × ObjectData)}
    (distinct : (upsertData.map Prod.fst).Nodup) :
    (∀ entry ∈ upsertData, entry.1 ∈ (table.upsertAll upsertData).rows ∧
      (table.upsertAll upsertData).parentOf entry.1 = entry.2.parentUuid.toColumn) ↔
      ParentsFirst (· ∈ table.rows) upsertData := by
  constructor
  · intro kept
    induction upsertData generalizing table with
    | nil => trivial
    | cons entry rest ih =>
        simp only [List.map_cons, List.nodup_cons] at distinct
        simp only [upsertAll, List.foldl_cons] at kept
        change ∀ other ∈ entry :: rest,
          other.1 ∈ ((table.upsert entry.1 entry.2.parentUuid).upsertAll rest).rows ∧
          ((table.upsert entry.1 entry.2.parentUuid).upsertAll rest).parentOf other.1 = _ at kept
        have accepted : table.Accepts entry.1 entry.2.parentUuid := by
          by_contra refused
          rcases kept entry List.mem_cons_self with ⟨_, parentEq⟩
          have nonNil : entry.2.parentUuid ≠ Uuid.nil := fun isNil => refused (Or.inl isNil)
          rw [upsert_of_not_accepts refused, parentOf, get?_upsertAll_of_not_mem distinct.1,
            toColumn_of_ne_nil nonNil] at parentEq
          exact refused (Or.inr (Or.inr (parent_mem parentEq)))
        refine ⟨accepted, (parentsFirst_upsert accepted rest).mp (ih distinct.2 ?_)⟩
        intro other otherMem
        exact kept other (List.mem_cons_of_mem _ otherMem)
  · intro first entry listed
    have found := get?_upsertAll distinct first entry.1
    rw [Table.lookup_eq_some_of_mem distinct listed] at found
    exact ⟨Table.mem_of_get? found, by simp [parentOf, found]⟩

end Upserts

end ObjectTable

namespace StreamSqliteDB

theorem objects_runDeletes (remove : List Uuid) (db : StreamSqliteDB) :
    (runDeletes remove db).objects = db.objects.deleteAll remove := by
  simp only [runDeletes, ObjectTable.deleteAll]
  induction remove generalizing db with
  | nil => rfl
  | cons uuid rest ih =>
      rw [List.foldl_cons, List.foldl_cons, ih]
      rfl

theorem objects_runUpserts (upsertData : List (Uuid × ObjectData)) (db : StreamSqliteDB) :
    (runUpserts upsertData db).objects = db.objects.upsertAll upsertData := by
  simp only [runUpserts, ObjectTable.upsertAll]
  induction upsertData generalizing db with
  | nil => rfl
  | cons entry rest ih =>
      rw [List.foldl_cons, List.foldl_cons, ih]
      rfl

theorem mem_runBoxes {dirtyData : List (Uuid × AABB)} {db : StreamSqliteDB} {uuid : Uuid} :
    uuid ∈ (runBoxes dirtyData db).objects.rows ↔ uuid ∈ db.objects.rows := by
  simp only [runBoxes]
  induction dirtyData generalizing db with
  | nil => rfl
  | cons entry rest ih =>
      rw [List.foldl_cons, ih]
      exact ObjectTable.mem_updateColumns

theorem get?_runBoxes_of_not_mem {dirtyData : List (Uuid × AABB)} {db : StreamSqliteDB}
    {uuid : Uuid} (unlisted : uuid ∉ dirtyData.map Prod.fst) :
    (runBoxes dirtyData db).objects.rows.get? uuid = db.objects.rows.get? uuid := by
  simp only [runBoxes]
  induction dirtyData generalizing db with
  | nil => rfl
  | cons entry rest ih =>
      simp only [List.map_cons, List.mem_cons, not_or] at unlisted
      rw [List.foldl_cons, ih unlisted.2]
      simp only [setObjectAabb, ObjectTable.setAabb, ObjectTable.get?_updateColumns, unlisted.1,
        if_false]

theorem parentOf_runBoxes (dirtyData : List (Uuid × AABB)) (db : StreamSqliteDB) (uuid : Uuid) :
    (runBoxes dirtyData db).objects.parentOf uuid = db.objects.parentOf uuid := by
  simp only [runBoxes]
  induction dirtyData generalizing db with
  | nil => rfl
  | cons entry rest ih =>
      rw [List.foldl_cons, ih]
      exact ObjectTable.parentOf_updateColumns _ _ _ _ _

end StreamSqliteDB

namespace FlushBatch

variable {batch : FlushBatch} {db : StreamSqliteDB}

/-- The rows that the deletes and upserts of the batch leave. -/
def rowsAfter (batch : FlushBatch) (db : StreamSqliteDB) : ObjectTable :=
  (db.objects.deleteAll batch.remove.keys).upsertAll batch.upsertData

theorem mem_prepare {uuid : Uuid} :
    uuid ∈ (db.prepare batch).objects.rows ↔ uuid ∈ (batch.rowsAfter db).rows := by
  rw [StreamSqliteDB.prepare, StreamSqliteDB.mem_runBoxes, StreamSqliteDB.objects_runUpserts,
    StreamSqliteDB.objects_runDeletes]
  rfl

theorem parentOf_prepare (uuid : Uuid) :
    (db.prepare batch).objects.parentOf uuid = (batch.rowsAfter db).parentOf uuid := by
  rw [StreamSqliteDB.prepare, StreamSqliteDB.parentOf_runBoxes, StreamSqliteDB.objects_runUpserts,
    StreamSqliteDB.objects_runDeletes]
  rfl

/-- The parent that the batch means an object to have: the captured one, else that of a row which
the deletes spare. -/
def parentAfter (batch : FlushBatch) (db : StreamSqliteDB) (uuid : Uuid) : Option Uuid :=
  match batch.upsertData.lookup uuid with
  | some data => data.parentUuid.toColumn
  | none => (db.objects.deleteAll batch.remove.keys).parentOf uuid

/-- No object is its own ancestor along the parents that the batch means. -/
def Acyclic (batch : FlushBatch) (db : StreamSqliteDB) : Prop :=
  ∀ uuid, ¬ Relation.TransGen
    (fun parent child => batch.parentAfter db child = some parent) uuid uuid

/-- Every parent in the batch is nil, a row that the deletes spare, or comes earlier. -/
def ParentsFirst (batch : FlushBatch) (db : StreamSqliteDB) : Prop :=
  ObjectTable.ParentsFirst
    (fun parent => parent ∈ db.objects.rows ∧ db.objects.Spares batch.remove.keys parent)
    batch.upsertData

instance (batch : FlushBatch) (db : StreamSqliteDB) : Decidable (batch.ParentsFirst db) :=
  inferInstanceAs (Decidable (ObjectTable.ParentsFirst _ _))

theorem parentsFirst_iff :
    batch.ParentsFirst db ↔ ObjectTable.ParentsFirst
      (· ∈ (db.objects.deleteAll batch.remove.keys).rows) batch.upsertData :=
  ObjectTable.parentsFirst_congr (fun _ => ObjectTable.mem_deleteAll.symm) _

theorem parentOf_rowsAfter (distinct : (batch.upsertData.map Prod.fst).Nodup)
    (first : batch.ParentsFirst db) (uuid : Uuid) :
    (batch.rowsAfter db).parentOf uuid = batch.parentAfter db uuid := by
  rw [rowsAfter, ObjectTable.parentOf,
    ObjectTable.get?_upsertAll distinct (parentsFirst_iff.mp first), parentAfter]
  cases batch.upsertData.lookup uuid with
  | none => rfl
  | some data => simp

theorem acyclic_prepare_iff (distinct : (batch.upsertData.map Prod.fst).Nodup)
    (first : batch.ParentsFirst db) :
    (db.prepare batch).objects.Acyclic ↔ batch.Acyclic db := by
  have edges : (db.prepare batch).objects.IsChild =
      fun parent child => batch.parentAfter db child = some parent := by
    funext parent child
    rw [ObjectTable.IsChild, parentOf_prepare, parentOf_rowsAfter distinct first]
  simp only [ObjectTable.Acyclic, ObjectTable.Ancestor, Acyclic, edges]

end FlushBatch

section Persistence

variable {batch : FlushBatch} {db : StreamSqliteDB}

/-- The task ends with every object of the batch in a row with the captured parent exactly when
the storage order puts the parents first. -/
theorem flushTask_persists_iff (distinct : (batch.upsertData.map Prod.fst).Nodup)
    (acyclic : batch.Acyclic db) :
    (∃ state, flushTask batch db = some state ∧
      ∀ entry ∈ batch.upsertData, entry.1 ∈ state.db.objects.rows ∧
        state.db.objects.parentOf entry.1 = entry.2.parentUuid.toColumn) ↔
    batch.ParentsFirst db := by
  have rowsIff {state : FlushState} (ended : flushTask batch db = some state)
      (entry : Uuid × ObjectData) :
      entry.1 ∈ state.db.objects.rows ∧
          state.db.objects.parentOf entry.1 = entry.2.parentUuid.toColumn ↔
        entry.1 ∈ (batch.rowsAfter db).rows ∧
          (batch.rowsAfter db).parentOf entry.1 = entry.2.parentUuid.toColumn := by
    have keeps := flushTask_keepsRows ended
    rw [keeps.present, keeps.parents, FlushBatch.mem_prepare, FlushBatch.parentOf_prepare]
  rw [FlushBatch.parentsFirst_iff, ← ObjectTable.upsertAll_keeps_iff distinct]
  constructor
  · rintro ⟨state, ended, persisted⟩ entry listed
    exact (rowsIff ended entry).mp (persisted entry listed)
  · intro persisted
    have first := FlushBatch.parentsFirst_iff.mpr
      ((ObjectTable.upsertAll_keeps_iff distinct).mp persisted)
    rcases exists_flushTask_of_acyclic
      ((FlushBatch.acyclic_prepare_iff distinct first).mpr acyclic) with ⟨state, ended⟩
    exact ⟨state, ended, fun entry listed => (rowsIff ended entry).mpr (persisted entry listed)⟩

/-- A new parent before its new child. -/
def parentThenChild : FlushBatch :=
  { upsertData := [(1, {}), (2, { parentUuid := 1 })], remove := ∅, dirtyData := ∅ }

theorem flushTask_persists_parentThenChild :
    ∃ state, flushTask parentThenChild .create = some state ∧
      ∀ entry ∈ parentThenChild.upsertData, entry.1 ∈ state.db.objects.rows ∧
        state.db.objects.parentOf entry.1 = entry.2.parentUuid.toColumn := by
  have distinct : (parentThenChild.upsertData.map Prod.fst).Nodup := by decide +kernel
  have first : parentThenChild.ParentsFirst .create := by decide +kernel
  have acyclic : parentThenChild.Acyclic .create :=
    (FlushBatch.acyclic_prepare_iff distinct first).mp (by decide +kernel)
  exact (flushTask_persists_iff distinct acyclic).mpr first

/-- The same batch in the other storage order. -/
def childThenParent : FlushBatch :=
  { parentThenChild with upsertData := [(2, { parentUuid := 1 }), (1, {})] }

theorem flushTask_drops_childThenParent :
    childThenParent.upsertData.Perm parentThenChild.upsertData ∧
    (StreamSqliteDB.create.prepare parentThenChild).objects.Acyclic ∧
    ∃ state ∈ flushTask childThenParent .create,
      2 ∉ state.db.objects.rows ∧ 1 ∈ state.db.objects.rows := by
  decide +kernel

end Persistence

end GodotStream
