import GodotStream.Events
import GodotStream.Lib.Script

/-!
# Failing statements in a flush

The flush task as a script of statements. `SQLiteDB::exec` and `Stmt::step` report a
failure to nobody, so the task goes on after a failing statement, and `COMMIT` is
issued in any case. The script under no failures is the task of `FlushTask.lean`.

The task starts outside of a transaction. When `BEGIN` fails every statement commits by
itself and `COMMIT` has nothing to do; when only `COMMIT` fails the transaction stays
open and nothing reaches the database.
-/

namespace GodotStream

open Storage

namespace StreamSqliteDB

/-- `remove_object` -/
def removeScript (uuid : Uuid) : Script StreamSqliteDB :=
  .statement (fun _ => true) (fun db => { db with objects := db.objects.delete uuid }) fun _ =>
    .compute (fun db => { db with aabbCache := (db.aabbCache.remove uuid).1 }) fun _ => .done

/-- `upsert_object_uuids`; the foreign key can refuse it. -/
def upsertScript (entry : Uuid × ObjectData) : Script StreamSqliteDB :=
  .statement (fun db => decide (db.objects.Accepts entry.1 entry.2.parentUuid))
    (fun db => db.upsertObjectUuids entry.1 entry.2) fun _ => .done

/-- `set_object_aabb`; the box is cached in any case. -/
def boxScript (entry : Uuid × AABB) : Script StreamSqliteDB :=
  .statement (fun _ => true)
    (fun db => { db with objects := db.objects.setAabb entry.1 (bindAabb entry.2) }) fun _ =>
      .compute (fun db => { db with aabbCache := (db.aabbCache.put entry.1 entry.2).1 })
        fun _ => .done

/-- Cache the id of a chunk. -/
def cacheChunk (chunk : Chunk) (id : ℤ) (db : StreamSqliteDB) : StreamSqliteDB :=
  { db with chunkCache := (db.chunkCache.put chunk id).1 }

/-- `query_chunk`; an insert that fails returns no row, and `-1` is cached for the chunk. -/
def queryChunkScript (chunk : Chunk) (next : ℤ → Script StreamSqliteDB) : Script StreamSqliteDB :=
  .compute (fun db => { db with chunkCache := (db.chunkCache.tryGet chunk).2 }) fun db =>
    match (db.chunkCache.tryGet chunk).1 with
    | some id => next id
    | none =>
        match db.chunks.find chunk with
        | some id => .compute (cacheChunk chunk id) fun _ => next id
        | none =>
            .statement (fun _ => true)
              (fun db => { db with chunks := (db.chunks.insert chunk).2 }) fun succeeded =>
                let id := if succeeded then (db.chunks.insert chunk).1.getD (-1) else -1
                .compute (cacheChunk chunk id) fun _ => next id

/-- `set_object_chunk`; the foreign key refuses an id without a chunk row when there is a row to
update. -/
def setChunkScript (uuid : Uuid) (chunkId : ℤ) : Script StreamSqliteDB :=
  .statement (fun db => decide (uuid ∈ db.objects.rows → chunkId ∈ db.chunks.chunkMetadata))
    (fun db => db.setObjectChunk uuid chunkId) fun _ => .done

def writeChunkScript (uuid : Uuid) (box : AABB) : Script StreamSqliteDB :=
  queryChunkScript (Chunk.computeChunk box) (setChunkScript uuid)

/-- The update of one ancestor. -/
def visitScript (parent : Uuid) : Script StreamSqliteDB :=
  .compute (fun db => (db.getObjectAabb parent).2) fun db =>
    writeChunkScript parent
      ((db.getObjectAabb parent).2.aggregate (db.getObjectAabb parent).1 parent)

/-- The loop along the parent chain. -/
def walkScript : ℕ → Uuid → Script StreamSqliteDB
  | 0, _ => .unfinished
  | fuel + 1, parent =>
      if parent = Uuid.nil then .done
      else .compute id fun db =>
        (visitScript parent).andThen (walkScript fuel (db.queryObject parent).parentUuid)

def refreshScript (fuel : ℕ) (entry : Uuid × AABB) : Script StreamSqliteDB :=
  .compute id fun db =>
    (writeChunkScript entry.1 (db.aggregate entry.2 entry.1)).andThen
      (.compute id fun db => walkScript fuel (db.queryObject entry.1).parentUuid)

/-- The statements of the task between `BEGIN` and `COMMIT`. -/
def flushScript (fuel : ℕ) (batch : FlushBatch) : Script StreamSqliteDB :=
  (Script.forEach removeScript batch.remove.keys).andThen <|
    (Script.forEach upsertScript batch.upsertData).andThen <|
      (Script.forEach boxScript batch.dirtyData.entries).andThen <|
        Script.forEach (refreshScript fuel) batch.dirtyData.entries

section Success

variable {position : ℕ} {db : StreamSqliteDB}

/-- Without failures the script ends as a function of the state says. -/
def Computes (script : Script StreamSqliteDB)
    (result : StreamSqliteDB → Option StreamSqliteDB) : Prop :=
  ∀ position db, (script.run (fun _ => false) position db).map Prod.fst = result db

theorem Computes.andThen {first second : Script StreamSqliteDB}
    {firstResult secondResult : StreamSqliteDB → Option StreamSqliteDB}
    (computes : Computes first firstResult) (computesSecond : Computes second secondResult) :
    Computes (first.andThen second) fun db => (firstResult db).bind secondResult := by
  intro position db
  change _ = (firstResult db).bind secondResult
  rw [Script.run_andThen, ← computes position db]
  cases first.run (fun _ => false) position db with
  | none => rfl
  | some middle => exact computesSecond middle.2 middle.1

theorem Computes.forEach {ι : Type*} {body : ι → Script StreamSqliteDB}
    {result : StreamSqliteDB → ι → StreamSqliteDB}
    (computes : ∀ element, Computes (body element) fun db => some (result db element))
    (elements : List ι) :
    Computes (Script.forEach body elements) fun db => some (elements.foldl result db) := by
  induction elements with
  | nil => exact fun _ _ => rfl
  | cons first rest ih => exact (computes first).andThen ih

theorem computes_removeScript (uuid : Uuid) :
    Computes (removeScript uuid) fun db => some (db.removeObject uuid) :=
  fun _ _ => rfl

theorem computes_upsertScript (entry : Uuid × ObjectData) :
    Computes (upsertScript entry) fun db => some (db.upsertObjectUuids entry.1 entry.2) := by
  intro position db
  simp only [upsertScript, Script.run, Bool.not_false, Bool.and_true, decide_eq_true_eq]
  split
  · rfl
  case isFalse refused =>
    simp [upsertObjectUuids, ObjectTable.upsert_of_not_accepts refused]

theorem computes_boxScript (entry : Uuid × AABB) :
    Computes (boxScript entry) fun db => some (db.setObjectAabb entry.1 entry.2) :=
  fun _ _ => rfl

theorem setObjectChunk_of_refused {uuid : Uuid} {chunkId : ℤ}
    (refused : ¬ (uuid ∈ db.objects.rows → chunkId ∈ db.chunks.chunkMetadata)) :
    db.setObjectChunk uuid chunkId = db := by
  rw [setObjectChunk, if_neg]
  exact fun present => refused fun _ => present

theorem computes_setChunkScript (uuid : Uuid) (chunkId : ℤ) :
    Computes (setChunkScript uuid chunkId) fun db => some (db.setObjectChunk uuid chunkId) := by
  intro position db
  simp only [setChunkScript, Script.run, Bool.not_false, Bool.and_true, decide_eq_true_eq]
  split
  · rfl
  case isFalse refused => rw [setObjectChunk_of_refused refused]; rfl

theorem computes_queryChunkScript {chunk : Chunk} {next : ℤ → Script StreamSqliteDB}
    {result : ℤ → StreamSqliteDB → Option StreamSqliteDB}
    (computes : ∀ id, Computes (next id) (result id)) :
    Computes (queryChunkScript chunk next) fun db =>
      result (db.queryChunk chunk).1 (db.queryChunk chunk).2 := by
  intro position db
  simp only [queryChunkScript, Script.run, queryChunk]
  rcases db.chunkCache.tryGet chunk with ⟨found, cache⟩
  cases found with
  | some id => exact computes id position _
  | none =>
      cases db.chunks.find chunk with
      | some id => exact computes id position _
      | none => exact computes _ (position + 1) _

theorem computes_writeChunkScript (uuid : Uuid) (box : AABB) (boxes : Table Uuid AABB) :
    Computes (writeChunkScript uuid box) fun db =>
      some (FlushState.writeChunk { db, boxes } uuid box).db :=
  computes_queryChunkScript fun id => computes_setChunkScript uuid id

theorem computes_visitScript (parent : Uuid) (boxes : Table Uuid AABB) :
    Computes (visitScript parent) fun db => some (FlushState.visit { db, boxes } parent).db := by
  intro position db
  exact computes_writeChunkScript parent _ boxes position _

theorem computes_walkScript (fuel : ℕ) (parent : Uuid) (boxes : Table Uuid AABB) :
    Computes (walkScript fuel parent) fun db =>
      (FlushState.walkParents fuel parent { db, boxes }).map FlushState.db := by
  induction fuel generalizing parent boxes with
  | zero => exact fun _ _ => rfl
  | succ fuel ih =>
      intro position db
      simp only [walkScript, FlushState.walkParents]
      split
      · rfl
      · have rest := (computes_visitScript parent boxes).andThen
          (ih (db.queryObject parent).parentUuid (FlushState.visit { db, boxes } parent).boxes)
        exact rest position db

theorem computes_refreshScript (fuel : ℕ) (entry : Uuid × AABB) (boxes : Table Uuid AABB) :
    Computes (refreshScript fuel entry) fun db =>
      (FlushState.refresh fuel { db, boxes } entry).map FlushState.db := by
  intro position db
  let written := FlushState.writeChunk { db, boxes } entry.1 (db.aggregate entry.2 entry.1)
  have walk : Computes (.compute id fun db => walkScript fuel (db.queryObject entry.1).parentUuid)
      fun db => (FlushState.walkParents fuel (db.queryObject entry.1).parentUuid
        { db, boxes := written.boxes }).map FlushState.db :=
    fun position db => computes_walkScript fuel _ written.boxes position db
  exact (computes_writeChunkScript entry.1 _ boxes).andThen walk position db

theorem computes_refreshAll (fuel : ℕ) (entries : List (Uuid × AABB)) (boxes : Table Uuid AABB) :
    Computes (Script.forEach (refreshScript fuel) entries) fun db =>
      (FlushState.refreshAll fuel entries { db, boxes }).map FlushState.db := by
  induction entries generalizing boxes with
  | nil => exact fun _ _ => rfl
  | cons entry rest ih =>
      intro position db
      simp only [Script.forEach, FlushState.refreshAll, Script.run_andThen]
      have first : ((refreshScript fuel entry).run (fun _ => false) position db).map Prod.fst =
          (FlushState.refresh fuel { db, boxes } entry).map FlushState.db :=
        computes_refreshScript fuel entry boxes position db
      cases refreshed : FlushState.refresh fuel { db, boxes } entry with
      | none =>
          rw [refreshed, Option.map_none, Option.map_eq_none_iff] at first
          rw [first]
          rfl
      | some state =>
          rw [refreshed, Option.map_some, Option.map_eq_some_iff] at first
          rcases first with ⟨middle, ran, middleEq⟩
          rw [ran, Option.bind_some, middleEq]
          exact ih state.boxes middle.2 state.db

/-- Without failures the script is the flush task. -/
theorem computes_flushScript (batch : FlushBatch) (position : ℕ) (db : StreamSqliteDB) :
    ((flushScript ((db.prepare batch).objects.rows.entries.length + 1) batch).run
        (fun _ => false) position db).map Prod.fst =
      (flushTask batch db).map FlushState.db := by
  have prepared := (Computes.forEach computes_removeScript batch.remove.keys).andThen <|
    (Computes.forEach computes_upsertScript batch.upsertData).andThen <|
      (Computes.forEach computes_boxScript batch.dirtyData.entries).andThen <|
        computes_refreshAll ((db.prepare batch).objects.rows.entries.length + 1)
          batch.dirtyData.entries ∅
  exact prepared position db

end Success

theorem extends_walkScript {fuel more : ℕ} (enough : fuel ≤ more) (parent : Uuid) :
    Script.Extends (walkScript fuel parent) (walkScript more parent) := by
  induction fuel generalizing more parent with
  | zero => exact .unfinished _
  | succ fuel ih =>
      obtain ⟨rest, rfl⟩ := Nat.exists_eq_add_of_le' (Nat.one_le_of_lt enough)
      simp only [walkScript]
      split
      · exact .done
      · refine .compute id fun db => (Script.Extends.refl _).andThen ?_
        exact ih (Nat.le_of_succ_le_succ enough) _

theorem extends_flushScript {fuel more : ℕ} (enough : fuel ≤ more) (batch : FlushBatch) :
    Script.Extends (flushScript fuel batch) (flushScript more batch) := by
  refine (Script.Extends.refl _).andThen ?_
  refine (Script.Extends.refl _).andThen ?_
  refine (Script.Extends.refl _).andThen ?_
  apply Script.Extends.forEach
  intro entry
  refine .compute id fun db => (Script.Extends.refl _).andThen (.compute id fun db => ?_)
  exact extends_walkScript enough _

/-- The content of the database: the rows of `object_uuid` and of `chunk_metadata`, which
determines the R-tree. -/
def contents (db : StreamSqliteDB) : (Uuid → Option ObjectRow) × (ℤ → Option Chunk) :=
  (db.objects.rows.get?, db.chunks.chunkMetadata.get?)

theorem delete_eq_self {table : ObjectTable} {uuid : Uuid}
    (unchanged : (table.delete uuid).rows.get? = table.rows.get?) : table.delete uuid = table := by
  have kept : ∀ other ∈ table.rows, decide (other ∉ table.cascade uuid) = true := by
    intro other present
    rcases Table.mem_iff_get?.mp present with ⟨row, found⟩
    have stays := congrFun unchanged other
    rw [ObjectTable.delete, Table.get?_filterKeys, found] at stays
    by_contra dropped
    rw [if_neg dropped] at stays
    simp at stays
  cases table
  simp only [ObjectTable.delete, ObjectTable.mk.injEq]
  exact Table.filterKeys_eq_self kept

theorem upsert_eq_self {table : ObjectTable} {uuid parentUuid : Uuid}
    (unchanged : (table.upsert uuid parentUuid).rows.get? = table.rows.get?) :
    table.upsert uuid parentUuid = table := by
  by_cases accepted : table.Accepts uuid parentUuid
  · have own := congrFun unchanged uuid
    rw [ObjectTable.get?_upsert accepted, if_pos rfl] at own
    simp only [ObjectTable.upsert, accepted, dif_pos]
    cases table
    exact ObjectTable.mk.injEq .. ▸ Table.insert_eq_self own.symm
  · exact ObjectTable.upsert_of_not_accepts accepted

theorem updateColumns_eq_self {table : ObjectTable} {uuid : Uuid}
    {chunkId : Option ℤ → Option ℤ} {aabb : Option BoxColumns → Option BoxColumns}
    (unchanged : (table.updateColumns uuid chunkId aabb).rows.get? = table.rows.get?) :
    table.updateColumns uuid chunkId aabb = table := by
  have own := congrFun unchanged uuid
  rw [ObjectTable.get?_updateColumns, if_pos rfl] at own
  simp only [ObjectTable.updateColumns]
  split
  · rfl
  case h_2 row found =>
    rw [found, Option.map_some] at own
    cases table
    exact ObjectTable.mk.injEq .. ▸ Table.insert_eq_self (found.trans own.symm)

/-- A new chunk can be seen. -/
theorem insert_changes {chunks : ChunkIndex} {chunk : Chunk} (missing : chunks.find chunk = none) :
    (chunks.insert chunk).2.chunkMetadata.get? ≠ chunks.chunkMetadata.get? := by
  intro unchanged
  have fresh := congrFun unchanged chunks.nextId
  rw [(ChunkIndex.insert_of_find_none missing).2, Table.get?_insert_self,
    Table.get?_eq_none.mpr chunks.nextId_fresh] at fresh
  simp at fresh

section Plain

variable {db : StreamSqliteDB}

theorem plain_removeScript (uuid : Uuid) (db : StreamSqliteDB) :
    (removeScript uuid).Plain contents db := by
  refine ⟨fun _ unchanged => ⟨?_, rfl⟩, fun _ => ⟨rfl, trivial⟩, rfl, trivial⟩
  simp only [delete_eq_self (congrArg Prod.fst unchanged)]

theorem plain_upsertScript (entry : Uuid × ObjectData) (db : StreamSqliteDB) :
    (upsertScript entry).Plain contents db := by
  refine ⟨fun _ unchanged => ⟨?_, rfl⟩, fun _ => trivial, trivial⟩
  simp only [upsertObjectUuids, upsert_eq_self (congrArg Prod.fst unchanged)]

theorem plain_boxScript (entry : Uuid × AABB) (db : StreamSqliteDB) :
    (boxScript entry).Plain contents db := by
  refine ⟨fun _ unchanged => ⟨?_, rfl⟩, fun _ => ⟨rfl, trivial⟩, rfl, trivial⟩
  simp only [ObjectTable.setAabb, updateColumns_eq_self (congrArg Prod.fst unchanged)]

theorem plain_setChunkScript (uuid : Uuid) (chunkId : ℤ) (db : StreamSqliteDB) :
    (setChunkScript uuid chunkId).Plain contents db := by
  refine ⟨fun _ unchanged => ⟨?_, rfl⟩, fun _ => trivial, trivial⟩
  simp only [setObjectChunk] at unchanged ⊢
  split at unchanged
  case isTrue present =>
    rw [if_pos present, ObjectTable.setChunk,
      updateColumns_eq_self (congrArg Prod.fst unchanged)]
  case isFalse missing => rw [if_neg missing]

theorem plain_queryChunkScript (chunk : Chunk) {next : ℤ → Script StreamSqliteDB}
    (plain : ∀ id db, (next id).Plain contents db) (db : StreamSqliteDB) :
    (queryChunkScript chunk next).Plain contents db := by
  refine ⟨rfl, ?_⟩
  beta_reduce
  rcases db.chunkCache.tryGet chunk with ⟨cached, cache⟩
  cases cached with
  | some id => exact plain id _
  | none =>
      simp only
      cases found : db.chunks.find chunk with
      | some id => exact ⟨rfl, plain id _⟩
      | none =>
          refine ⟨fun _ unchanged => ?_, fun _ => ⟨rfl, plain _ _⟩, rfl, plain _ _⟩
          exact absurd (congrArg Prod.snd unchanged) (insert_changes found)

theorem plain_writeChunkScript (uuid : Uuid) (box : AABB) (db : StreamSqliteDB) :
    (writeChunkScript uuid box).Plain contents db :=
  plain_queryChunkScript _ (plain_setChunkScript uuid) db

theorem plain_visitScript (parent : Uuid) (db : StreamSqliteDB) :
    (visitScript parent).Plain contents db := by
  refine ⟨?_, plain_writeChunkScript parent _ _⟩
  simp only [contents, objects_getObjectAabb, chunks_getObjectAabb]

theorem plain_walkScript (fuel : ℕ) (parent : Uuid) (db : StreamSqliteDB) :
    (walkScript fuel parent).Plain contents db := by
  induction fuel generalizing parent db with
  | zero => trivial
  | succ fuel ih =>
      simp only [walkScript]
      split
      · trivial
      · exact ⟨rfl, (plain_visitScript parent db).andThen (ih _)⟩

theorem plain_refreshScript (fuel : ℕ) (entry : Uuid × AABB) (db : StreamSqliteDB) :
    (refreshScript fuel entry).Plain contents db := by
  refine ⟨rfl, (plain_writeChunkScript entry.1 _ _).andThen ?_⟩
  exact fun db => ⟨rfl, plain_walkScript fuel _ db⟩

theorem plain_flushScript (fuel : ℕ) (batch : FlushBatch) (db : StreamSqliteDB) :
    (flushScript fuel batch).Plain contents db := by
  refine (Script.Plain.forEach plain_removeScript _ db).andThen fun db => ?_
  refine (Script.Plain.forEach plain_upsertScript _ db).andThen fun db => ?_
  refine (Script.Plain.forEach plain_boxScript _ db).andThen fun db => ?_
  exact Script.Plain.forEach (plain_refreshScript fuel) _ db

end Plain

end StreamSqliteDB

/-- Which statements of a task fail; those of the script are counted from 0. -/
structure Failures where
  beginFails : Bool
  fails : ℕ → Bool
  commitFails : Bool

/-- The content of the database after the task. -/
def Failures.finish (failures : Failures) (script : Script StreamSqliteDB) (db : StreamSqliteDB) :
    Option ((Uuid → Option ObjectRow) × (ℤ → Option Chunk)) :=
  (script.run failures.fails 0 db).map fun finished =>
    if !failures.beginFails && failures.commitFails then db.contents else finished.1.contents

namespace FlushBatch

/-- The task ends under the failures and leaves this content. -/
def Leaves (batch : FlushBatch) (failures : Failures) (db : StreamSqliteDB)
    (after : (Uuid → Option ObjectRow) × (ℤ → Option Chunk)) : Prop :=
  ∃ fuel, failures.finish (StreamSqliteDB.flushScript fuel batch) db = some after

/-- Every statement succeeds, and this is the database with all their effects. -/
def Completes (batch : FlushBatch) (db whole : StreamSqliteDB) : Prop :=
  ∃ fuel, (StreamSqliteDB.flushScript fuel batch).succeed db = some whole

theorem Leaves.unique {batch : FlushBatch} {failures : Failures} {db : StreamSqliteDB}
    {after other : (Uuid → Option ObjectRow) × (ℤ → Option Chunk)}
    (leaves : batch.Leaves failures db after) (leavesOther : batch.Leaves failures db other) :
    after = other := by
  rcases leaves with ⟨fuel, finished⟩
  rcases leavesOther with ⟨fuelOther, finishedOther⟩
  rcases Option.map_eq_some_iff.mp finished with ⟨final, ended, rfl⟩
  rcases Option.map_eq_some_iff.mp finishedOther with ⟨finalOther, endedOther, rfl⟩
  have long := Script.run_of_extends
    (StreamSqliteDB.extends_flushScript (Nat.le_max_left fuel fuelOther) batch) ended
  have longOther := Script.run_of_extends
    (StreamSqliteDB.extends_flushScript (Nat.le_max_right fuel fuelOther) batch) endedOther
  rw [long, Option.some.injEq] at longOther
  rw [longOther]

/-- Every statement is accepted and leaves the content as it is. -/
def Idle (batch : FlushBatch) (db : StreamSqliteDB) : Prop :=
  ∃ fuel, (StreamSqliteDB.flushScript fuel batch).Idle StreamSqliteDB.contents db

/-- Every statement is accepted, those that fail would have left the content as it is, and so would
the whole batch if its transaction is not committed. -/
def Spared (batch : FlushBatch) (failures : Failures) (db : StreamSqliteDB) : Prop :=
  (∃ fuel, (StreamSqliteDB.flushScript fuel batch).Harmless StreamSqliteDB.contents
    failures.fails 0 db) ∧
  (failures.commitFails = true → failures.beginFails = true ∨ batch.Idle db)

variable {batch : FlushBatch} {db : StreamSqliteDB}

theorem Completes.unique {whole other : StreamSqliteDB} (completes : batch.Completes db whole)
    (completesOther : batch.Completes db other) : whole = other := by
  rcases completes with ⟨fuel, succeeded⟩
  rcases completesOther with ⟨fuelOther, succeededOther⟩
  have long := Script.succeed_of_extends
    (StreamSqliteDB.extends_flushScript (Nat.le_max_left fuel fuelOther) batch) succeeded
  have longOther := Script.succeed_of_extends
    (StreamSqliteDB.extends_flushScript (Nat.le_max_right fuel fuelOther) batch) succeededOther
  exact Option.some.inj (long.symm.trans longOther)

theorem Completes.contents_of_idle {whole : StreamSqliteDB} (completes : batch.Completes db whole)
    (idle : batch.Idle db) : whole.contents = db.contents := by
  rcases idle with ⟨fuel, idle⟩
  have plain := StreamSqliteDB.plain_flushScript fuel batch db
  have harmless := Script.Harmless.of_idle idle (fun _ => false) 0
  rcases plain.run_of_harmless harmless with ⟨other, _, _, succeeded⟩
  rw [completes.unique ⟨fuel, succeeded⟩]
  exact idle.visible_succeed plain succeeded

/-- Failures that spare the batch leave all its effects. -/
theorem Spared.leaves_whole {failures : Failures} (spared : batch.Spared failures db) :
    ∃ whole, batch.Completes db whole ∧ batch.Leaves failures db whole.contents := by
  rcases spared with ⟨⟨fuel, harmless⟩, committed⟩
  rcases (StreamSqliteDB.plain_flushScript fuel batch db).run_of_harmless harmless with
    ⟨whole, stop, ended, succeeded⟩
  refine ⟨whole, ⟨fuel, succeeded⟩, fuel, ?_⟩
  simp only [Failures.finish, ended, Option.map_some, Option.some.injEq]
  split
  case isFalse => rfl
  case isTrue lost =>
    simp only [Bool.and_eq_true, Bool.not_eq_true'] at lost
    rcases committed lost.2 with began | idle
    · simp [lost.1] at began
    · exact (Completes.contents_of_idle ⟨fuel, succeeded⟩ idle).symm

theorem Idle.spared (idle : batch.Idle db) (failures : Failures) : batch.Spared failures db := by
  refine ⟨?_, fun _ => Or.inr idle⟩
  rcases idle with ⟨fuel, idle⟩
  exact ⟨fuel, Script.Harmless.of_idle idle failures.fails 0⟩

/-- If all effects are there wherever the task is cut off, the batch has none. -/
theorem idle_of_always_whole
    (always : ∀ failures, ∃ whole, batch.Completes db whole ∧
      batch.Leaves failures db whole.contents) : batch.Idle db := by
  rcases always ⟨false, fun _ => false, false⟩ with ⟨whole, ⟨fuel, succeeded⟩, _⟩
  refine ⟨fuel, Script.idle_of_cuts succeeded ?_⟩
  intro cut _
  rcases always ⟨false, fun index => decide (cut ≤ index), false⟩ with
    ⟨other, completes, more, finished⟩
  rcases Option.map_eq_some_iff.mp finished with ⟨final, ended, contentsEq⟩
  refine ⟨StreamSqliteDB.flushScript (max fuel more) batch, final, ?_, ?_, ?_, ?_⟩
  · exact StreamSqliteDB.extends_flushScript (Nat.le_max_left fuel more) batch
  · exact StreamSqliteDB.plain_flushScript _ batch db
  · exact Script.run_of_extends
      (StreamSqliteDB.extends_flushScript (Nat.le_max_right fuel more) batch) ended
  · rw [Completes.unique ⟨fuel, succeeded⟩ completes]
    exact contentsEq

end FlushBatch

namespace World

variable {world : World}

/-- The operations of the batch wait for another flush. -/
def StillPending (world : World) (batch : FlushBatch) : Prop :=
  (∀ entry ∈ batch.upsertData, entry.1 ∈ world.manager.toUpsertUuids) ∧
  (∀ uuid ∈ batch.remove, uuid ∈ world.manager.toRemove) ∧
  (∀ uuid ∈ batch.dirtyData, uuid ∈ world.manager.dirtyAabb)

/-- The task that a flush pushes ends, and either nothing has happened and its batch is still
pending, or all effects of the batch are there. -/
def AllOrNothing (world : World) (db : StreamSqliteDB) (failures : Failures) : Prop :=
  ∃ after, world.captureBatch.Leaves failures db after ∧
    ((after = db.contents ∧ world.flushPendingDbOps.StillPending world.captureBatch) ∨
      ∃ whole, world.captureBatch.Completes db whole ∧ after = whole.contents)

/-- A flush that pushes a task has cleared what it pushes. -/
theorem not_stillPending {worker : AsyncDbWorker} (running : world.dbWorker = some worker)
    (pushed : world.flushPendingDbOps.dbWorker =
      some (worker.pushTask (.flush world.captureBatch))) :
    ¬ world.flushPendingDbOps.StillPending world.captureBatch := by
  have longer : worker.pushTask (.flush world.captureBatch) ≠ worker := by
    intro same
    have lengths := congrArg (List.length ∘ AsyncDbWorker.taskQueue) same
    simp [AsyncDbWorker.pushTask] at lengths
  simp only [flushPendingDbOps, running] at pushed ⊢
  split at pushed
  · rw [running, Option.some.injEq] at pushed
    exact absurd pushed.symm longer
  case isFalse someOps =>
    rw [if_neg someOps]
    split at pushed
    · exact absurd (Option.some.inj pushed).symm longer
    case isFalse someData =>
      rw [if_neg someData]
      rintro ⟨upserts, removes, dirty⟩
      apply someData
      simp only [Bool.and_eq_true, List.isEmpty_iff]
      refine ⟨⟨?_, ?_⟩, ?_⟩
      · apply List.eq_nil_iff_forall_not_mem.mpr
        exact fun entry listed => Table.not_mem_empty _ (upserts entry listed)
      · apply List.eq_nil_iff_forall_not_mem.mpr
        exact fun entry listed => Table.not_mem_empty _ (removes _ (Table.mem_of_entry listed))
      · apply List.eq_nil_iff_forall_not_mem.mpr
        exact fun entry listed => Table.not_mem_empty _ (dirty _ (Table.mem_of_entry listed))

/-- A flush is all or nothing under failures that spare its batch; it is so under all failures
exactly when its batch is idle. -/
theorem flush_allOrNothing_iff {worker : AsyncDbWorker} (running : world.dbWorker = some worker)
    (pushed : world.flushPendingDbOps.dbWorker =
      some (worker.pushTask (.flush world.captureBatch))) (db : StreamSqliteDB) :
    (∀ failures, world.captureBatch.Spared failures db → world.AllOrNothing db failures) ∧
    ((∀ failures, world.AllOrNothing db failures) ↔ world.captureBatch.Idle db) := by
  have enough : ∀ failures, world.captureBatch.Spared failures db →
      world.AllOrNothing db failures := by
    intro failures spared
    rcases spared.leaves_whole with ⟨whole, completes, leaves⟩
    exact ⟨whole.contents, leaves, Or.inr ⟨whole, completes, rfl⟩⟩
  refine ⟨enough, ?_, fun idle failures => enough failures (idle.spared failures)⟩
  intro always
  apply FlushBatch.idle_of_always_whole
  intro failures
  rcases always failures with ⟨after, leaves, ⟨_, pending⟩ | ⟨whole, completes, rfl⟩⟩
  · exact absurd pending (not_stillPending running pushed)
  · exact ⟨whole, completes, leaves⟩

/-- Two new objects wait for a flush. -/
def twoPending : World :=
  Run.runAll step [.create Uuid.nil Uuid.nil unitBox, .enter 1,
    .create Uuid.nil Uuid.nil unitBox, .enter 2] blank

/-- Without a transaction all effects are there when no other statement fails. -/
theorem flush_allOrNothing_twoPending :
    twoPending.AllOrNothing .create ⟨true, fun _ => false, true⟩ := by
  rcases Option.isSome_iff_exists.mp
    (show (twoPending.dbWorker).isSome by decide +kernel) with ⟨worker, running⟩
  have pushed : twoPending.flushPendingDbOps.dbWorker =
      some (worker.pushTask (.flush twoPending.captureBatch)) := by
    have someOps : (twoPending.manager.toUpsertUuids.entries.isEmpty &&
        twoPending.manager.toRemove.entries.isEmpty &&
        twoPending.manager.dirtyAabb.entries.isEmpty) = false := by
      decide +kernel
    have someData : (twoPending.captureBatch.upsertData.isEmpty &&
        twoPending.captureBatch.remove.entries.isEmpty &&
        twoPending.captureBatch.dirtyData.entries.isEmpty) = false := by
      decide +kernel
    simp [flushPendingDbOps, running, someOps, someData, pushTask]
  rcases Option.isSome_iff_exists.mp
    (show ((StreamSqliteDB.flushScript 2 twoPending.captureBatch).succeed .create).isSome by
      decide +kernel) with ⟨whole, succeeded⟩
  apply (flush_allOrNothing_iff running pushed .create).1
  refine ⟨⟨2, Script.Harmless.of_succeed succeeded fun _ _ => rfl⟩, ?_⟩
  exact fun _ => Or.inl rfl

/-- The upsert of the first object fails and that of the second one does not. -/
theorem flush_torn :
    Run.Reaches step (fun _ _ => True) blank twoPending ∧
    ¬ twoPending.AllOrNothing .create ⟨false, fun index => index == 0, false⟩ := by
  refine ⟨Run.reaches_runAll (by simp [Run.Allowed]) (by decide +kernel), ?_⟩
  have torn : (Failures.finish ⟨false, fun index => index == 0, false⟩
      (StreamSqliteDB.flushScript 2 twoPending.captureBatch) .create).map
        (fun after => ((after.1 101).isSome, (after.1 102).isSome)) = some (false, true) := by
    decide +kernel
  have completed : ((StreamSqliteDB.flushScript 2 twoPending.captureBatch).succeed .create).map
      (fun whole => (whole.objects.rows.get? 101).isSome) = some true := by
    decide +kernel
  have cleared : 101 ∉ twoPending.flushPendingDbOps.manager.toUpsertUuids ∧
      101 ∈ twoPending.captureBatch.upsertData.map Prod.fst := by
    decide +kernel
  rcases Option.map_eq_some_iff.mp torn with ⟨partly, finished, rows⟩
  rcases Option.map_eq_some_iff.mp completed with ⟨full, succeeded, present⟩
  simp only [Prod.mk.injEq] at rows
  rintro ⟨after, leaves, ⟨_, pending⟩ | ⟨whole, completes, afterEq⟩⟩
  · rcases List.mem_map.mp cleared.2 with ⟨entry, listed, entryEq⟩
    exact cleared.1 (entryEq ▸ pending.1 entry listed)
  · rw [leaves.unique ⟨2, finished⟩, completes.unique ⟨2, succeeded⟩] at afterEq
    have absent := rows.1
    rw [afterEq] at absent
    exact Bool.noConfusion (absent.symm.trans present)

end World

end GodotStream
