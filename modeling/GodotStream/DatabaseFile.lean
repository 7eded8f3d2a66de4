import GodotStream.StreamSqliteDB
import GodotStream.Lib.Transaction

/-!
# The file of a database

The constructor of `StreamSqliteDB` looks for the table `db_info` and creates the
schema where it finds none, in one transaction; the row with the version is written
after it. `SQLiteDB::exec` swallows every failure, so the statements that follow a
failing one are run all the same, `COMMIT` included.

A session is one opening of the file with the outcomes of its statements and the
flushes that follow. A crash, or a file that could not be opened, is a session in which
nothing succeeds from some position on. Connections to one file follow each other.
-/

namespace GodotStream

open Storage

/-- The tables, triggers and indices of a database. -/
inductive SchemaObject where
  | dbInfo
  | chunkRtree
  | chunkMetadata
  | afterDeleteChunkMetadata
  | objectUuid
  | afterInsertChunkMetadata
  | idxObjectChunk
  | idxObjectParent
deriving DecidableEq

namespace SchemaObject

/-- The table that a trigger or an index is created on. -/
def onTable : SchemaObject → Option SchemaObject
  | afterDeleteChunkMetadata => some chunkMetadata
  | afterInsertChunkMetadata => some chunkMetadata
  | idxObjectChunk => some objectUuid
  | idxObjectParent => some objectUuid
  | _ => none

/-- The schema in the order of `clear_and_create_table`. -/
def schema : List SchemaObject :=
  [dbInfo, chunkRtree, chunkMetadata, afterDeleteChunkMetadata, objectUuid,
    afterInsertChunkMetadata, idxObjectChunk, idxObjectParent]

theorem mem_schema (object : SchemaObject) : object ∈ schema := by
  cases object <;> decide

end SchemaObject

/-- `sqlite_master` and the rows of `db_info`. -/
structure DatabaseFile where
  master : List SchemaObject
  info : Table String String

namespace DatabaseFile

def empty : DatabaseFile :=
  ⟨[], ∅⟩

def Complete (file : DatabaseFile) : Prop :=
  ∀ object, object ∈ file.master

/-- The schema names nothing twice, and its triggers and indices have their tables. -/
structure WellFormed (file : DatabaseFile) : Prop where
  distinct : file.master.Nodup
  tables : ∀ object ∈ file.master, ∀ table ∈ object.onTable, table ∈ file.master

theorem wellFormed_empty : empty.WellFormed :=
  ⟨List.nodup_nil, fun _ mem => absurd mem List.not_mem_nil⟩

end DatabaseFile

/-- The setting of a connection is whether it enforces foreign keys. -/
abbrev Statement :=
  Command DatabaseFile Bool

namespace Statement

/-- `CREATE`, which refuses what exists already and what has no table to stand on. -/
def create (object : SchemaObject) : Statement :=
  .write fun file =>
    if object ∉ file.master ∧ ∀ table ∈ object.onTable, table ∈ file.master then
      some { file with master := file.master ++ [object] }
    else none

/-- `clear_and_create_table`, which clears nothing. -/
def clearAndCreateTable : List Statement :=
  .begin :: SchemaObject.schema.map create ++ [.commit]

/-- `update_info`. -/
def updateInfo (version : String) : Statement :=
  .write fun file =>
    if SchemaObject.dbInfo ∈ file.master then
      some { file with info := file.info.insert "version" version }
    else none

/-- `PRAGMA foreign_keys = ON`. -/
def foreignKeysOn : Statement :=
  .configure fun _ => true

/-- What the constructor runs once it has looked for `db_info`. -/
def afterCheck (found : Bool) : List Statement :=
  if found then [foreignKeysOn] else clearAndCreateTable ++ [updateInfo "1", foreignKeysOn]

/-- The flush tasks; their statements on rows are those of `FlushFailure.lean`. -/
def flushes (count : ℕ) : List Statement :=
  (List.replicate count [.begin, .commit]).flatten

/-- The position of the `COMMIT` of `clear_and_create_table`; `db_info` is looked for at `0`. -/
def commitPosition : ℕ :=
  SchemaObject.schema.length + 2

end Statement

/-- One opening of a file. -/
structure FileSession where
  outcome : ℕ → Outcome
  flushes : ℕ

namespace FileSession

/-- `is_database`: a look that fails finds nothing. -/
def isDatabase (session : FileSession) (file : DatabaseFile) : Bool :=
  session.outcome 0 = .succeeds && SchemaObject.dbInfo ∈ file.master

/-- The connection after the opening and the flushes. -/
def connection (session : FileSession) (file : DatabaseFile) : Connection DatabaseFile Bool :=
  Connection.execAll session.outcome 1
    (Statement.afterCheck (session.isDatabase file) ++ Statement.flushes session.flushes)
    ⟨file, none, false⟩

/-- The file once the connection is closed. -/
def run (session : FileSession) (file : DatabaseFile) : DatabaseFile :=
  (session.connection file).committed

/-- The file after one session after another. -/
def runAll (sessions : List FileSession) (file : DatabaseFile) : DatabaseFile :=
  sessions.foldl (fun file session => session.run file) file

end FileSession
namespace Statement

variable {condition : DatabaseFile → Prop} {count : ℕ} {statement : Statement}

theorem mem_flushes (mem : statement ∈ flushes count) :
    statement = .begin ∨ statement = .commit := by
  rcases List.mem_flatten.mp mem with ⟨flush, isFlush, mem⟩
  rw [List.eq_of_mem_replicate isFlush] at mem
  simpa using mem

/-- Without writes every condition is kept. -/
theorem keeps_idle (condition : DatabaseFile → Prop)
    (mem : statement ∈ foreignKeysOn :: flushes count) : statement.Keeps condition := by
  rcases List.mem_cons.mp mem with rfl | mem
  · trivial
  · rcases mem_flushes mem with rfl | rfl <;> trivial

theorem keeps_opening (creates : ∀ object, (create object).Keeps condition)
    (info : (updateInfo "1").Keeps condition) {found : Bool}
    (mem : statement ∈ afterCheck found ++ flushes count) : statement.Keeps condition := by
  cases found with
  | true => exact keeps_idle condition mem
  | false =>
      simp only [afterCheck, clearAndCreateTable, Bool.false_eq_true, if_false, List.mem_append,
        List.mem_cons, List.mem_map, List.not_mem_nil, or_false] at mem
      rcases mem with ((((rfl | ⟨object, _, rfl⟩) | rfl) | rfl | rfl) | mem)
      · trivial
      · exact creates object
      · trivial
      · exact info
      · trivial
      · exact keeps_idle condition (List.mem_cons_of_mem _ mem)

theorem create_keeps_wellFormed (object : SchemaObject) :
    (create object).Keeps DatabaseFile.WellFormed := by
  intro before after written wellFormed
  rcases Option.ite_none_right_eq_some.mp written with ⟨⟨new, tables⟩, written⟩
  cases written
  constructor
  · change (before.master ++ [object]).Nodup
    rw [← List.concat_eq_append]
    exact wellFormed.distinct.concat new
  · intro other mem table isTable
    rcases List.mem_append.mp mem with mem | mem
    · exact List.mem_append_left _ (wellFormed.tables other mem table isTable)
    · rw [List.mem_singleton.mp mem] at isTable
      exact List.mem_append_left _ (tables table isTable)

theorem updateInfo_keeps {version : String}
    (ignores : ∀ before after : DatabaseFile, before.master = after.master →
      condition before → condition after) : (updateInfo version).Keeps condition := by
  intro before after written kept
  rcases Option.ite_none_right_eq_some.mp written with ⟨_, written⟩
  cases written
  exact ignores before _ rfl kept

end Statement

namespace FileSession

variable {session : FileSession} {file : DatabaseFile}

/-- What every statement keeps holds of the connection after a session. -/
theorem holds_connection {condition : DatabaseFile → Prop}
    (creates : ∀ object, (Statement.create object).Keeps condition)
    (info : (Statement.updateInfo "1").Keeps condition) (initially : condition file) :
    (session.connection file).Holds condition :=
  Connection.Holds.execAll (Connection.Holds.closed initially)
    fun _ mem => Statement.keeps_opening creates info mem

theorem wellFormed_runAll {sessions : List FileSession} (wellFormed : file.WellFormed) :
    (runAll sessions file).WellFormed := by
  induction sessions generalizing file with
  | nil => exact wellFormed
  | cons session rest ih =>
      refine ih (holds_connection Statement.create_keeps_wellFormed ?_ wellFormed).committed
      refine Statement.updateInfo_keeps fun before after same kept => ?_
      exact ⟨same ▸ kept.distinct, same ▸ kept.tables⟩

/-- Where `db_info` is found, the session leaves the file as it is. -/
theorem run_of_isDatabase (found : session.isDatabase file = true) :
    session.run file = file := by
  have holds : (session.connection file).Holds (· = file) := by
    rw [connection, found]
    exact Connection.Holds.execAll (Connection.Holds.closed rfl)
      fun _ mem => Statement.keeps_idle _ mem
  exact holds.committed

theorem isDatabase_iff : session.isDatabase file = true ↔
    session.outcome 0 = .succeeds ∧ SchemaObject.dbInfo ∈ file.master := by
  simp [isDatabase]

/-- A session whose check goes through, on a file with `db_info`. -/
theorem runAll_of_dbInfo {sessions : List FileSession}
    (checks : ∀ session ∈ sessions, session.outcome 0 = .succeeds)
    (present : SchemaObject.dbInfo ∈ file.master) : runAll sessions file = file := by
  induction sessions with
  | nil => rfl
  | cons session rest ih =>
      have found : session.isDatabase file = true :=
        isDatabase_iff.mpr ⟨checks session List.mem_cons_self, present⟩
      rw [runAll, List.foldl_cons, run_of_isDatabase found]
      exact ih fun later mem => checks later (List.mem_cons_of_mem _ mem)

end FileSession

end GodotStream
