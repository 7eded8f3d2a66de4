import GodotStream.DatabaseFile

/-!
# The schema over all openings

Sessions that are cut off leave all of the schema or nothing of it; the version row can
be lost between the two. When single statements fail, an opening can leave any part of
the schema that is closed under the tables of its triggers and indices, and a part with
`db_info` is never completed, because later openings look for this table only.

The last section follows the setting for foreign keys, which a transaction that was
left open keeps from taking effect.
-/

namespace GodotStream

open Storage

namespace Statement

section Creates

variable {outcome : ℕ → Outcome} {position : ℕ} {objects : List SchemaObject}
  {connection : Connection DatabaseFile Bool}

theorem exists_write_of_mem_creates {statement : Statement}
    (mem : statement ∈ objects.map create) : ∃ effect, statement = .write effect := by
  rcases List.mem_map.mp mem with ⟨object, _, rfl⟩
  exact ⟨_, rfl⟩

theorem onTable_ne_self (object : SchemaObject) : object.onTable ≠ some object := by
  cases object <;> decide

/-- A table precedes what is created on it. -/
theorem schema_ordered :
    SchemaObject.schema.Pairwise fun earlier later => earlier.onTable ≠ some later := by
  decide +kernel

theorem mem_master_create {first object : SchemaObject}
    (tables : ∀ table ∈ first.onTable, table ∈ connection.content.master) :
    object ∈ (connection.exec .succeeds (create first)).content.master ↔
      object ∈ connection.content.master ∨ object = first := by
  rw [create, Connection.content_exec_write]
  by_cases present : first ∈ connection.content.master
  · rw [if_neg fun accepted => accepted.1 present, Option.getD_none]
    refine ⟨Or.inl, fun either => ?_⟩
    rcases either with mem | rfl
    · exact mem
    · exact present
  · rw [if_pos ⟨present, tables⟩, Option.getD_some, List.mem_append, List.mem_singleton]

section Kept

variable {keep : SchemaObject → Prop} {first other : SchemaObject}

theorem mem_cons_and_of_kept (kept : keep first) :
    (other ∈ first :: objects ∧ keep other) ↔ other = first ∨ (other ∈ objects ∧ keep other) := by
  rw [List.mem_cons, or_and_right]
  refine or_congr_left ⟨And.left, ?_⟩
  rintro rfl
  exact ⟨rfl, kept⟩

theorem mem_cons_and_of_not_kept (dropped : ¬ keep first) :
    (other ∈ first :: objects ∧ keep other) ↔ (other ∈ objects ∧ keep other) := by
  refine and_congr_left fun kept => ?_
  rw [List.mem_cons, or_iff_right]
  rintro rfl
  exact dropped kept

end Kept

/-- The objects whose statements succeed come into the schema. -/
theorem mem_master_creates {keep : SchemaObject → Prop} [DecidablePred keep]
    (outcomes : ∀ index object, objects[index]? = some object →
      outcome (position + index) = if keep object then .succeeds else .fails)
    (ordered : objects.Pairwise fun earlier later => earlier.onTable ≠ some later)
    (tables : ∀ object ∈ objects, keep object → ∀ table ∈ object.onTable,
      table ∈ connection.content.master ∨ (table ∈ objects ∧ keep table)) (object : SchemaObject) :
    object ∈ (Connection.execAll outcome position (objects.map create) connection).content.master ↔
      object ∈ connection.content.master ∨ (object ∈ objects ∧ keep object) := by
  induction objects generalizing position connection with
  | nil => simp [Connection.execAll]
  | cons first rest ih =>
      rcases List.pairwise_cons.mp ordered with ⟨before, orderedRest⟩
      have outcomesRest : ∀ index object, rest[index]? = some object →
          outcome (position + 1 + index) = if keep object then .succeeds else .fails := by
        intro index object isObject
        have shifted := outcomes (index + 1) object isObject
        rwa [Nat.add_right_comm, Nat.add_assoc]
      have here : outcome position = if keep first then .succeeds else .fails :=
        outcomes 0 first rfl
      rw [List.map_cons, Connection.execAll, here]
      by_cases kept : keep first
      · -- the tables of the first object are not created by a later statement
        have present : ∀ table ∈ first.onTable, table ∈ connection.content.master := by
          intro table isTable
          rcases tables first List.mem_cons_self kept table isTable with mem | ⟨mem, _⟩
          · exact mem
          · rcases List.mem_cons.mp mem with rfl | mem
            · exact absurd isTable (onTable_ne_self _)
            · exact absurd isTable (before table mem)
        rw [if_pos kept, ih outcomesRest orderedRest, mem_master_create present, or_assoc,
          mem_cons_and_of_kept kept]
        intro other mem keptOther table isTable
        rw [mem_master_create present, or_assoc, ← mem_cons_and_of_kept kept]
        exact tables other (List.mem_cons_of_mem _ mem) keptOther table isTable
      · rw [if_neg kept, mem_cons_and_of_not_kept kept]
        apply ih outcomesRest orderedRest
        intro other mem keptOther table isTable
        rw [← mem_cons_and_of_not_kept kept]
        exact tables other (List.mem_cons_of_mem _ mem) keptOther table isTable

end Creates

end Statement

namespace FileSession

open Statement

variable {session : FileSession} {file : DatabaseFile}

/-- What a session runs when it does not find `db_info`. -/
theorem connection_of_not_isDatabase (missing : session.isDatabase file = false) :
    session.connection file =
      Connection.execAll session.outcome (commitPosition + 1)
        (updateInfo "1" :: foreignKeysOn :: Statement.flushes session.flushes)
        (Connection.execAll session.outcome 1 clearAndCreateTable ⟨file, none, false⟩) := by
  rw [connection, missing, afterCheck, if_neg Bool.false_ne_true, List.append_assoc,
    Connection.execAll_append]
  rfl

theorem execAll_clearAndCreateTable (outcome : ℕ → Outcome)
    (connection : Connection DatabaseFile Bool) :
    Connection.execAll outcome 1 clearAndCreateTable connection =
      (Connection.execAll outcome 2 (SchemaObject.schema.map create)
        (connection.exec (outcome 1) .begin)).exec (outcome commitPosition) .commit := by
  rw [clearAndCreateTable, List.cons_append, Connection.execAll, Connection.execAll_append]
  rfl

/-- The `COMMIT` of the schema goes through. -/
def creates (session : FileSession) : Bool :=
  session.outcome commitPosition = .succeeds

/-- The row with the version is written. -/
def writesVersion (session : FileSession) : Bool :=
  session.outcome (commitPosition + 1) = .succeeds

/-- The whole schema, with or without the version. -/
def created (versioned : Bool) : DatabaseFile :=
  ⟨SchemaObject.schema, if versioned then Table.insert ∅ "version" "1" else ∅⟩

theorem run_of_not_creates (falling : Connection.Falling session.outcome)
    (uncommitted : ¬ session.creates = true) : session.run file = file := by
  have dead : ∀ index, commitPosition ≤ index → session.outcome index ≠ .succeeds :=
    fun index after later => uncommitted (decide_eq_true (falling _ index after later))
  cases found : session.isDatabase file with
  | true => exact run_of_isDatabase found
  | false =>
      rw [run, connection_of_not_isDatabase found, Connection.committed_execAll_of_dead
        fun index after => dead index (Nat.le_of_succ_le after)]
      by_cases begun : session.outcome 1 = .succeeds
      · rw [execAll_clearAndCreateTable, begun,
          Connection.committed_exec_of_not_succeeds (dead _ (Nat.le_refl _))]
        exact Connection.committed_execAll_writes falling
          (fun _ mem => exists_write_of_mem_creates mem) rfl
      · exact Connection.committed_execAll_of_dead
          fun index after later => begun (falling 1 index after later)

theorem run_of_creates (falling : Connection.Falling session.outcome)
    (committed : session.creates = true) :
    session.run .empty = created session.writesVersion := by
  have missing : session.isDatabase .empty = false := by
    simp [isDatabase, DatabaseFile.empty]
  have schema : Connection.execAll session.outcome 1 clearAndCreateTable
      ⟨DatabaseFile.empty, none, false⟩ = ⟨created false, none, false⟩ := by
    refine (Connection.execAll_congr fun index small => ?_).trans
      (rfl : Connection.execAll (fun _ => .succeeds) 1 clearAndCreateTable _ = _)
    have length : clearAndCreateTable.length = commitPosition := rfl
    exact falling _ commitPosition (by omega) (of_decide_eq_true committed)
  have version : (Connection.exec (session.outcome (commitPosition + 1))
      ⟨created false, none, false⟩ (updateInfo "1")) =
        ⟨created session.writesVersion, none, false⟩ := by
    rw [writesVersion]
    cases session.outcome (commitPosition + 1) <;> rfl
  have holds : (session.connection .empty).Holds (· = created session.writesVersion) := by
    rw [connection_of_not_isDatabase missing, schema, Connection.execAll, version]
    exact Connection.Holds.execAll (Connection.Holds.closed rfl)
      fun _ mem => Statement.keeps_idle _ mem
  exact holds.committed

/-- A session that is cut off leaves a file with `db_info` as it is, also if its check fails. -/
theorem run_of_dbInfo (falling : Connection.Falling session.outcome)
    (present : SchemaObject.dbInfo ∈ file.master) : session.run file = file := by
  by_cases checked : session.outcome 0 = .succeeds
  · exact run_of_isDatabase (isDatabase_iff.mpr ⟨checked, present⟩)
  · apply run_of_not_creates falling
    exact fun committed => checked (falling 0 _ (Nat.zero_le _) (of_decide_eq_true committed))

theorem runAll_of_created {sessions : List FileSession}
    (cutOff : ∀ session ∈ sessions, Connection.Falling session.outcome)
    (present : SchemaObject.dbInfo ∈ file.master) : runAll sessions file = file := by
  induction sessions with
  | nil => rfl
  | cons session rest ih =>
      rw [runAll, List.foldl_cons, run_of_dbInfo (cutOff session List.mem_cons_self) present]
      exact ih fun later mem => cutOff later (List.mem_cons_of_mem _ mem)

/-- Over sessions that are cut off anywhere, the file stays empty until the first one whose
`COMMIT` goes through, which decides about the version for good. -/
theorem schema_all_or_nothing (sessions : List FileSession)
    (cutOff : ∀ session ∈ sessions, Connection.Falling session.outcome) :
    runAll sessions .empty =
      ((sessions.find? creates).map fun session => created session.writesVersion).getD .empty := by
  induction sessions with
  | nil => rfl
  | cons session rest ih =>
      have cutOffRest : ∀ later ∈ rest, Connection.Falling later.outcome :=
        fun later mem => cutOff later (List.mem_cons_of_mem _ mem)
      rw [runAll, List.foldl_cons]
      by_cases committed : session.creates = true
      · rw [run_of_creates (cutOff session List.mem_cons_self) committed,
          List.find?_cons_of_pos committed]
        exact runAll_of_created cutOffRest (SchemaObject.mem_schema _)
      · rw [run_of_not_creates (cutOff session List.mem_cons_self) committed,
          List.find?_cons_of_neg committed]
        exact ih cutOffRest

/-- A session in which nothing succeeds from a position on. -/
def cutAt (position : ℕ) : FileSession :=
  ⟨fun index => if index < position then .succeeds else .fails, 1⟩

theorem falling_cutAt (position : ℕ) : Connection.Falling (cutAt position).outcome := by
  intro earlier later before succeeded
  simp only [cutAt, ite_eq_left_iff, reduceCtorEq, imp_false, not_not] at succeeded ⊢
  omega

/-- The version is lost when the second of three sessions ends right after its `COMMIT`. -/
theorem schema_all_or_nothing_cut :
    runAll [cutAt 7, cutAt 11, cutAt 20] .empty = created false := by
  refine (schema_all_or_nothing _ ?_).trans rfl
  simp only [List.mem_cons, List.not_mem_nil, or_false, forall_eq_or_imp, forall_eq]
  exact ⟨falling_cutAt 7, falling_cutAt 11, falling_cutAt 20⟩

/-- A session in which only the statements of some objects fail. -/
def selecting (keep : SchemaObject → Prop) [DecidablePred keep] : FileSession where
  outcome position :=
    if position < 2 then .succeeds
    else (SchemaObject.schema[position - 2]?).elim .succeeds fun object =>
      if keep object then .succeeds else .fails
  flushes := 0

section Selecting

variable {keep : SchemaObject → Prop} [DecidablePred keep]

theorem outcome_selecting {index : ℕ} {object : SchemaObject}
    (isObject : SchemaObject.schema[index]? = some object) :
    (selecting keep).outcome (2 + index) = if keep object then .succeeds else .fails := by
  simp only [selecting]
  rw [if_neg (by omega), Nat.add_sub_cancel_left, isObject, Option.elim_some]

/-- On a file without `db_info`, such a session adds what it selects. -/
theorem mem_master_run_selecting (absent : SchemaObject.dbInfo ∉ file.master)
    (tables : ∀ object, keep object → ∀ table ∈ object.onTable,
      table ∈ file.master ∨ keep table) (object : SchemaObject) :
    object ∈ ((selecting keep).run file).master ↔ object ∈ file.master ∨ keep object := by
  have missing : (selecting keep).isDatabase file = false := by
    rw [Bool.eq_false_iff]
    exact fun found => absent (isDatabase_iff.mp found).2
  let written : Connection DatabaseFile Bool := Connection.execAll (selecting keep).outcome 2
    (SchemaObject.schema.map create) ⟨file, some file, false⟩
  have selected : object ∈ written.content.master ↔ object ∈ file.master ∨ keep object := by
    refine (mem_master_creates (fun _ _ => outcome_selecting) schema_ordered ?_ object).trans
      (or_congr_right (and_iff_right (SchemaObject.mem_schema object)))
    intro other _ kept table isTable
    exact (tables other kept table isTable).imp_right fun keptTable =>
      ⟨SchemaObject.mem_schema _, keptTable⟩
  have isOpen : written.working.isSome = true := by
    refine (Connection.isSome_execAll_writes fun _ mem =>
      exists_write_of_mem_creates mem).mpr ⟨rfl, fun index small => ?_⟩
    rw [List.length_map] at small
    rw [outcome_selecting (List.getElem?_eq_getElem small)]
    split <;> decide
  have holds : ((selecting keep).connection file).Holds (·.master = written.content.master) := by
    rw [connection_of_not_isDatabase missing, execAll_clearAndCreateTable]
    change Connection.Holds _ (Connection.execAll _ _ _ (written.exec .succeeds .commit))
    rw [Connection.exec_commit isOpen]
    refine Connection.Holds.execAll (Connection.Holds.closed rfl) fun statement mem => ?_
    rcases List.mem_cons.mp mem with rfl | mem
    · exact updateInfo_keeps fun before after same kept => same ▸ kept
    · exact keeps_idle _ mem
  rw [run, holds.committed, selected]

end Selecting

/-- What openings of an empty file can leave of the schema: any part in which every trigger and
every index has its table. -/
theorem exists_openings_iff (part : SchemaObject → Prop) :
    (∃ sessions, ∀ object, object ∈ (runAll sessions .empty).master ↔ part object) ↔
      ∀ object, part object → ∀ table ∈ object.onTable, part table := by
  classical
  constructor
  · rintro ⟨sessions, leaves⟩ object inPart table isTable
    rw [← leaves] at inPart ⊢
    exact (wellFormed_runAll DatabaseFile.wellFormed_empty).tables object inPart table isTable
  · intro closed
    refine ⟨[selecting part], fun object => ?_⟩
    refine (mem_master_run_selecting List.not_mem_nil ?_ object).trans
      (or_iff_right List.not_mem_nil)
    exact fun other inPart table isTable => Or.inr (closed other inPart table isTable)

/-- Openings whose checks go through can complete a file unless it has `db_info` and lacks
something else. -/
theorem completable_iff (file : DatabaseFile) :
    (∃ sessions, (∀ session ∈ sessions, session.outcome 0 = .succeeds) ∧
        (runAll sessions file).Complete) ↔
      (SchemaObject.dbInfo ∈ file.master → file.Complete) := by
  constructor
  · rintro ⟨sessions, checks, complete⟩ present
    rwa [runAll_of_dbInfo checks present] at complete
  · intro unlessPresent
    by_cases present : SchemaObject.dbInfo ∈ file.master
    · exact ⟨[], fun _ mem => absurd mem List.not_mem_nil, unlessPresent present⟩
    · refine ⟨[selecting fun _ => True], ?_, fun object => ?_⟩
      · rintro session mem
        rw [List.mem_singleton.mp mem]
        rfl
      · exact (mem_master_run_selecting present (fun _ _ _ _ => Or.inr trivial) object).mpr
          (Or.inr trivial)

/-- The transaction that creates the schema stays open when its `COMMIT` fails. -/
def LeavesOpen (session : FileSession) : Prop :=
  session.outcome 1 = .succeeds ∧ session.outcome commitPosition = .fails ∧
    ∀ position, 2 ≤ position → position ≤ commitPosition + 1 →
      session.outcome position ≠ .rollsBack

/-- The connection before the pragma of a session that creates the schema. -/
theorem isSome_beforePragma (session : FileSession) :
    ((Connection.execAll session.outcome 1 clearAndCreateTable ⟨file, none, false⟩).exec
        (session.outcome (commitPosition + 1)) (updateInfo "1")).working.isSome = true ↔
      session.LeavesOpen := by
  rw [updateInfo, Connection.isSome_exec_write, execAll_clearAndCreateTable,
    Connection.isSome_exec_commit, Connection.isSome_execAll_writes fun _ mem =>
      exists_write_of_mem_creates mem, Connection.isSome_exec_begin rfl, List.length_map]
  have length : SchemaObject.schema.length = commitPosition - 2 := rfl
  have bound : commitPosition = 10 := rfl
  constructor
  · rintro ⟨⟨⟨begun, creates⟩, failed⟩, version⟩
    refine ⟨begun, failed, fun position after before => ?_⟩
    rcases Nat.lt_or_ge position commitPosition with small | large
    · have created := creates (position - 2) (by omega)
      rwa [Nat.add_sub_cancel' after] at created
    · rcases Nat.eq_or_lt_of_le large with rfl | larger
      · rw [failed]
        decide
      · obtain rfl : position = commitPosition + 1 := Nat.le_antisymm before larger
        exact version
  · rintro ⟨begun, failed, never⟩
    exact ⟨⟨⟨begun, fun index small => never _ (by omega) (by omega)⟩, failed⟩,
      never _ (by omega) (Nat.le_refl _)⟩

/-- The connection of a session enforces foreign keys exactly when its pragma is reached outside of
a transaction, and no flush changes that. -/
theorem enforcesForeignKeys_iff (session : FileSession) (file : DatabaseFile) :
    (session.connection file).setting = true ↔
      if session.isDatabase file = true then session.outcome 1 = .succeeds
      else session.outcome (commitPosition + 2) = .succeeds ∧ ¬ session.LeavesOpen := by
  have flushes : ∀ statement ∈ Statement.flushes session.flushes,
      statement.configures = false := by
    intro statement mem
    rcases mem_flushes mem with rfl | rfl <;> rfl
  cases found : session.isDatabase file with
  | true =>
      rw [connection, found, afterCheck, if_pos rfl, List.singleton_append, Connection.execAll,
        Connection.setting_execAll flushes, foreignKeysOn, Connection.setting_exec_configure]
      simp
  | false =>
      rw [connection_of_not_isDatabase found, Connection.execAll, Connection.execAll,
        Connection.setting_execAll flushes, foreignKeysOn, Connection.setting_exec_configure]
      have before : ((Connection.execAll session.outcome 1 clearAndCreateTable
          ⟨file, none, false⟩).exec (session.outcome (commitPosition + 1))
            (updateInfo "1")).setting = false := by
        rw [Connection.setting_exec _ rfl]
        apply Connection.setting_execAll
        intro statement mem
        simp only [clearAndCreateTable, List.mem_append, List.mem_cons, List.mem_map,
          List.not_mem_nil, or_false] at mem
        rcases mem with (rfl | ⟨object, _, rfl⟩) | rfl <;> rfl
      simp only [before, Bool.false_eq_true, if_false, Bool.if_false_right, Bool.and_true,
        decide_eq_true_eq]
      exact and_congr_right fun _ => not_congr (isSome_beforePragma session)

end FileSession

end GodotStream
