import Mathlib.Data.List.Basic
import Mathlib.Data.Nat.Notation

/-!
# Connections with transactions

A connection to stored content. Outside of a transaction a write commits at once;
`begin` puts the writes aside until `commit`, and closing the connection drops what
was put aside. A command that fails has no effect, and some failures also roll the
transaction back. Nobody is told: the commands that follow are run all the same.

The outcome of each command is given by its position. Commands that the content does
not accept have no effect whatever their outcome.
-/

namespace Storage

universe u v

/-- What becomes of a command. -/
inductive Outcome where
  | succeeds
  | fails
  | rollsBack
deriving DecidableEq

/-- Committed content, the content within the open transaction, and a setting. -/
structure Connection (γ : Type u) (σ : Type v) where
  committed : γ
  working : Option γ
  setting : σ
deriving DecidableEq

/-- A write may refuse the content it finds; a setting is changed outside of transactions only. -/
inductive Command (γ : Type u) (σ : Type v) where
  | begin
  | commit
  | write (effect : γ → Option γ)
  | configure (change : σ → σ)

namespace Connection

variable {γ : Type u} {σ : Type v}

/-- What commands on this connection see. -/
def content (connection : Connection γ σ) : γ :=
  connection.working.getD connection.committed

/-- A command that succeeds; `none` when it is not accepted. -/
def perform (connection : Connection γ σ) : Command γ σ → Option (Connection γ σ)
  | .begin =>
      if connection.working.isSome then none
      else some { connection with working := some connection.committed }
  | .commit =>
      connection.working.map fun content =>
        { connection with committed := content, working := none }
  | .write effect =>
      (effect connection.content).map fun content =>
        if connection.working.isSome then { connection with working := some content }
        else { connection with committed := content }
  | .configure change =>
      if connection.working.isSome then none
      else some { connection with setting := change connection.setting }

def exec (outcome : Outcome) (connection : Connection γ σ) (command : Command γ σ) :
    Connection γ σ :=
  match outcome with
  | .succeeds => (connection.perform command).getD connection
  | .fails => connection
  | .rollsBack => { connection with working := none }

/-- Run commands from a position on. -/
def execAll (outcome : ℕ → Outcome) :
    ℕ → List (Command γ σ) → Connection γ σ → Connection γ σ
  | _, [], connection => connection
  | position, command :: rest, connection =>
      execAll outcome (position + 1) rest (connection.exec (outcome position) command)

/-- What is committed and what is put aside satisfy a condition. -/
structure Holds (condition : γ → Prop) (connection : Connection γ σ) : Prop where
  committed : condition connection.committed
  working : ∀ content, connection.working = some content → condition content

/-- Once a command does not succeed, none does. -/
def Falling (outcome : ℕ → Outcome) : Prop :=
  ∀ earlier later, earlier ≤ later → outcome later = .succeeds → outcome earlier = .succeeds

end Connection

/-- The command changes the setting. -/
def Command.configures {γ : Type u} {σ : Type v} : Command γ σ → Bool
  | .configure _ => true
  | _ => false

/-- The writes of a command keep a condition on the content. -/
def Command.Keeps {γ : Type u} {σ : Type v} (condition : γ → Prop) : Command γ σ → Prop
  | .write effect => ∀ before after, effect before = some after → condition before → condition after
  | _ => True

namespace Connection

variable {γ : Type u} {σ : Type v} {outcome : ℕ → Outcome} {position : ℕ}
  {commands : List (Command γ σ)} {connection : Connection γ σ}

theorem execAll_append (first second : List (Command γ σ)) :
    execAll outcome position (first ++ second) connection =
      execAll outcome (position + first.length) second
        (execAll outcome position first connection) := by
  induction first generalizing position connection with
  | nil => rfl
  | cons command rest ih =>
      simp only [List.cons_append, execAll, List.length_cons]
      rw [ih, Nat.add_right_comm, Nat.add_assoc]

/-- Only the outcomes at the positions of the commands matter. -/
theorem execAll_congr {other : ℕ → Outcome}
    (same : ∀ index < commands.length, outcome (position + index) = other (position + index)) :
    execAll outcome position commands connection = execAll other position commands connection := by
  induction commands generalizing position connection with
  | nil => rfl
  | cons command rest ih =>
      simp only [execAll]
      rw [show outcome position = other position from same 0 (Nat.succ_pos _)]
      apply ih
      intro index small
      have shifted := same (index + 1) (Nat.succ_lt_succ small)
      rwa [Nat.add_right_comm, Nat.add_assoc]

theorem content_exec_write (effect : γ → Option γ) :
    (connection.exec .succeeds (.write effect)).content =
      (effect connection.content).getD connection.content := by
  rcases connection with ⟨committed, working, setting⟩
  simp only [exec, perform]
  cases effect (content ⟨committed, working, setting⟩) with
  | none => rfl
  | some written => cases working <;> rfl

theorem exec_commit (isOpen : connection.working.isSome = true) :
    connection.exec .succeeds .commit = ⟨connection.content, none, connection.setting⟩ := by
  rcases connection with ⟨committed, working, setting⟩
  cases working with
  | none => exact absurd isOpen Bool.false_ne_true
  | some aside => rfl

section Conditions

variable {condition : γ → Prop}

theorem Holds.closed {content : γ} {setting : σ} (initially : condition content) :
    Holds condition ⟨content, none, setting⟩ :=
  ⟨initially, fun _ aside => absurd aside (Option.some_ne_none _).symm⟩

theorem Holds.content (holds : Holds condition connection) : condition connection.content := by
  rcases connection with ⟨committed, working, setting⟩
  cases working with
  | none => exact holds.committed
  | some aside => exact holds.working aside rfl

theorem Holds.perform {command : Command γ σ} {after : Connection γ σ}
    (holds : Holds condition connection) (keeps : command.Keeps condition)
    (performed : connection.perform command = some after) : Holds condition after := by
  cases command with
  | begin =>
      simp only [Connection.perform, Option.ite_none_left_eq_some] at performed
      rcases performed with ⟨_, performed⟩
      cases performed
      exact ⟨holds.committed, fun content aside => Option.some.inj aside ▸ holds.committed⟩
  | commit =>
      rcases Option.map_eq_some_iff.mp performed with ⟨content, aside, rfl⟩
      exact Holds.closed (holds.working content aside)
  | write effect =>
      rcases Option.map_eq_some_iff.mp performed with ⟨content, written, rfl⟩
      have kept := keeps _ _ written holds.content
      split
      · exact ⟨holds.committed, fun _ aside => Option.some.inj aside ▸ kept⟩
      · exact ⟨kept, holds.working⟩
  | configure change =>
      simp only [Connection.perform, Option.ite_none_left_eq_some] at performed
      rcases performed with ⟨_, performed⟩
      cases performed
      exact ⟨holds.committed, holds.working⟩

theorem Holds.exec {command : Command γ σ} (holds : Holds condition connection)
    (keeps : command.Keeps condition) (result : Outcome) :
    Holds condition (connection.exec result command) := by
  cases result with
  | succeeds =>
      simp only [Connection.exec]
      cases performed : connection.perform command with
      | none => exact holds
      | some after => exact holds.perform keeps performed
  | fails => exact holds
  | rollsBack => exact Holds.closed holds.committed

/-- A condition that every write keeps holds after any run of the commands. -/
theorem Holds.execAll (holds : Holds condition connection)
    (keeps : ∀ command ∈ commands, command.Keeps condition) :
    Holds condition (execAll outcome position commands connection) := by
  induction commands generalizing position connection with
  | nil => exact holds
  | cons command rest ih =>
      exact ih (holds.exec (keeps command List.mem_cons_self) _)
        fun later mem => keeps later (List.mem_cons_of_mem _ mem)

end Conditions

theorem setting_perform {command : Command γ σ} {after : Connection γ σ}
    (performed : connection.perform command = some after)
    (other : command.configures = false) : after.setting = connection.setting := by
  cases command with
  | begin =>
      simp only [perform, Option.ite_none_left_eq_some] at performed
      rw [← Option.some.inj performed.2]
  | commit =>
      rcases Option.map_eq_some_iff.mp performed with ⟨content, _, rfl⟩
      rfl
  | write effect =>
      rcases Option.map_eq_some_iff.mp performed with ⟨content, _, rfl⟩
      split <;> rfl
  | configure change => exact Bool.noConfusion other

theorem setting_exec {command : Command γ σ} (result : Outcome)
    (other : command.configures = false) :
    (connection.exec result command).setting = connection.setting := by
  cases result with
  | succeeds =>
      simp only [exec]
      cases performed : connection.perform command with
      | none => rfl
      | some after => exact setting_perform performed other
  | fails => rfl
  | rollsBack => rfl

theorem setting_execAll (other : ∀ command ∈ commands, command.configures = false) :
    (execAll outcome position commands connection).setting = connection.setting := by
  induction commands generalizing position connection with
  | nil => rfl
  | cons command rest ih =>
      rw [execAll, ih fun later mem => other later (List.mem_cons_of_mem _ mem)]
      exact setting_exec _ (other command List.mem_cons_self)

theorem committed_exec_of_not_succeeds {command : Command γ σ} {result : Outcome}
    (unsuccessful : result ≠ .succeeds) :
    (connection.exec result command).committed = connection.committed := by
  cases result with
  | succeeds => exact absurd rfl unsuccessful
  | fails => rfl
  | rollsBack => rfl

/-- Where nothing succeeds any more nothing is committed any more. -/
theorem committed_execAll_of_dead
    (dead : ∀ index, position ≤ index → outcome index ≠ .succeeds) :
    (execAll outcome position commands connection).committed = connection.committed := by
  induction commands generalizing position connection with
  | nil => rfl
  | cons command rest ih =>
      rw [execAll, ih fun index after => dead index (Nat.le_of_succ_le after)]
      exact committed_exec_of_not_succeeds (dead position (Nat.le_refl _))

/-- The writes within a transaction commit nothing, also when they are cut off. -/
theorem committed_execAll_writes (falling : Falling outcome)
    (isWrite : ∀ command ∈ commands, ∃ effect, command = .write effect)
    (isOpen : connection.working.isSome = true) :
    (execAll outcome position commands connection).committed = connection.committed := by
  induction commands generalizing position connection with
  | nil => rfl
  | cons command rest ih =>
      by_cases succeeded : outcome position = .succeeds
      · rcases isWrite command List.mem_cons_self with ⟨effect, rfl⟩
        rw [execAll, succeeded]
        simp only [exec, perform, isOpen, if_true]
        cases effect connection.content with
        | none => exact ih (fun later mem => isWrite later (List.mem_cons_of_mem _ mem)) isOpen
        | some content => exact ih (fun later mem => isWrite later (List.mem_cons_of_mem _ mem)) rfl
      · apply committed_execAll_of_dead
        exact fun index after later => succeeded (falling position index after later)

theorem isSome_exec_begin (closed : connection.working = none) (result : Outcome) :
    (connection.exec result .begin).working.isSome = true ↔ result = .succeeds := by
  rcases connection with ⟨committed, working, setting⟩
  obtain rfl : working = none := closed
  cases result <;> simp [exec, perform]

theorem isSome_exec_commit (result : Outcome) :
    (connection.exec result .commit).working.isSome = true ↔
      connection.working.isSome = true ∧ result = .fails := by
  rcases connection with ⟨committed, working, setting⟩
  cases working <;> cases result <;> simp [exec, perform]

theorem isSome_exec_write (effect : γ → Option γ) (result : Outcome) :
    (connection.exec result (.write effect)).working.isSome = true ↔
      connection.working.isSome = true ∧ result ≠ .rollsBack := by
  cases result with
  | succeeds =>
      simp only [exec, perform]
      cases effect connection.content with
      | none => simp
      | some content => by_cases isOpen : connection.working.isSome = true <;> simp [isOpen]
  | fails => simp [exec]
  | rollsBack => simp [exec]

/-- The writes leave the transaction open unless one of them rolls it back. -/
theorem isSome_execAll_writes (isWrite : ∀ command ∈ commands, ∃ effect, command = .write effect) :
    (execAll outcome position commands connection).working.isSome = true ↔
      connection.working.isSome = true ∧
        ∀ index < commands.length, outcome (position + index) ≠ .rollsBack := by
  induction commands generalizing position connection with
  | nil => simp [execAll]
  | cons command rest ih =>
      rcases isWrite command List.mem_cons_self with ⟨effect, rfl⟩
      rw [execAll, ih fun later mem => isWrite later (List.mem_cons_of_mem _ mem),
        isSome_exec_write, and_assoc]
      refine and_congr_right fun _ => ⟨fun ⟨now, later⟩ index small => ?_, fun all => ⟨?_, ?_⟩⟩
      · cases index with
        | zero => exact now
        | succ index =>
            have shifted := later index (Nat.lt_of_succ_lt_succ small)
            rwa [Nat.add_right_comm, Nat.add_assoc] at shifted
      · exact all 0 (Nat.succ_pos _)
      · intro index small
        have shifted := all (index + 1) (Nat.succ_lt_succ small)
        rwa [Nat.add_right_comm, Nat.add_assoc]

/-- The setting takes effect outside of transactions only. -/
theorem setting_exec_configure (change : σ → σ) (result : Outcome) :
    (connection.exec result (.configure change)).setting =
      if result = .succeeds ∧ ¬ connection.working.isSome = true then change connection.setting
      else connection.setting := by
  rcases connection with ⟨committed, working, setting⟩
  cases working <;> cases result <;> rfl

end Connection

end Storage
