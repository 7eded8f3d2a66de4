import Mathlib.Data.List.Basic
import Mathlib.Data.Nat.Notation

/-!
# Scripts whose statements can fail

A `Script` is a program over a state that issues statements one after another. A
statement that fails has no effect, and the script goes on and may look at the failure.
Statements fail when the state does not accept them and when the environment lets them,
at chosen positions of the run.

`visible` is the part of the state that statements are for; `Plain` scripts change it by
statements only. The results compare a run under failures with the run in which every
statement succeeds.
-/

namespace Storage

universe u v

/-- A program with fallible statements; `unfinished` stands for what lies beyond a bound. -/
inductive Script (σ : Type u) : Type u where
  | done
  | unfinished
  | compute (update : σ → σ) (rest : σ → Script σ)
  | statement (accepts : σ → Bool) (effect : σ → σ) (rest : Bool → Script σ)

namespace Script

variable {σ : Type u} {τ : Type v}

/-- Run the script from a position on; some statements fail. -/
def run (fails : ℕ → Bool) : Script σ → ℕ → σ → Option (σ × ℕ)
  | done, position, state => some (state, position)
  | unfinished, _, _ => none
  | compute update rest, position, state => run fails (rest state) position (update state)
  | statement accepts effect rest, position, state =>
      if accepts state && !fails position then
        run fails (rest true) (position + 1) (effect state)
      else run fails (rest false) (position + 1) state

/-- Run the script as long as every statement succeeds. -/
def succeed : Script σ → σ → Option σ
  | done, state => some state
  | unfinished, _ => none
  | compute update rest, state => succeed (rest state) (update state)
  | statement accepts effect rest, state =>
      if accepts state then succeed (rest true) (effect state) else none

/-- Run one script after another. -/
def andThen : Script σ → Script σ → Script σ
  | done, second => second
  | unfinished, _ => unfinished
  | compute update rest, second => compute update fun state => (rest state).andThen second
  | statement accepts effect rest, second =>
      statement accepts effect fun succeeded => (rest succeeded).andThen second

/-- Run a script for each element of a list. -/
def forEach {ι : Type*} (body : ι → Script σ) : List ι → Script σ
  | [] => done
  | first :: rest => (body first).andThen (forEach body rest)

/-- The second script goes on where the first one is unfinished. -/
inductive Extends : Script σ → Script σ → Prop
  | unfinished (longer : Script σ) : Extends unfinished longer
  | done : Extends done done
  | compute (update : σ → σ) {rest other : σ → Script σ}
      (extended : ∀ state, Extends (rest state) (other state)) :
      Extends (compute update rest) (compute update other)
  | statement (accepts : σ → Bool) (effect : σ → σ) {rest other : Bool → Script σ}
      (extended : ∀ succeeded, Extends (rest succeeded) (other succeeded)) :
      Extends (statement accepts effect rest) (statement accepts effect other)

/-- Only statements change what is visible, and one that leaves it as it is might as well have
failed. -/
def Plain (visible : σ → τ) : Script σ → σ → Prop
  | done, _ => True
  | unfinished, _ => True
  | compute update rest, state =>
      visible (update state) = visible state ∧ Plain visible (rest state) (update state)
  | statement accepts effect rest, state =>
      (accepts state = true → visible (effect state) = visible state →
        effect state = state ∧ rest false = rest true) ∧
      (accepts state = true → Plain visible (rest true) (effect state)) ∧
      Plain visible (rest false) state

/-- Every statement is accepted, and those that fail would have changed nothing visible. -/
def Harmless (visible : σ → τ) (fails : ℕ → Bool) : Script σ → ℕ → σ → Prop
  | done, _, _ => True
  | unfinished, _, _ => False
  | compute update rest, position, state =>
      Harmless visible fails (rest state) position (update state)
  | statement accepts effect rest, position, state =>
      accepts state = true ∧
      (fails position = true → visible (effect state) = visible state) ∧
      Harmless visible fails (rest true) (position + 1) (effect state)

/-- Every statement is accepted and changes nothing visible. -/
def Idle (visible : σ → τ) (script : Script σ) (state : σ) : Prop :=
  Harmless visible (fun _ => true) script 0 state

section Runs

variable {fails : ℕ → Bool} {script longer : Script σ} {position : ℕ} {state final : σ}

@[simp]
theorem run_andThen (first second : Script σ) :
    run fails (first.andThen second) position state =
      (run fails first position state).bind fun middle => run fails second middle.2 middle.1 := by
  induction first generalizing position state with
  | done => rfl
  | unfinished => rfl
  | compute update rest ih => exact ih state
  | statement accepts effect rest ih =>
      simp only [andThen, run]
      split
      · exact ih true
      · exact ih false

@[simp]
theorem succeed_andThen (first second : Script σ) :
    succeed (first.andThen second) state = (succeed first state).bind (succeed second) := by
  induction first generalizing state with
  | done => rfl
  | unfinished => rfl
  | compute update rest ih => exact ih state
  | statement accepts effect rest ih =>
      simp only [andThen, succeed]
      split
      · exact ih true
      · rfl

theorem run_of_extends (extended : Extends script longer) {finished : σ × ℕ}
    (ended : run fails script position state = some finished) :
    run fails longer position state = some finished := by
  induction extended generalizing position state with
  | unfinished => simp [run] at ended
  | done => exact ended
  | compute update _ ih => exact ih state ended
  | statement accepts effect _ ih =>
      simp only [run] at ended ⊢
      split at ended
      case isTrue succeeded =>
        rw [if_pos succeeded]
        exact ih true ended
      case isFalse failed =>
        rw [if_neg failed]
        exact ih false ended

theorem succeed_of_extends (extended : Extends script longer)
    (ended : succeed script state = some final) : succeed longer state = some final := by
  induction extended generalizing state with
  | unfinished => simp [succeed] at ended
  | done => exact ended
  | compute update _ ih => exact ih state ended
  | statement accepts effect _ ih =>
      simp only [succeed] at ended ⊢
      split at ended
      case isTrue accepted =>
        rw [if_pos accepted]
        exact ih true ended
      case isFalse => simp at ended

theorem Extends.refl (script : Script σ) : Extends script script := by
  induction script with
  | done => exact .done
  | unfinished => exact .unfinished _
  | compute update rest ih => exact .compute update ih
  | statement accepts effect rest ih => exact .statement accepts effect ih

theorem Extends.andThen {second other : Script σ} (extended : Extends script longer)
    (extendedSecond : Extends second other) :
    Extends (script.andThen second) (longer.andThen other) := by
  induction extended with
  | unfinished longer => exact .unfinished _
  | done => exact extendedSecond
  | compute update _ ih => exact .compute update ih
  | statement accepts effect _ ih => exact .statement accepts effect ih

theorem Extends.forEach {ι : Type*} {body other : ι → Script σ}
    (extended : ∀ element, Extends (body element) (other element)) (elements : List ι) :
    Extends (Script.forEach body elements) (Script.forEach other elements) := by
  induction elements with
  | nil => exact .done
  | cons first rest ih => exact (extended first).andThen ih

end Runs

section Visible

variable {visible : σ → τ} {fails : ℕ → Bool} {script : Script σ} {position : ℕ} {state : σ}

theorem Plain.andThen {first second : Script σ} (plain : Plain visible first state)
    (plainSecond : ∀ state, Plain visible second state) :
    Plain visible (first.andThen second) state := by
  induction first generalizing state with
  | done => exact plainSecond state
  | unfinished => trivial
  | compute update rest ih => exact ⟨plain.1, ih state plain.2⟩
  | statement accepts effect rest ih =>
      refine ⟨?_, fun accepted => ih true (plain.2.1 accepted), ih false plain.2.2⟩
      intro accepted unchanged
      rcases plain.1 accepted unchanged with ⟨same, sameRest⟩
      exact ⟨same, congrArg (Script.andThen · second) sameRest⟩

theorem Plain.forEach {ι : Type*} {body : ι → Script σ}
    (plain : ∀ element state, Plain visible (body element) state) (elements : List ι) (state : σ) :
    Plain visible (Script.forEach body elements) state := by
  induction elements generalizing state with
  | nil => trivial
  | cons first rest ih => exact (plain first state).andThen ih

/-- A run whose statements all fail changes nothing visible. -/
theorem Plain.visible_run (plain : Plain visible script state)
    (allFail : ∀ index, position ≤ index → fails index = true) {finished : σ × ℕ}
    (ended : run fails script position state = some finished) :
    visible finished.1 = visible state := by
  induction script generalizing position state with
  | done =>
      rw [← Option.some.inj ended]
  | unfinished => simp [run] at ended
  | compute update rest ih => exact (ih state plain.2 allFail ended).trans plain.1
  | statement accepts effect rest ih =>
      have later : ∀ index, position + 1 ≤ index → fails index = true :=
        fun index after => allFail index (Nat.le_of_succ_le after)
      simp only [run, allFail position (Nat.le_refl _), Bool.not_true, Bool.and_false,
        Bool.false_eq_true, if_false] at ended
      exact ih false plain.2.2 later ended

/-- Harmless failures make no difference. -/
theorem Plain.run_of_harmless (plain : Plain visible script state)
    (harmless : Harmless visible fails script position state) :
    ∃ whole stop, run fails script position state = some (whole, stop) ∧
      succeed script state = some whole := by
  induction script generalizing position state with
  | done => exact ⟨state, position, rfl, rfl⟩
  | unfinished => exact harmless.elim
  | compute update rest ih => exact ih state plain.2 harmless
  | statement accepts effect rest ih =>
      rcases harmless with ⟨accepted, unchanged, harmlessRest⟩
      rcases ih true (plain.2.1 accepted) harmlessRest with ⟨whole, stop, ended, succeeded⟩
      refine ⟨whole, stop, ?_, ?_⟩
      · simp only [run, accepted, Bool.true_and, Bool.not_eq_true']
        split
        · exact ended
        case isFalse failed =>
          rcases plain.1 accepted (unchanged (Bool.not_eq_false _ ▸ failed)) with
            ⟨same, sameRest⟩
          rw [sameRest, ← same, same]
          rw [same] at ended
          exact ended
      · simp only [succeed, accepted, if_true]
        exact succeeded

/-- Without failures it is enough that every statement is accepted. -/
theorem Harmless.of_succeed {whole : σ} (succeeded : succeed script state = some whole)
    (noFailure : ∀ index, position ≤ index → fails index = false) :
    Harmless visible fails script position state := by
  induction script generalizing position state with
  | done => trivial
  | unfinished => simp [succeed] at succeeded
  | compute update rest ih => exact ih state succeeded noFailure
  | statement accepts effect rest ih =>
      simp only [succeed] at succeeded
      split at succeeded
      case isFalse => simp at succeeded
      case isTrue accepted =>
        have later : ∀ index, position + 1 ≤ index → fails index = false :=
          fun index after => noFailure index (Nat.le_of_succ_le after)
        refine ⟨accepted, ?_, ih true succeeded later⟩
        simp [noFailure position (Nat.le_refl _)]

theorem Harmless.of_idle {start : ℕ} (idle : Harmless visible (fun _ => true) script start state)
    (fails : ℕ → Bool) (position : ℕ) : Harmless visible fails script position state := by
  induction script generalizing position start state with
  | done => trivial
  | unfinished => exact idle
  | compute update rest ih => exact ih state idle position
  | statement accepts effect rest ih =>
      exact ⟨idle.1, fun _ => idle.2.1 rfl, ih true idle.2.2 (position + 1)⟩

/-- An idle script leaves what is visible. -/
theorem Idle.visible_succeed (plain : Plain visible script state) (idle : Idle visible script state)
    {whole : σ} (succeeded : succeed script state = some whole) :
    visible whole = visible state := by
  have harmless := Harmless.of_idle idle (fun _ => true) 0
  rcases plain.run_of_harmless harmless with ⟨other, stop, ended, succeeded'⟩
  rw [succeeded] at succeeded'
  rw [Option.some.inj succeeded']
  exact plain.visible_run (fun _ _ => rfl) ended

/-- If the run looks whole wherever it is cut off, no statement had an effect. Each of the runs may
be one of a longer script. -/
theorem idle_of_cuts {whole : σ} (succeeded : succeed script state = some whole)
    (cuts : ∀ cut, position ≤ cut → ∃ longer finished, Extends script longer ∧
      Plain visible longer state ∧
      run (fun index => decide (cut ≤ index)) longer position state = some finished ∧
      visible finished.1 = visible whole) :
    Harmless visible (fun _ => true) script position state := by
  induction script generalizing position state with
  | done => trivial
  | unfinished => simp [succeed] at succeeded
  | compute update rest ih =>
      apply ih state succeeded
      intro cut after
      rcases cuts cut after with ⟨_, finished, extended, plain, ended, looksWhole⟩
      cases extended with
      | @compute _ _ other extended =>
          exact ⟨other state, finished, extended state, plain.2, ended, looksWhole⟩
  | statement accepts effect rest ih =>
      simp only [succeed] at succeeded
      split at succeeded
      case isFalse => simp at succeeded
      case isTrue accepted =>
        have cutsRest : ∀ cut, position + 1 ≤ cut → ∃ longer finished, Extends (rest true) longer ∧
            Plain visible longer (effect state) ∧
            run (fun index => decide (cut ≤ index)) longer (position + 1) (effect state) =
              some finished ∧ visible finished.1 = visible whole := by
          intro cut after
          rcases cuts cut (Nat.le_of_succ_le after) with
            ⟨_, finished, extended, plain, ended, looksWhole⟩
          cases extended with
          | @statement _ _ _ other extended =>
              have before : ¬ cut ≤ position := Nat.not_le_of_lt after
              simp only [run, accepted, before, decide_false, Bool.not_false, Bool.and_self,
                if_true] at ended
              exact ⟨other true, finished, extended true, plain.2.1 accepted, ended, looksWhole⟩
        refine ⟨accepted, fun _ => ?_, ih true succeeded cutsRest⟩
        -- cut right after the statement and right before it
        rcases cutsRest (position + 1) (Nat.le_refl _) with
          ⟨_, after, _, plainAfter, endedAfter, wholeAfter⟩
        rcases cuts position (Nat.le_refl _) with
          ⟨_, before, _, plainBefore, endedBefore, wholeBefore⟩
        have visibleAfter := plainAfter.visible_run (fun _ later => decide_eq_true later) endedAfter
        have visibleBefore :=
          plainBefore.visible_run (fun _ later => decide_eq_true later) endedBefore
        rw [← visibleAfter, wholeAfter, ← wholeBefore, visibleBefore]

end Visible

end Script

end Storage
