import Mathlib.Logic.Function.Iterate

/-!
# Loops with exits

A loop body either goes on with a new state or leaves with a value. `Loop.run`
gives the body a number of rounds and answers `none` when the loop is still going
after them, so a value returned by it is one that the loop really returns. To
evaluate a loop it is enough to name the states it passes through.
-/

namespace Loop

universe u v w x

variable {State : Type u} {Value : Type v} {Other : Type w} {Result : Type x}

/-- Run a loop body for at most `rounds` rounds. -/
def run (body : State → State ⊕ Value) : ℕ → State → Option Value
  | 0, _ => none
  | rounds + 1, state => (body state).elim (run body rounds) some

/-- The body of `while (condition) state = change(state);`. -/
def whileBody (condition : State → Bool) (change : State → State) (state : State) :
    State ⊕ State :=
  if condition state then .inl (change state) else .inr state

variable {body : State → State ⊕ Value}

/-- A loop that passes through the states of a trace and leaves from the last one. -/
theorem run_eq_some (trace : ℕ → State) {turns rounds : ℕ} {value : Value}
    (enough : turns < rounds)
    (goesOn : ∀ turn < turns, body (trace turn) = .inl (trace (turn + 1)))
    (leaves : body (trace turns) = .inr value) : run body rounds (trace 0) = some value := by
  induction turns generalizing rounds trace with
  | zero =>
      obtain ⟨rest, rfl⟩ : ∃ rest, rounds = rest + 1 := ⟨rounds - 1, by omega⟩
      rw [run, leaves, Sum.elim_inr]
  | succ turns ih =>
      obtain ⟨rest, rfl⟩ : ∃ rest, rounds = rest + 1 := ⟨rounds - 1, by omega⟩
      rw [run, goesOn 0 (by omega), Sum.elim_inl]
      apply ih (fun turn => trace (turn + 1)) (by omega)
      · exact fun turn below => goesOn (turn + 1) (by omega)
      · exact leaves

/-- A `while` loop whose condition holds for some rounds and then fails. -/
theorem run_whileBody {condition : State → Bool} {change : State → State} {state : State}
    {turns rounds : ℕ} (enough : turns < rounds)
    (goesOn : ∀ turn < turns, condition (change^[turn] state) = true)
    (leaves : condition (change^[turns] state) = false) :
    run (whileBody condition change) rounds state = some (change^[turns] state) := by
  apply run_eq_some (fun turn => change^[turn] state) enough
  · intro turn below
    rw [whileBody, goesOn turn below, if_pos rfl, Function.iterate_succ_apply']
  · rw [whileBody, leaves]
    rfl

/-- A loop that follows another one returns what the other one returns. -/
theorem run_map (states : State → Other) (values : Value → Result)
    {follower : Other → Other ⊕ Result}
    (follows : ∀ state, follower (states state) = (body state).map states values) (rounds : ℕ)
    (state : State) : run follower rounds (states state) = (run body rounds state).map values := by
  induction rounds generalizing state with
  | zero => rfl
  | succ rounds ih =>
      rw [run, run, follows]
      cases body state with
      | inl next => exact ih next
      | inr value => rfl

end Loop
