import GodotStream.Lib.Run
import Mathlib.Algebra.GroupWithZero.Nat
import Mathlib.Data.List.Basic

/-!
# Simulation and progress of runs

A machine whose every step is a step of another machine, or none at all, reaches
only what the other one reaches. A machine whose steps each cost a part of a budget
takes no more steps than the budget pays for.
-/

namespace Run

universe u v w x

variable {State : Type u} {Event : Type v} {step : State → Event → Option State}
  {guard : State → Event → Prop}

/-- Runs of a machine whose steps are steps of another one or change nothing there. -/
theorem Reaches.simulate {Abstract : Type w} {Action : Type x}
    {abstractStep : Abstract → Action → Option Abstract} {abstractGuard : Abstract → Action → Prop}
    (view : State → Abstract) {start final : State} (reached : Reaches step guard start final)
    (followed : ∀ state event next, guard state event → step state event = some next →
      view next = view state ∨ ∃ action,
        abstractGuard (view state) action ∧ abstractStep (view state) action = some (view next)) :
    Reaches abstractStep abstractGuard (view start) (view final) := by
  induction reached with
  | refl => exact Reaches.refl
  | tail _ allowed stepped ih =>
      rcases followed _ _ _ allowed stepped with same | ⟨action, permitted, moved⟩
      · rwa [same]
      · exact ih.tail permitted moved

/-- A run costs its length; an event may refill the budget by its allowance. -/
theorem cost_of_follow {budget : State → ℕ} {allowance : Event → ℕ}
    (paid : ∀ state event next, step state event = some next →
      budget next + 1 ≤ budget state + allowance event)
    {events : List Event} {start final : State} (followed : follow step events start = some final) :
    budget final + events.length ≤ budget start + (events.map allowance).sum := by
  induction events generalizing start with
  | nil =>
      rw [follow, Option.some.injEq] at followed
      simp [followed]
  | cons event rest ih =>
      rw [follow, Option.bind_eq_some_iff] at followed
      rcases followed with ⟨next, stepped, restFollowed⟩
      have first := paid _ _ _ stepped
      have later := ih restFollowed
      rw [List.length_cons, List.map_cons, List.sum_cons]
      omega

end Run
