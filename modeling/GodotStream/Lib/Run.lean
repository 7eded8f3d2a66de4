import Mathlib.Logic.Relation

/-!
# Runs of a state machine

States reached from a start state by steps of a partial step function, each taken
under a guard on the state and the event. An invariant of the guarded steps holds
in every state that a run reaches.
-/

namespace Run

universe u v

variable {State : Type u} {Event : Type v} {step : State → Event → Option State}
  {guard : State → Event → Prop}

/-- The states that guarded steps reach from `start`. -/
inductive Reaches (step : State → Event → Option State) (guard : State → Event → Prop)
    (start : State) : State → Prop where
  | refl : Reaches step guard start start
  | tail {middle final : State} {event : Event} (before : Reaches step guard start middle)
      (allowed : guard middle event) (stepped : step middle event = some final) :
      Reaches step guard start final

/-- What every guarded step preserves holds in every reached state. -/
theorem Reaches.invariant {holds : State → Prop} {start final : State}
    (reached : Reaches step guard start final) (initially : holds start)
    (preserved : ∀ state event next, holds state → guard state event →
      step state event = some next → holds next) : holds final := by
  induction reached with
  | refl => exact initially
  | tail _ allowed stepped ih => exact preserved _ _ _ ih allowed stepped

/-- A guarded run may be continued. -/
theorem Reaches.trans {start middle final : State} (first : Reaches step guard start middle)
    (second : Reaches step guard middle final) : Reaches step guard start final := by
  induction second with
  | refl => exact first
  | tail _ allowed stepped ih => exact ih.tail allowed stepped

/-- A weaker guard reaches at least as much. -/
theorem Reaches.mono {other : State → Event → Prop} {start final : State}
    (weaker : ∀ state event, guard state event → other state event)
    (reached : Reaches step guard start final) : Reaches step other start final := by
  induction reached with
  | refl => exact Reaches.refl
  | tail _ allowed stepped ih => exact ih.tail (weaker _ _ allowed) stepped

/-- The state after a list of events, if each of them can happen. -/
def follow (step : State → Event → Option State) : List Event → State → Option State
  | [], state => some state
  | event :: rest, state => (step state event).bind (follow step rest)

/-- The guard holds at every event of the list. -/
def Allowed (step : State → Event → Option State) (guard : State → Event → Prop) :
    List Event → State → Prop
  | [], _ => True
  | event :: rest, state =>
      guard state event ∧ ∀ next ∈ step state event, Allowed step guard rest next

instance decidableAllowed (step : State → Event → Option State) (guard : State → Event → Prop)
    [∀ state event, Decidable (guard state event)] :
    ∀ events state, Decidable (Allowed step guard events state)
  | [], _ => isTrue trivial
  | event :: rest, state =>
      have : Decidable (∀ next ∈ step state event, Allowed step guard rest next) :=
        match stepped : step state event with
        | none => isTrue (by simp)
        | some next =>
            have := decidableAllowed step guard rest next
            decidable_of_iff (Allowed step guard rest next) (by simp)
      inferInstanceAs (Decidable (_ ∧ _))

theorem allowed_append {before later : List Event} {start : State} :
    Allowed step guard (before ++ later) start ↔ Allowed step guard before start ∧
      ∀ middle ∈ follow step before start, Allowed step guard later middle := by
  induction before generalizing start with
  | nil => simp [Allowed, follow]
  | cons event rest ih =>
      rw [List.cons_append, Allowed, Allowed, and_assoc]
      apply and_congr_right
      intro _
      cases stepped : step start event with
      | none => simp [follow, stepped]
      | some next => simpa [follow, stepped] using ih

/-- The state after a list of events; the start if one of them cannot happen. -/
def runAll (step : State → Event → Option State) (events : List Event) (start : State) : State :=
  (follow step events start).getD start

theorem reaches_of_follow {events : List Event} {start final : State}
    (allowed : Allowed step guard events start)
    (followed : final ∈ follow step events start) : Reaches step guard start final := by
  induction events generalizing start with
  | nil =>
      rw [follow, Option.mem_def, Option.some.injEq] at followed
      exact followed ▸ Reaches.refl
  | cons event rest ih =>
      rw [follow, Option.mem_def, Option.bind_eq_some_iff] at followed
      rcases followed with ⟨next, stepped, restFollowed⟩
      have first : Reaches step guard start next := Reaches.refl.tail allowed.1 stepped
      exact first.trans (ih (allowed.2 next stepped) restFollowed)

theorem reaches_runAll {events : List Event} {start : State}
    (allowed : Allowed step guard events start)
    (possible : (follow step events start).isSome = true) :
    Reaches step guard start (runAll step events start) := by
  rcases Option.isSome_iff_exists.mp possible with ⟨final, followed⟩
  rw [runAll, followed, Option.getD_some]
  exact reaches_of_follow allowed followed

theorem step_eq_runAll {event : Event} {start : State}
    (possible : (step start event).isSome = true) :
    step start event = some (runAll step [event] start) := by
  rcases Option.isSome_iff_exists.mp possible with ⟨next, stepped⟩
  simp [runAll, follow, stepped]

/-- What the round for one item establishes and the other rounds preserve holds after the loop. -/
theorem foldl_establishes {Item : Type v} {round : State → Item → State}
    {invariant holds : State → Prop} {items : List Item} {item : Item} (listed : item ∈ items)
    {start : State} (initially : invariant start)
    (kept : ∀ state other, other ∈ items → invariant state → invariant (round state other))
    (established : ∀ state, invariant state → holds (round state item))
    (preserved : ∀ state other, other ∈ items → invariant state → holds state →
      holds (round state other)) : holds (items.foldl round start) := by
  rcases List.append_of_mem listed with ⟨before, later, rfl⟩
  rw [List.foldl_append, List.foldl_cons]
  have invariantBefore : invariant (before.foldl round start) := by
    apply List.foldlRecOn (motive := invariant) _ _ initially
    exact fun state stateInvariant other otherListed =>
      kept state other (List.mem_append_left _ otherListed) stateInvariant
  have both : invariant (later.foldl round (round (before.foldl round start) item)) ∧
      holds (later.foldl round (round (before.foldl round start) item)) := by
    apply List.foldlRecOn (motive := fun state => invariant state ∧ holds state) _ _
      ⟨kept _ item listed invariantBefore, established _ invariantBefore⟩
    rintro state ⟨stateInvariant, stateHolds⟩ other otherListed
    have inItems := List.mem_append_right before (List.mem_cons_of_mem item otherListed)
    exact ⟨kept state other inItems stateInvariant,
      preserved state other inItems stateInvariant stateHolds⟩
  exact both.2

end Run
