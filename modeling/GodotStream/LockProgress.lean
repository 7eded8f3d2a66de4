import GodotStream.LockedRefinement
import Mathlib.Algebra.BigOperators.Group.Finset.Piecewise
import Mathlib.Data.Fintype.Basic
import Mathlib.Tactic.Common

/-!
# Progress of the worker

Every call, flush and spurious wake-up pays for a fixed number of steps, so that the
parties cannot keep each other busy for ever. Where none of them can move, the work
is done: the loop sleeps over an empty queue, or it has returned and its destructor
has joined it, unless it stands in a work that does not return. Whatever was pushed
before the shutdown is executed before the join.
-/

namespace GodotStream

universe u v w x

variable {Caller : Type x} {Db : Type u} {Result : Type v} {Reply : Type w}

def LoopStage.budget : LoopStage Db Result Reply → ℕ
  | .sleeping | .returned => 0
  | .parking | .taking => 1
  | .checking => 2
  | .locking => 3
  | .storing _ _ => 5
  | .queueing _ _ => 6
  | .worked _ _ => 7
  | .running _ => 8

/-- A push pays for the round of its task and for the wake-up of the loop. -/
def CallerStage.budget : CallerStage Db Result Reply → ℕ
  | .idle => 0
  | .joining => 1
  | .notifying _ => 5
  | .holding _ => 14
  | .locking _ => 15

/-- A push that has not reached the queue. -/
def CallerStage.isPushing : CallerStage Db Result Reply → Bool
  | .locking (.pushTask _) | .holding (.pushTask _) => true
  | _ => false

def FlushStage.budget : FlushStage Reply → ℕ
  | .idle => 0
  | .delivering callbacks => callbacks.length + 1
  | .holding => 2
  | .locking => 3

/-- The steps that an event may bring about, its own included. -/
def LockEvent.allowance : LockEvent Caller Db Result Reply → ℕ
  | .call _ _ => 16
  | .flush => 4
  | .spurious => 4
  | _ => 0

theorem LoopStage.budget_notified_le (stage : LoopStage Db Result Reply) :
    stage.notified.budget ≤ stage.budget + 3 := by
  cases stage <;> simp [notified, budget]

namespace LockedState

variable [DecidableEq Caller]

section Budget

variable [Fintype Caller] {state next final : LockedState Caller Db Result Reply}

/-- The most steps that the parties can take on their own. -/
def budget (state : LockedState Caller Db Result Reply) : ℕ :=
  state.loop.budget + state.flusher.budget + 8 * state.taskQueue.length +
    state.completedCallbacks.length + ∑ caller, (state.callers caller).budget

/-- A caller moves on: what its stages cost and gain is what the sum costs and gains. -/
theorem sum_update_budget {callers : Caller → CallerStage Db Result Reply} {caller : Caller}
    {old : CallerStage Db Result Reply} (before : callers caller = old)
    (stage : CallerStage Db Result Reply) (cost gain : ℕ)
    (paid : stage.budget + cost ≤ old.budget + gain) :
    ∑ other, (Function.update callers caller stage other).budget + cost ≤
      ∑ other, (callers other).budget + gain := by
  have others : ∑ other ∈ Finset.univ.erase caller,
      (Function.update callers caller stage other).budget =
        ∑ other ∈ Finset.univ.erase caller, (callers other).budget := by
    apply Finset.sum_congr rfl
    intro other otherMem
    rw [Function.update_of_ne (Finset.ne_of_mem_erase otherMem)]
  rw [← Finset.add_sum_erase _ _ (Finset.mem_univ caller), others, Function.update_self,
    ← Finset.add_sum_erase Finset.univ (fun other => (callers other).budget)
      (Finset.mem_univ caller), before]
  omega

theorem step_paid {event : LockEvent Caller Db Result Reply}
    (stepped : state.step event = some next) :
    next.budget + 1 ≤ state.budget + event.allowance := by
  cases step_move stepped with
  | lock loop | find loop | miss loop | park loop | leave loop | work loop | forgo loop
  | report loop | lockQueueing loop | wake loop =>
      simp only [budget, loop, LoopStage.budget, LockEvent.allowance]
      omega
  | take loop queued =>
      simp only [budget, loop, queued, LoopStage.budget, LockEvent.allowance, List.length_cons]
      omega
  | @store task result loop =>
      have queued : (ThreadTask.reply (task, result)).toList.length ≤ 1 := by
        cases ThreadTask.reply (task, result) <;> simp
      simp only [budget, loop, LoopStage.budget, LockEvent.allowance, List.length_append]
      omega
  | lockFlusher flusher | swap flusher | deliver flusher | delivered flusher | flush flusher =>
      simp only [budget, flusher, FlushStage.budget, LockEvent.allowance, List.length_nil,
        List.length_cons]
      omega
  | @lockCaller caller request stage =>
      have sum := sum_update_budget stage (.holding request) 1 0 (Nat.le_refl 15)
      simp only [budget, setCaller, LockEvent.allowance]
      omega
  | @perform caller request stage =>
      have sum := sum_update_budget stage (.notifying request) 9 0 (Nat.le_refl 14)
      cases request with
      | pushTask task =>
          simp only [budget, setCaller, perform, LockEvent.allowance, List.length_append,
            List.length_singleton]
          omega
      | stop =>
          simp only [budget, setCaller, perform, LockEvent.allowance]
          omega
  | notifyPush stage =>
      have notified := state.loop.budget_notified_le
      have sum := sum_update_budget stage .idle 5 0 (Nat.le_refl 5)
      simp only [budget, setCaller, LockEvent.allowance]
      omega
  | notifyStop stage =>
      have notified := state.loop.budget_notified_le
      have sum := sum_update_budget stage .joining 4 0 (Nat.le_refl 5)
      simp only [budget, setCaller, LockEvent.allowance]
      omega
  | join stage =>
      have sum := sum_update_budget stage .idle 1 0 (Nat.le_refl 1)
      simp only [budget, setCaller, LockEvent.allowance]
      omega
  | call stage request =>
      have sum := sum_update_budget stage (.locking request) 0 15 (Nat.le_refl 15)
      simp only [budget, setCaller, LockEvent.allowance]
      omega

/-- No interleaving keeps the parties busy for ever: a run is no longer than what the calls, flushes
and spurious wake-ups in it allow beyond the budget of its start. -/
theorem length_le_budget {events : List (LockEvent Caller Db Result Reply)}
    (followed : Run.follow step events state = some final) :
    final.budget + events.length ≤ state.budget + (events.map LockEvent.allowance).sum :=
  Run.cost_of_follow (fun _ _ _ stepped => step_paid stepped) followed

/-- A flush of nothing and the way of the loop to its sleep use up what they may. -/
theorem length_le_budget_idle :
    let events : List (LockEvent Unit ℕ ℕ ℕ) :=
      [.flush, .flusher, .flusher, .loop, .loop, .flusher, .loop]
    let final := Run.runAll step events (start 4)
    events.length = 3 + 4 ∧
    final.budget + events.length ≤
      (start 4 : LockedState Unit ℕ ℕ ℕ).budget + (events.map LockEvent.allowance).sum :=
  ⟨rfl, length_le_budget rfl⟩

end Budget

variable {state next final : LockedState Caller Db Result Reply}

/-- Whoever holds the mutex can go on to its unlock. -/
theorem owner_moves (sound : Sound state) {party : LockParty Caller}
    (owner : state.owner = some party) :
    ∃ event : LockEvent Caller Db Result Reply, event.party = some party ∧
      (state.step event).isSome = true := by
  have held := (sound.guards party).mp owner
  cases party with
  | loop =>
      refine ⟨.loop, rfl, ?_⟩
      rw [step, stepLoop]
      cases loop : state.loop with
      | checking | parking | storing => rfl
      | taking =>
          have due := sound.taking loop
          cases queued : state.taskQueue with
          | cons => rfl
          | nil => simpa [LockedState.due, queued] using due
      | locking | sleeping | running | worked | queueing | returned =>
          simp [inside, loop, LoopStage.inside] at held
  | caller caller =>
      refine ⟨.caller caller, rfl, ?_⟩
      rw [step, stepCaller]
      cases stage : state.callers caller with
      | holding => rfl
      | idle | locking | notifying | joining =>
          simp [inside, stage, CallerStage.inside] at held
  | flusher =>
      refine ⟨.flusher, rfl, ?_⟩
      rw [step, stepFlusher]
      cases stage : state.flusher with
      | holding => rfl
      | idle | locking | delivering => simp [inside, stage, FlushStage.inside] at held

/-- No party can take a step of its own. -/
def Stuck (state : LockedState Caller Db Result Reply) : Prop :=
  ∀ event : LockEvent Caller Db Result Reply, event.party.isSome = true → state.step event = none

namespace Stuck

theorem free (stuck : Stuck state) (sound : Sound state) : state.owner = none := by
  cases owner : state.owner with
  | none => rfl
  | some party =>
      rcases owner_moves sound owner with ⟨event, acts, moves⟩
      rw [stuck event (by simp [acts])] at moves
      simp at moves

theorem flusher_eq (stuck : Stuck state) (free : state.owner = none) : state.flusher = .idle := by
  have still := stuck .flusher rfl
  cases stage : state.flusher with
  | idle => rfl
  | locking => simp [step, stepFlusher, stage, free] at still
  | holding => simp [step, stepFlusher, stage] at still
  | delivering callbacks => cases callbacks <;> simp [step, stepFlusher, stage] at still

theorem caller_eq (stuck : Stuck state) (free : state.owner = none) (caller : Caller) :
    state.callers caller = .idle ∨ state.callers caller = .joining ∧ state.loop ≠ .returned := by
  have still := stuck (.caller caller) rfl
  cases stage : state.callers caller with
  | idle => exact Or.inl rfl
  | locking => simp [step, stepCaller, stage, free] at still
  | holding => simp [step, stepCaller, stage] at still
  | notifying request => cases request <;> simp [step, stepCaller, stage] at still
  | joining =>
      refine Or.inr ⟨rfl, ?_⟩
      intro returned
      simp [step, stepCaller, stage, returned] at still

theorem loop_eq (stuck : Stuck state) (sound : Sound state) (free : state.owner = none) :
    state.loop = .sleeping ∨ state.loop = .returned ∨
      ∃ task, state.loop = .running task ∧ task.run state.db = none := by
  have still := stuck .loop rfl
  have outside : state.loop.inside ≠ true := by
    intro held
    have owner := (sound.guards .loop).mpr held
    rw [free] at owner
    simp at owner
  cases loop : state.loop with
  | sleeping => exact Or.inl rfl
  | returned => exact Or.inr (Or.inl rfl)
  | running task =>
      refine Or.inr (Or.inr ⟨task, rfl, ?_⟩)
      simpa [step, stepLoop, loop] using still
  | locking | queueing => simp [step, stepLoop, loop, free] at still
  | worked => simp [step, stepLoop, loop] at still
  | checking | parking | taking | storing => simp [loop, LoopStage.inside] at outside

end Stuck

/-- Where no party can move, the mutex is free, no flush is under way and no caller waits but for
the join. The loop sleeps with everything executed and no stop requested, or it has returned and
been joined, or it stands in a work that does not return. -/
theorem stuck_done {db : Db} (reached : Run.Reaches step (fun _ _ => True) (start db) state)
    (stuck : Stuck state) :
    state.owner = none ∧ state.flusher = .idle ∧
    (state.loop = .sleeping ∧ state.stop = false ∧ (∀ caller, state.callers caller = .idle) ∧
        state.executed.map Prod.fst = state.pushed ∨
      state.loop = .returned ∧ state.stop = true ∧ (∀ caller, state.callers caller = .idle) ∧
        state.executed.map Prod.fst ++ state.taskQueue = state.pushed ∨
      ∃ task, state.loop = .running task ∧ task.run state.db = none ∧
        ∀ caller, state.callers caller = .idle ∨ state.callers caller = .joining) := by
  have sound := sound_of_reaches reached
  have tasks := (ordered_of_reaches reached).tasks
  have free := stuck.free sound
  have callers := stuck.caller_eq free
  refine ⟨free, stuck.flusher_eq free, ?_⟩
  rcases stuck.loop_eq sound free with asleep | returned | ⟨task, running, unfinished⟩
  · left
    have notDue : state.due = false := by
      rw [← Bool.not_eq_true]
      intro due
      rcases sound.sleeping asleep due with ⟨caller, request, notifying⟩
      rcases callers caller with idle | ⟨joining, _⟩
      · simp [notifying] at idle
      · simp [notifying] at joining
    rcases (by simpa [due] using notDue) with ⟨stop, empty⟩
    refine ⟨asleep, stop, ?_, ?_⟩
    · intro caller
      apply (callers caller).resolve_right
      rintro ⟨joining, _⟩
      rw [sound.stopping caller (Or.inr joining)] at stop
      exact Bool.noConfusion stop
    · simpa [view, ThreadState.inHand, asleep, LoopStage.position, empty] using tasks
  · right
    left
    refine ⟨returned, sound.returned returned, ?_, ?_⟩
    · exact fun caller => (callers caller).resolve_right fun joining => joining.2 returned
    · simpa [view, ThreadState.inHand, returned, LoopStage.position] using tasks
  · exact Or.inr (Or.inr ⟨task, running, unfinished, fun caller =>
      (callers caller).imp_right And.left⟩)

/-- A task is executed and its callback delivered, and the destructor joins the loop. -/
theorem stuck_done_joined :
    let count : ThreadTask ℕ ℕ ℕ := ⟨some fun db => some (db + 1, db), some fun got => got.getD 9⟩
    let final : LockedState Unit ℕ ℕ ℕ := Run.runAll step
      [.call () (.pushTask count), .caller (), .caller (), .caller (), .call () .stop, .loop, .loop,
        .loop, .loop, .loop, .loop, .loop, .flush, .caller (), .caller (), .flusher, .flusher,
        .flusher, .flusher, .caller (), .loop, .loop, .loop, .caller ()] (start 4)
    final.ran = [4] ∧ final.owner = none ∧ final.flusher = .idle ∧
    (final.loop = .sleeping ∧ final.stop = false ∧ (∀ caller, final.callers caller = .idle) ∧
        final.executed.map Prod.fst = final.pushed ∨
      final.loop = .returned ∧ final.stop = true ∧ (∀ caller, final.callers caller = .idle) ∧
        final.executed.map Prod.fst ++ final.taskQueue = final.pushed ∨
      ∃ task, final.loop = .running task ∧ task.run final.db = none ∧
        ∀ caller, final.callers caller = .idle ∨ final.callers caller = .joining) := by
  refine ⟨rfl, stuck_done (Run.reaches_runAll (by simp [Run.Allowed]) rfl) ?_⟩
  intro event acts
  cases event with
  | loop | caller | flusher => rfl
  | call | flush | spurious => simp [LockEvent.party] at acts

/-- No push is called. -/
def NoPush (_ : LockedState Caller Db Result Reply) (event : LockEvent Caller Db Result Reply) :
    Prop :=
  ∀ caller task, event ≠ .call caller (.pushTask task)

/-- Nothing is on its way into the queue, and the loop returned from an empty one. -/
structure Closing (pushed : List (ThreadTask Db Result Reply))
    (state : LockedState Caller Db Result Reply) : Prop where
  pushed : state.pushed = pushed
  callers : ∀ caller, (state.callers caller).isPushing = false
  returned : state.loop = .returned → state.taskQueue = []

namespace Closing

variable {pushed : List (ThreadTask Db Result Reply)}

/-- A caller moves to a stage that pushes nothing. -/
theorem of_caller (closing : Closing pushed state) {caller : Caller}
    {stage : CallerStage Db Result Reply} (idle : stage.isPushing = false)
    (history : next.pushed = state.pushed) (tasks : next.taskQueue = state.taskQueue)
    (loop : next.loop = .returned → state.loop = .returned)
    (callers : next.callers = Function.update state.callers caller stage) :
    Closing pushed next where
  pushed := history.trans closing.pushed
  callers := by
    intro other
    rw [callers, Function.update_apply]
    split
    case isTrue => exact idle
    case isFalse => exact closing.callers other
  returned := by
    rw [tasks]
    exact fun returned => closing.returned (loop returned)

theorem step (closing : Closing pushed state) {event : LockEvent Caller Db Result Reply}
    (noPush : NoPush state event) (stepped : state.step event = some next) :
    Closing pushed next := by
  cases step_move stepped with
  | leave loop queued => exact ⟨closing.pushed, closing.callers, fun _ => queued⟩
  | lock | find | miss | park | take | work | forgo | report | lockQueueing | store | wake =>
      exact ⟨closing.pushed, closing.callers, by simp⟩
  | lockFlusher | swap | deliver | delivered | flush =>
      exact ⟨closing.pushed, closing.callers, closing.returned⟩
  | @lockCaller caller request stage =>
      have mine := closing.callers caller
      rw [stage] at mine
      cases request with
      | pushTask => simp [CallerStage.isPushing] at mine
      | stop => exact closing.of_caller rfl rfl rfl id rfl
  | @perform caller request stage =>
      have mine := closing.callers caller
      rw [stage] at mine
      cases request with
      | pushTask => simp [CallerStage.isPushing] at mine
      | stop => exact closing.of_caller rfl rfl rfl id rfl
  | notifyPush | notifyStop =>
      refine closing.of_caller rfl rfl rfl ?_ rfl
      simp only [setCaller]
      cases state.loop <;> simp [LoopStage.notified]
  | join => exact closing.of_caller rfl rfl rfl id rfl
  | @call caller stage request =>
      cases request with
      | pushTask task => exact absurd rfl (noPush caller task)
      | stop => exact closing.of_caller rfl rfl rfl id rfl

end Closing

/-- Once every push has reached the queue of a loop that runs, the destructor is joined only after
all of these tasks have been executed, whatever else still locks the mutex. -/
theorem join_afterAll {db : Db} (reached : Run.Reaches step (fun _ _ => True) (start db) state)
    (running : state.loop ≠ .returned)
    (settled : ∀ caller, (state.callers caller).isPushing = false)
    (closed : Run.Reaches step NoPush state final) (caller : Caller)
    (joining : final.callers caller = .joining)
    (joined : (final.step (.caller caller)).isSome = true) :
    final.executed.map Prod.fst = state.pushed ∧ final.taskQueue = [] := by
  have closing : Closing state.pushed final :=
    closed.invariant ⟨rfl, settled, fun returned => absurd returned running⟩
      fun _ _ _ holds noPush stepped => holds.step noPush stepped
  have returned : final.loop = .returned := by
    rw [step, stepCaller, joining] at joined
    cases loop : final.loop <;> simp [loop] at joined ⊢
  have tasks := (ordered_of_reaches (reached.trans (closed.mono fun _ _ _ => trivial))).tasks
  have empty := closing.returned returned
  refine ⟨?_, empty⟩
  rw [← closing.pushed]
  simpa [view, ThreadState.inHand, returned, LoopStage.position, empty] using tasks

/-- The destructor requests the stop before the loop has woken for a pushed task. -/
theorem join_afterAll_late :
    let count : ThreadTask ℕ ℕ ℕ := ⟨some fun db => some (db + 1, db), none⟩
    let state : LockedState Unit ℕ ℕ ℕ := Run.runAll step
      [.loop, .loop, .loop, .call () (.pushTask count), .caller (), .caller (), .caller ()]
      (start 4)
    let final := Run.runAll step
      [.call () .stop, .caller (), .caller (), .caller (), .loop, .loop, .loop, .loop, .loop, .loop,
        .loop, .loop] state
    final.db = 5 ∧ final.executed.map Prod.fst = state.pushed ∧ final.taskQueue = [] :=
  ⟨rfl, join_afterAll (Run.reaches_runAll (by simp [Run.Allowed]) rfl) (by simp [Run.runAll,
    Run.follow, step, stepLoop, stepCaller, start, due, setCaller, perform, LoopStage.notified])
    (fun _ => rfl) (Run.reaches_runAll (by simp [Run.Allowed, NoPush]) rfl) () rfl rfl⟩

end LockedState

end GodotStream
