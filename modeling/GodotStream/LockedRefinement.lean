import GodotStream.Lib.Progress
import GodotStream.ThreadLocks

/-!
# The thread loop behind its lock

The machine of `ThreadState`, whose steps reach from one lock release to the next,
has all runs of the machine with the mutex and the condition variable. What holds of
every schedule there holds under every interleaving here.
-/

namespace GodotStream

universe u v w x

namespace LockedState

variable {Caller : Type x} {Db : Type u} {Result : Type v} {Reply : Type w} [DecidableEq Caller]
  {state next : LockedState Caller Db Result Reply}

/-- What is left of a state between two lock releases. -/
def view (state : LockedState Caller Db Result Reply) : ThreadState Db Result Reply :=
  { db := state.db
    taskQueue := state.taskQueue
    completedCallbacks := state.completedCallbacks
    stop := state.stop
    position := state.loop.position
    delivering := state.flusher.delivery
    pushed := state.pushed
    executed := state.executed
    ran := state.ran }

theorem view_step {event : LockEvent Caller Db Result Reply}
    (stepped : state.step event = some next) :
    next.view = state.view ∨ ∃ action, state.view.step action = some next.view := by
  cases step_move stepped with
  | lock loop | find loop | miss loop | park loop | report loop | lockQueueing loop | wake loop =>
      simp [view, loop, LoopStage.position]
  | leave loop queued stop =>
      exact Or.inr ⟨.returnLoop, by
        simp [view, ThreadState.step, loop, queued, stop, LoopStage.position]⟩
  | take loop queued =>
      exact Or.inr ⟨.takeTask, by simp [view, ThreadState.step, loop, queued, LoopStage.position]⟩
  | work loop ran =>
      exact Or.inr ⟨.runWork, by simp [view, ThreadState.step, loop, ran, LoopStage.position]⟩
  | forgo loop onComplete =>
      -- No callback to queue: the other machine queues nothing here.
      exact Or.inr ⟨.queueCallback, by
        simp [view, ThreadState.step, loop, ThreadTask.reply, onComplete, LoopStage.position]⟩
  | store loop =>
      exact Or.inr ⟨.queueCallback, by simp [view, ThreadState.step, loop, LoopStage.position]⟩
  | lockFlusher flusher | flush flusher => simp [view, flusher, FlushStage.delivery]
  | swap flusher =>
      exact Or.inr ⟨.beginFlush, by simp [view, ThreadState.step, flusher, FlushStage.delivery]⟩
  | deliver flusher =>
      exact Or.inr ⟨.runCallback, by simp [view, ThreadState.step, flusher, FlushStage.delivery]⟩
  | delivered flusher =>
      exact Or.inr ⟨.endFlush, by simp [view, ThreadState.step, flusher, FlushStage.delivery]⟩
  | @perform caller request stage =>
      right
      cases request with
      | pushTask task => exact ⟨.pushTask task, rfl⟩
      | stop => exact ⟨.requestStop, rfl⟩
  | notifyPush | notifyStop => simp [view, setCaller]
  | lockCaller | join | call => exact Or.inl rfl

theorem view_of_reaches {db : Db} {guard : LockedState Caller Db Result Reply →
    LockEvent Caller Db Result Reply → Prop}
    (reached : Run.Reaches step guard (start db) state) :
    Run.Reaches ThreadState.step (fun _ _ => True) (ThreadState.start db) state.view := by
  apply reached.simulate view
  intro state event next _ stepped
  exact (view_step stepped).imp_right fun ⟨action, moved⟩ => ⟨action, trivial, moved⟩

theorem ordered_of_reaches {db : Db} {guard : LockedState Caller Db Result Reply →
    LockEvent Caller Db Result Reply → Prop}
    (reached : Run.Reaches step guard (start db) state) : ThreadState.Ordered db state.view :=
  (view_of_reaches reached).invariant (ThreadState.ordered_start db)
    fun _ _ _ holds _ stepped => holds.step stepped

/-- Every interleaving is a schedule of the machine between the lock releases: works run in push
order, callbacks in the order of their works, and each work sees what the earlier ones left. -/
theorem interleaving_ordered {db : Db}
    (reached : Run.Reaches step (fun _ _ => True) (start db) state) :
    Run.Reaches ThreadState.step (fun _ _ => True) (ThreadState.start db) state.view ∧
    state.executed.map Prod.fst <+: state.pushed ∧
    state.ran <+: state.executed.filterMap ThreadTask.reply ∧
    ThreadState.Replays db state.executed state.db := by
  have ordered := ordered_of_reaches reached
  exact ⟨view_of_reaches reached, ⟨_, ordered.tasks⟩, ⟨_, ordered.callbacks⟩, ordered.database⟩

/-- A push that is called while the loop is about to sleep wakes it, and its callback is run. -/
theorem interleaving_ordered_woken :
    let count : ThreadTask ℕ ℕ ℕ := ⟨some fun db => some (db + 1, db), some fun got => got.getD 9⟩
    let final : LockedState Bool ℕ ℕ ℕ := Run.runAll step
      [.loop, .loop, .call true (.pushTask count), .loop, .caller true, .caller true, .caller true,
        .loop, .loop, .loop, .loop, .loop, .loop, .flush, .loop, .flusher, .flusher, .flusher]
      (start 4)
    final.ran = [4] ∧
    Run.Reaches ThreadState.step (fun _ _ => True) (ThreadState.start 4) final.view ∧
    final.executed.map Prod.fst <+: final.pushed ∧
    final.ran <+: final.executed.filterMap ThreadTask.reply ∧
    ThreadState.Replays 4 final.executed final.db :=
  ⟨rfl, interleaving_ordered (Run.reaches_runAll (by simp [Run.Allowed]) rfl)⟩

end LockedState

end GodotStream
