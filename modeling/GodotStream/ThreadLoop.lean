import GodotStream.AsyncDbWorker
import GodotStream.Lib.Run

/-!
# The thread loop

`AsyncDbWorker` between its lock releases: the loop takes a task, runs its work and
queues its callback in separate steps, while other parties push tasks, deliver
callbacks and ask it to stop. The histories of pushed tasks, executed works and run
callbacks show that it is a queue in which every task passes once and in order.
-/

namespace GodotStream

universe u v w

variable {Db : Type u} {Result : Type v} {Reply : Type w}

/-- A task; either function may be empty. A work that does not return has no result. -/
structure ThreadTask (Db : Type u) (Result : Type v) (Reply : Type w) where
  work : Option (Db → Option (Db × Result))
  onComplete : Option (Option Result → Reply)

namespace ThreadTask

def run (task : ThreadTask Db Result Reply) (db : Db) : Option (Db × Option Result) :=
  match task.work with
  | none => some (db, none)
  | some work => (work db).map fun done => (done.1, some done.2)

/-- The callback of an executed task, bound to the result of its work. -/
def reply (entry : ThreadTask Db Result Reply × Option Result) : Option Reply :=
  entry.1.onComplete.map fun onComplete => onComplete entry.2

end ThreadTask

/-- Where `thread_loop` stands between two lock releases. -/
inductive LoopPosition (Db : Type u) (Result : Type v) (Reply : Type w) where
  | waiting
  | taken (task : ThreadTask Db Result Reply)
  | worked (task : ThreadTask Db Result Reply) (result : Option Result)
  | returned

/-- The last three fields are histories. -/
structure ThreadState (Db : Type u) (Result : Type v) (Reply : Type w) where
  db : Db
  taskQueue : List (ThreadTask Db Result Reply)
  completedCallbacks : List Reply
  stop : Bool
  position : LoopPosition Db Result Reply
  /-- The queue that a running `_flush_callbacks` has swapped out. -/
  delivering : Option (List Reply)
  pushed : List (ThreadTask Db Result Reply)
  executed : List (ThreadTask Db Result Reply × Option Result)
  ran : List Reply

inductive ThreadEvent (Db : Type u) (Result : Type v) (Reply : Type w) where
  | pushTask (task : ThreadTask Db Result Reply)
  | takeTask
  | runWork
  | queueCallback
  | returnLoop
  | requestStop
  | beginFlush
  | runCallback
  | endFlush

namespace ThreadState

def start (db : Db) : ThreadState Db Result Reply :=
  { db
    taskQueue := []
    completedCallbacks := []
    stop := false
    position := .waiting
    delivering := none
    pushed := []
    executed := []
    ran := [] }

def step (state : ThreadState Db Result Reply) :
    ThreadEvent Db Result Reply → Option (ThreadState Db Result Reply)
  | .pushTask task =>
      some { state with
        taskQueue := state.taskQueue ++ [task]
        pushed := state.pushed ++ [task] }
  | .takeTask =>
      match state.position, state.taskQueue with
      | .waiting, task :: rest => some { state with position := .taken task, taskQueue := rest }
      | _, _ => none
  | .runWork =>
      match state.position with
      | .taken task =>
          (task.run state.db).map fun done =>
            { state with
              db := done.1
              position := .worked task done.2
              executed := state.executed ++ [(task, done.2)] }
      | _ => none
  | .queueCallback =>
      match state.position with
      | .worked task result =>
          some { state with
            position := .waiting
            completedCallbacks :=
              state.completedCallbacks ++ (ThreadTask.reply (task, result)).toList }
      | _ => none
  | .returnLoop =>
      match state.position, state.taskQueue with
      | .waiting, [] => if state.stop then some { state with position := .returned } else none
      | _, _ => none
  | .requestStop => some { state with stop := true }
  | .beginFlush =>
      match state.delivering with
      | none =>
          some { state with
            delivering := some state.completedCallbacks
            completedCallbacks := [] }
      | some _ => none
  | .runCallback =>
      match state.delivering with
      | some (callback :: rest) =>
          some { state with delivering := some rest, ran := state.ran ++ [callback] }
      | _ => none
  | .endFlush =>
      match state.delivering with
      | some [] => some { state with delivering := none }
      | _ => none

/-- The executed works led from one database to the other, each run on what the earlier ones
left. -/
inductive Replays (origin : Db) :
    List (ThreadTask Db Result Reply × Option Result) → Db → Prop where
  | nil : Replays origin [] origin
  | snoc {entries : List (ThreadTask Db Result Reply × Option Result)} {middle after : Db}
      {task : ThreadTask Db Result Reply} {result : Option Result}
      (before : Replays origin entries middle) (ran : task.run middle = some (after, result)) :
      Replays origin (entries ++ [(task, result)]) after

/-- The task that the loop has taken and not run. -/
def inHand (state : ThreadState Db Result Reply) : List (ThreadTask Db Result Reply) :=
  match state.position with
  | .taken task => [task]
  | _ => []

/-- The callback that the loop has not queued yet. -/
def owed (state : ThreadState Db Result Reply) : List Reply :=
  match state.position with
  | .worked task result => (ThreadTask.reply (task, result)).toList
  | _ => []

/-- Every task is executed, in hand or queued, and every callback of an executed task has run, is
being delivered, is queued or owed; in this order. -/
structure Ordered (origin : Db) (state : ThreadState Db Result Reply) : Prop where
  tasks : state.executed.map Prod.fst ++ (state.inHand ++ state.taskQueue) = state.pushed
  callbacks : state.ran ++ (state.delivering.getD [] ++ (state.completedCallbacks ++ state.owed)) =
    state.executed.filterMap ThreadTask.reply
  database : Replays origin state.executed state.db

variable {origin : Db} {state next : ThreadState Db Result Reply}

theorem ordered_start (origin : Db) : Ordered origin (start origin : ThreadState Db Result Reply) :=
  ⟨rfl, rfl, .nil⟩

theorem Ordered.step (ordered : Ordered origin state) {event : ThreadEvent Db Result Reply}
    (stepped : state.step event = some next) : Ordered origin next := by
  rcases ordered with ⟨tasks, callbacks, database⟩
  cases event with
  | pushTask task =>
      rw [← Option.some.inj stepped]
      refine ⟨?_, callbacks, database⟩
      rw [← tasks]
      simp [inHand]
  | takeTask =>
      simp only [ThreadState.step] at stepped
      split at stepped
      case h_1 task rest position queued =>
        rw [← Option.some.inj stepped]
        simp only [inHand, owed, position, queued] at tasks callbacks ⊢
        exact ⟨tasks, callbacks, database⟩
      case h_2 => simp at stepped
  | runWork =>
      simp only [ThreadState.step] at stepped
      split at stepped
      case h_1 task position =>
        rcases Option.map_eq_some_iff.mp stepped with ⟨done, ran, rfl⟩
        simp only [inHand, owed, position] at tasks callbacks
        refine ⟨?_, ?_, .snoc database ran⟩
        · rw [← tasks]
          simp [inHand]
        · rw [List.filterMap_append, ← callbacks]
          simp only [owed, List.append_nil, List.append_assoc]
          cases reply : ThreadTask.reply (task, done.2) <;> simp [reply]
      case h_2 => simp at stepped
  | queueCallback =>
      simp only [ThreadState.step] at stepped
      split at stepped
      case h_1 task result position =>
        rw [← Option.some.inj stepped]
        simp only [inHand, owed, position] at tasks callbacks ⊢
        refine ⟨tasks, ?_, database⟩
        simpa only [owed, List.append_nil] using callbacks
      case h_2 => simp at stepped
  | returnLoop =>
      simp only [ThreadState.step] at stepped
      split at stepped
      case h_1 position queued =>
        split at stepped
        · rw [← Option.some.inj stepped]
          simp only [inHand, owed, position] at tasks callbacks ⊢
          exact ⟨tasks, callbacks, database⟩
        · simp at stepped
      case h_2 => simp at stepped
  | requestStop =>
      rw [← Option.some.inj stepped]
      exact ⟨tasks, callbacks, database⟩
  | beginFlush =>
      simp only [ThreadState.step] at stepped
      split at stepped
      case h_1 idle =>
        rw [← Option.some.inj stepped]
        refine ⟨tasks, ?_, database⟩
        rw [← callbacks, idle]
        simp [owed]
      case h_2 => simp at stepped
  | runCallback =>
      simp only [ThreadState.step] at stepped
      split at stepped
      case h_1 callback rest delivering =>
        rw [← Option.some.inj stepped]
        refine ⟨tasks, ?_, database⟩
        rw [← callbacks, delivering]
        simp [owed]
      case h_2 => simp at stepped
  | endFlush =>
      simp only [ThreadState.step] at stepped
      split at stepped
      case h_1 delivering =>
        rw [← Option.some.inj stepped]
        refine ⟨tasks, ?_, database⟩
        rw [← callbacks, delivering]
        simp [owed]
      case h_2 => simp at stepped

/-- For every schedule: works run in push order, callbacks run in the order of their works, each
once and after its work, the loop returns with nothing left, and each work sees the effects of all
tasks before it. -/
theorem threadLoop_ordered
    (reached : Run.Reaches step (fun _ _ => True) (start origin) state) :
    state.executed.map Prod.fst <+: state.pushed ∧
    state.ran <+: state.executed.filterMap ThreadTask.reply ∧
    (∀ next, state.step .returnLoop = some next → state.executed.map Prod.fst = state.pushed) ∧
    Replays origin state.executed state.db := by
  have ordered : Ordered origin state :=
    reached.invariant (ordered_start origin) fun _ _ _ holds _ stepped => holds.step stepped
  refine ⟨⟨_, ordered.tasks⟩, ⟨_, ordered.callbacks⟩, ?_, ordered.database⟩
  intro next stepped
  rw [← ordered.tasks]
  simp only [step] at stepped
  split at stepped
  case h_1 position queued => simp [inHand, position, queued]
  case h_2 => simp at stepped

/-- A flush task and a query pushed behind it, with their callbacks run at the end. -/
theorem threadLoop_queryAfterFlush :
    let flush : ThreadTask ℕ ℕ ℕ := ⟨some fun db => some (db + 1, 0), none⟩
    let query : ThreadTask ℕ ℕ ℕ := ⟨some fun db => some (db, db), some fun result => result.getD 0⟩
    let final := Run.runAll step
      [.pushTask flush, .pushTask query, .takeTask, .runWork, .requestStop, .queueCallback,
        .takeTask, .runWork, .beginFlush, .queueCallback, .endFlush, .returnLoop, .beginFlush,
        .runCallback] (start 0)
    final.ran = [1] ∧
    final.executed.map Prod.fst <+: final.pushed ∧
    final.ran <+: final.executed.filterMap ThreadTask.reply ∧
    (∀ next, final.step .returnLoop = some next → final.executed.map Prod.fst = final.pushed) ∧
    Replays 0 final.executed final.db :=
  ⟨rfl, threadLoop_ordered (Run.reaches_runAll (by simp [Run.Allowed]) rfl)⟩

end ThreadState

section Worker

/-- A task of the manager, with the callback that its result is bound to. -/
def Task.toThreadTask (task : Task) : ThreadTask StreamSqliteDB Callback Callback :=
  { work := some task.run
    onComplete := some fun result => result.getD .nothing }

/-- The thread waits for the tasks of `worker`. -/
structure Represents (worker : AsyncDbWorker)
    (state : ThreadState StreamSqliteDB Callback Callback) : Prop where
  db : state.db = worker.db
  tasks : state.taskQueue = worker.taskQueue.map Task.toThreadTask
  callbacks : state.completedCallbacks = worker.completedCallbacks
  position : state.position = .waiting
  delivering : state.delivering = none

variable {worker next : AsyncDbWorker} {state : ThreadState StreamSqliteDB Callback Callback}

theorem Represents.pushTask (represents : Represents worker state) (task : Task) :
    ∃ after, state.step (.pushTask task.toThreadTask) = some after ∧
      Represents (worker.pushTask task) after := by
  refine ⟨_, rfl, represents.db, ?_, represents.callbacks, represents.position,
    represents.delivering⟩
  simp only [represents.tasks, AsyncDbWorker.pushTask, List.map_append, List.map_cons,
    List.map_nil]

/-- One round of the worker is a task taken, run and completed with nothing in between. -/
theorem Represents.runNext (represents : Represents worker state)
    (ran : worker.runNext = some next) :
    ∃ after, Run.follow ThreadState.step [.takeTask, .runWork, .queueCallback] state = some after ∧
      Represents next after := by
  rcases AsyncDbWorker.runNext_cases ran with ⟨task, db, callback, queued, taskRun, rfl, callbacks⟩
  have tasks := represents.tasks
  rw [queued, List.map_cons] at tasks
  have runEq : task.toThreadTask.run state.db = some (next.db, some callback) := by
    simp only [ThreadTask.run, Task.toThreadTask, represents.db, taskRun, Option.map_some]
  have replyEq : ThreadTask.reply (task.toThreadTask, some callback) = some callback := rfl
  simp only [Run.follow, ThreadState.step, represents.position, tasks, Option.bind_some, runEq,
    Option.map_some, replyEq]
  refine ⟨_, rfl, rfl, rfl, ?_, rfl, represents.delivering⟩
  simp only [represents.callbacks, callbacks, Option.toList_some]

end Worker

end GodotStream
