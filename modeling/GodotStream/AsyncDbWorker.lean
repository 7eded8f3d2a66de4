import GodotStream.FlushTask

/-!
# The database thread

A FIFO of tasks that the database thread executes one after another, and the FIFO
of their callbacks, which the main thread runs all at once. Taking a task, running
it and queueing its callback is one step; a flush whose walk does not end leaves
the thread without a step.
-/

namespace GodotStream

open Storage

/-- `AsyncDbWorker::Task` as the manager builds them. -/
inductive Task where
  | init
  | flush (batch : FlushBatch)
  | query (aabbs : List AABB)

/-- What the main thread runs when a task has completed. -/
inductive Callback where
  | nothing
  | onQueryResult (dbObjects : Table Uuid ObjectData)

/-- The work of a task and the callback that it leaves. -/
def Task.run (task : Task) (db : StreamSqliteDB) : Option (StreamSqliteDB × Callback) :=
  match task with
  | .init => some (db, .nothing)
  | .flush batch => (flushTask batch db).map fun state => (state.db, .nothing)
  | .query aabbs => some (db, .onQueryResult (db.queryObjectsAny aabbs))

structure AsyncDbWorker where
  db : StreamSqliteDB
  taskQueue : List Task
  completedCallbacks : List Callback

namespace AsyncDbWorker

def pushTask (worker : AsyncDbWorker) (task : Task) : AsyncDbWorker :=
  { worker with taskQueue := worker.taskQueue ++ [task] }

/-- One round of `thread_loop`. -/
def runNext (worker : AsyncDbWorker) : Option AsyncDbWorker :=
  match worker.taskQueue with
  | [] => none
  | task :: rest =>
      (task.run worker.db).map fun done =>
        { db := done.1
          taskQueue := rest
          completedCallbacks := worker.completedCallbacks ++ [done.2] }

/-- What one round does: it takes the first task and queues its callback. -/
theorem runNext_cases {worker next : AsyncDbWorker} (ran : worker.runNext = some next) :
    ∃ task db callback, worker.taskQueue = task :: next.taskQueue ∧
      task.run worker.db = some (db, callback) ∧ next.db = db ∧
      next.completedCallbacks = worker.completedCallbacks ++ [callback] := by
  simp only [runNext] at ran
  split at ran
  · simp at ran
  case h_2 task rest queued =>
    rcases Option.map_eq_some_iff.mp ran with ⟨done, doneEq, rfl⟩
    exact ⟨task, done.1, done.2, queued, doneEq, rfl, rfl⟩

/-- A waiting result was waiting before the round or answers the query that was run. -/
theorem result_of_runNext {worker next : AsyncDbWorker} {dbObjects : Table Uuid ObjectData}
    (ran : worker.runNext = some next)
    (completed : Callback.onQueryResult dbObjects ∈ next.completedCallbacks) :
    Callback.onQueryResult dbObjects ∈ worker.completedCallbacks ∨
      next.db = worker.db ∧ ∃ aabbs, dbObjects = worker.db.queryObjectsAny aabbs := by
  rcases runNext_cases ran with ⟨task, db, callback, _, taskRun, dbEq, callbacks⟩
  rw [callbacks, List.mem_append, List.mem_singleton] at completed
  rcases completed with old | rfl
  · exact Or.inl old
  · cases task with
    | init => simp [Task.run] at taskRun
    | flush batch => simp [Task.run] at taskRun
    | query aabbs =>
        simp only [Task.run, Option.some.injEq, Prod.mk.injEq, Callback.onQueryResult.injEq]
          at taskRun
        exact Or.inr ⟨by rw [dbEq, ← taskRun.1], aabbs, taskRun.2.symm⟩

/-- Execute every queued task. -/
def drain : List Task → StreamSqliteDB → Option StreamSqliteDB
  | [], db => some db
  | task :: rest, db => (task.run db).bind fun done => drain rest done.1

end AsyncDbWorker

end GodotStream
