import GodotStream.WorkerPool

/-!
# The tasks of shared workers

Whatever the managers and the threads do, a worker runs the tasks that were pushed to it
once each and in their order, also those that are left when its last manager lets go of
it. The callbacks that are called are those of the tasks that were run, once each and in
the same order; only the ones that wait when a worker is destroyed are never called.
-/

namespace GodotStream

open Storage Run

namespace WorkerPool

variable {Task : Type} {completes : Task → Bool} {pool : WorkerPool Task}

/-- The tasks of one worker in a log. -/
def logged (log : List (ObjectID × Task)) (id : ObjectID) : List Task :=
  (log.filter fun entry => entry.1 = id).map Prod.snd

theorem logged_append (first second : List (ObjectID × Task)) (id : ObjectID) :
    logged (first ++ second) id = logged first id ++ logged second id := by
  rw [logged, List.filter_append, List.map_append]
  rfl

theorem logged_map (tasks : List Task) (own id : ObjectID) :
    logged (tasks.map fun task => (own, task)) id = if id = own then tasks else [] := by
  induction tasks with
  | nil => simp [logged]
  | cons task rest ih =>
      rw [logged] at ih ⊢
      by_cases same : id = own
      · rw [if_pos same] at ih ⊢
        rw [List.map_cons, List.filter_cons_of_pos (by simp [same]), List.map_cons, ih]
      · rw [if_neg same] at ih ⊢
        rw [List.map_cons, List.filter_cons_of_neg (by simp [Ne.symm same]), ih]

theorem logged_eq_nil {log : List (ObjectID × Task)} {id : ObjectID}
    (absent : ∀ entry ∈ log, entry.1 ≠ id) : logged log id = [] := by
  rw [logged, List.map_eq_nil_iff, List.filter_eq_nil_iff]
  exact fun entry listed => by simpa using absent entry listed

/-- The tasks that a worker has yet to run. -/
def pending (pool : WorkerPool Task) (id : ObjectID) : List Task :=
  (pool.workers.get? id).elim [] fun worker => worker.running.toList ++ worker.taskQueue

/-- The callbacks that wait for a flush. -/
def waiting (pool : WorkerPool Task) (id : ObjectID) : List Task :=
  (pool.workers.get? id).elim [] PooledWorker.completedCallbacks

/-- The logs agree with what is pending and waiting. -/
structure Ledger (completes : Task → Bool) (pool : WorkerPool Task) : Prop where
  issued : ∀ entry ∈ pool.pushed, entry.1 < pool.nextId
  tasks (id : ObjectID) : logged pool.pushed id = logged pool.executed id ++ pool.pending id
  callbacks (id : ObjectID) : id ∈ pool.workers →
    (logged pool.executed id).filter completes = logged pool.called id ++ pool.waiting id
  order (id : ObjectID) : logged pool.called id <+: (logged pool.executed id).filter completes

theorem ledger_empty : Ledger completes ({} : WorkerPool Task) where
  issued := nofun
  tasks _ := rfl
  callbacks _ live := absurd live (Table.not_mem_empty _)
  order _ := List.prefix_refl _

theorem Ledger.destroy (ledger : pool.Ledger completes) (id : ObjectID) :
    (pool.destroy id).Ledger completes := by
  have kept := kept_destroy pool id
  have workers := workers_destroy pool id
  have executed (other : ObjectID) : logged (pool.destroy id).executed other =
      logged pool.executed other ++ if other = id then pool.pending id else [] := by
    rw [WorkerPool.destroy, pending]
    cases pool.workers.get? id with
    | none => simp
    | some worker => exact (logged_append ..).trans (by rw [logged_map]; rfl)
  refine ⟨?_, ?_, ?_, ?_⟩
  · rw [kept.1, kept.2.2.2.1]
    exact ledger.issued
  · intro other
    have left : (pool.destroy id).pending other =
        if other = id then [] else pool.pending other := by
      rw [pending, workers, Table.get?_erase]
      split <;> rfl
    rw [kept.2.2.2.1, executed, ledger.tasks, left]
    by_cases same : other = id
    · rw [if_pos same, if_pos same, same, List.append_nil]
    · rw [if_neg same, if_neg same, List.append_nil]
  · intro other live
    rw [workers, Table.mem_erase] at live
    rw [executed, kept.2.2.2.2, if_neg live.1, List.append_nil, ledger.callbacks other live.2,
      waiting, waiting, workers, Table.get?_erase_of_ne live.1]
  · intro other
    rw [executed, kept.2.2.2.2, List.filter_append]
    exact (ledger.order other).trans (List.prefix_append _ _)

theorem Ledger.assign (ledger : pool.Ledger completes) (manager : ℕ) (found : Option ObjectID) :
    (pool.assign manager found).Ledger completes := by
  rw [WorkerPool.assign.eq_def]
  generalize found.elim (pool.held.erase manager) (pool.held.insert manager) = held
  have now : Ledger completes { pool with held } :=
    ⟨ledger.issued, ledger.tasks, ledger.callbacks, ledger.order⟩
  cases pool.held.get? manager with
  | none => exact now
  | some old =>
      dsimp only
      rw [unreference.eq_def]
      split
      · exact now
      · exact now.destroy old

theorem Ledger.makeDb (ledger : pool.Ledger completes) (sound : pool.Sound) (path : String)
    (readOnly : Bool) : (pool.makeDb path readOnly).2.Ledger completes := by
  by_cases named : path = ""
  · rw [WorkerPool.makeDb, if_pos named]
    exact ledger
  · rcases sound.makeDb named readOnly with ⟨id, -, made⟩
    rcases made.workers with unchanged | ⟨fresh, nextId, workers⟩
    · rw [unchanged]
      exact ledger
    · have unpushed : logged pool.pushed id = [] :=
        logged_eq_nil fun entry listed =>
          fresh ▸ Nat.ne_of_lt (ledger.issued entry listed)
      have unworked := ledger.tasks id
      rw [unpushed, eq_comm, List.append_eq_nil_iff] at unworked
      have uncalled : logged pool.called id = [] := by
        have order := ledger.order id
        rw [unworked.1, List.filter_nil, List.prefix_nil] at order
        exact order
      refine ⟨?_, ?_, ?_, ?_⟩
      · rw [made.pushed, nextId]
        exact fun entry listed => Nat.lt_succ_of_lt (ledger.issued entry listed)
      · intro other
        rw [made.pushed, made.executed, ledger.tasks, pending, pending, workers,
          Table.get?_insert]
        by_cases same : other = id
        · rw [if_pos same, same, ← pending, unworked.2]
          rfl
        · rw [if_neg same]
      · intro other live
        rw [made.executed, made.called, waiting, workers, Table.get?_insert]
        by_cases same : other = id
        · rw [if_pos same, same, unworked.1, uncalled]
          rfl
        · rw [workers, Table.mem_insert] at live
          rw [if_neg same]
          exact ledger.callbacks other (live.resolve_left same)
      · intro other
        rw [made.executed, made.called]
        exact ledger.order other

/-- Work on one worker: tasks are pushed behind its pending ones, some of those in front are run,
and some of the waiting callbacks are called. -/
structure Works (completes : Task → Bool) (pool after : WorkerPool Task) (id : ObjectID)
    (worker changed : PooledWorker Task) (pushes runs calls : List Task) : Prop where
  found : pool.workers.get? id = some worker
  workers : after.workers = pool.workers.insert id changed
  nextId : after.nextId = pool.nextId
  pushed : after.pushed = pool.pushed ++ pushes.map fun task => (id, task)
  executed : after.executed = pool.executed ++ runs.map fun task => (id, task)
  called : after.called = pool.called ++ calls.map fun task => (id, task)
  tasks : worker.running.toList ++ worker.taskQueue ++ pushes =
    runs ++ (changed.running.toList ++ changed.taskQueue)
  callbacks : worker.completedCallbacks ++ runs.filter completes =
    calls ++ changed.completedCallbacks

theorem Ledger.work (ledger : pool.Ledger completes) (sound : pool.Sound)
    {after : WorkerPool Task} {id : ObjectID} {worker changed : PooledWorker Task}
    {pushes runs calls : List Task}
    (works : Works completes pool after id worker changed pushes runs calls) :
    after.Ledger completes := by
  have live := Table.mem_of_get? works.found
  have log {before later : List (ObjectID × Task)} {tasks : List Task}
      (grown : later = before ++ tasks.map fun task => (id, task)) (other : ObjectID) :
      logged later other = logged before other ++ if other = id then tasks else [] := by
    rw [grown, logged_append, logged_map]
  have called : (logged after.executed id).filter completes =
      logged after.called id ++ after.waiting id := by
    have old := ledger.callbacks id live
    rw [waiting, works.found, Option.elim_some] at old
    rw [log works.executed, log works.called, if_pos rfl, if_pos rfl, List.filter_append, old,
      List.append_assoc, works.callbacks, waiting, works.workers, Table.get?_insert_self,
      Option.elim_some, List.append_assoc]
  refine ⟨?_, ?_, ?_, ?_⟩
  · intro entry listed
    rw [works.pushed, List.mem_append] at listed
    rw [works.nextId]
    rcases listed with old | new
    · exact ledger.issued entry old
    · rcases List.mem_map.mp new with ⟨task, -, rfl⟩
      exact sound.issued id live
  · intro other
    rw [log works.pushed, log works.executed, ledger.tasks, pending, pending, works.workers,
      Table.get?_insert]
    by_cases same : other = id
    · rw [if_pos same, if_pos same, if_pos same, same, works.found, Option.elim_some,
        Option.elim_some, List.append_assoc, works.tasks, List.append_assoc]
    · rw [if_neg same, if_neg same, if_neg same, List.append_nil, List.append_nil]
  · intro other otherLive
    by_cases same : other = id
    · rw [same]
      exact called
    · rw [works.workers, Table.mem_insert] at otherLive
      rw [log works.executed, log works.called, if_neg same, if_neg same, List.append_nil,
        List.append_nil, ledger.callbacks other (otherLive.resolve_left same), waiting, waiting,
        works.workers, Table.get?_insert_of_ne _ same]
  · intro other
    by_cases same : other = id
    · rw [same, called]
      exact List.prefix_append _ _
    · rw [log works.executed, log works.called, if_neg same, if_neg same, List.append_nil,
        List.append_nil]
      exact ledger.order other

theorem Ledger.step (ledger : pool.Ledger completes) (sound : pool.Sound)
    {event : PoolEvent Task} {next : WorkerPool Task}
    (stepped : pool.step completes event = some next) : next.Ledger completes := by
  cases event with
  | makeDb manager path readOnly =>
      obtain rfl := Option.some.inj stepped
      exact (ledger.makeDb sound path readOnly).assign manager _
  | leave manager =>
      obtain rfl := Option.some.inj stepped
      exact ledger.assign manager none
  | pushTask manager task =>
      simp only [WorkerPool.step, Option.bind_eq_bind, Option.bind_eq_some_iff] at stepped
      rcases stepped with ⟨id, -, worker, found, ⟨⟩⟩
      refine ledger.work sound (?_ : Works completes pool _ id worker
        { worker with taskQueue := worker.taskQueue ++ [task] } [task] [] [])
      refine ⟨found, rfl, rfl, rfl, (List.append_nil _).symm, (List.append_nil _).symm, ?_,
        List.append_nil _⟩
      exact List.append_assoc ..
  | take id =>
      simp only [WorkerPool.step, Option.bind_eq_bind, Option.bind_eq_some_iff] at stepped
      rcases stepped with ⟨worker, found, took⟩
      split at took
      case h_1 task rest idle queued =>
        obtain rfl := Option.some.inj took
        refine ledger.work sound (?_ : Works completes pool _ id worker
          { worker with running := some task, taskQueue := rest } [] [] [])
        refine ⟨found, rfl, rfl, (List.append_nil _).symm, (List.append_nil _).symm,
          (List.append_nil _).symm, ?_, List.append_nil _⟩
        rw [idle, queued, List.append_nil]
        rfl
      case h_2 => exact absurd took (by simp)
  | finish id =>
      simp only [WorkerPool.step, Option.bind_eq_bind, Option.bind_eq_some_iff] at stepped
      rcases stepped with ⟨worker, found, task, running, ⟨⟩⟩
      refine ledger.work sound (?_ : Works completes pool _ id worker
        { worker with
          running := none
          completedCallbacks :=
            worker.completedCallbacks ++ if completes task then [task] else [] } [] [task] [])
      refine ⟨found, rfl, rfl, (List.append_nil _).symm, rfl, (List.append_nil _).symm, ?_, ?_⟩
      · rw [running, List.append_nil]
        rfl
      · rw [List.filter_singleton, Bool.cond_eq_ite]
        rfl
  | flushCallbacks id =>
      simp only [WorkerPool.step, Option.bind_eq_bind, Option.bind_eq_some_iff] at stepped
      rcases stepped with ⟨worker, found, ⟨⟩⟩
      refine ledger.work sound (?_ : Works completes pool _ id worker
        { worker with completedCallbacks := [] } [] [] worker.completedCallbacks)
      refine ⟨found, rfl, rfl, (List.append_nil _).symm, (List.append_nil _).symm, rfl, ?_, rfl⟩
      exact List.append_nil _

theorem Ledger.follow {events : List (PoolEvent Task)} {asked : ℕ → Option DbKey}
    (ledger : pool.Ledger completes) (shares : pool.Shares asked) {final : WorkerPool Task}
    (ran : Run.follow (WorkerPool.step completes) events pool = some final) :
    final.Ledger completes := by
  induction events generalizing pool asked with
  | nil => exact Option.some.inj ran ▸ ledger
  | cons event rest ih =>
      rw [Run.follow, Option.bind_eq_some_iff] at ran
      rcases ran with ⟨next, stepped, restRan⟩
      exact ih (ledger.step shares.sound stepped) (shares.step stepped) restRan

/-- After any run, the tasks that were pushed to a worker are those that it has run, in order,
and then those that are pending, of which a worker that is gone has none; the callbacks that
were called are those of the tasks that were run, in order, up to the ones that wait or, when
the worker is gone, were dropped with it. -/
theorem tasks_run_once {events : List (PoolEvent Task)} {final : WorkerPool Task}
    (ran : Run.follow (WorkerPool.step completes) events {} = some final) (id : ObjectID) :
    logged final.pushed id = logged final.executed id ++ final.pending id ∧
    (id ∉ final.workers → logged final.pushed id = logged final.executed id) ∧
    (id ∈ final.workers → (logged final.executed id).filter completes =
      logged final.called id ++ final.waiting id) ∧
    logged final.called id <+: (logged final.executed id).filter completes := by
  have ledger := ledger_empty.follow shares_empty ran
  refine ⟨ledger.tasks id, ?_, ledger.callbacks id, ledger.order id⟩
  intro gone
  rw [ledger.tasks, pending, Table.get?_eq_none.mpr gone, Option.elim_none, List.append_nil]

/-- The first worker has run all its tasks, and one of its callbacks was dropped with it. -/
theorem tasks_run_once_sharing :
    logged sharingPool.pushed 1 = logged sharingPool.executed 1 ++ sharingPool.pending 1 ∧
    (1 ∉ sharingPool.workers → logged sharingPool.pushed 1 = logged sharingPool.executed 1) ∧
    (1 ∈ sharingPool.workers →
      (logged sharingPool.executed 1).filter (fun task => task % 2 = 0) =
        logged sharingPool.called 1 ++ sharingPool.waiting 1) ∧
    logged sharingPool.called 1 <+:
      (logged sharingPool.executed 1).filter (fun task => task % 2 = 0) :=
  tasks_run_once follow_sharingEvents 1

end WorkerPool

end GodotStream
