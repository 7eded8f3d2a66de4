import GodotStream.Basic
import GodotStream.Lib.Run
import GodotStream.Lib.WeakIndex

/-!
# The workers that managers share

Model of `make_db` in `async_db_worker.cpp` for any number of managers, each with a
`db_worker_` of its own. A worker lives as long as a manager holds it; the static cache
knows it by its instance id only. Its thread takes a task, runs it and queues the
callback in three steps. When the last manager lets go of a worker, its thread works
off the queue, and the callbacks that nobody has flushed are dropped.
-/

namespace GodotStream

open Storage Run

/-- `AsyncDbWorker::DbKey`. -/
structure DbKey where
  path : String
  readOnly : Bool
deriving DecidableEq

/-- A worker: what waits for the thread, what the thread has taken, and what waits for a flush. -/
structure PooledWorker (Task : Type) where
  key : DbKey
  taskQueue : List Task := []
  running : Option Task := none
  completedCallbacks : List Task := []

/-- The live workers, the cache, and the worker that each manager holds. The last three fields
log the tasks that were pushed, the tasks that were run and the callbacks that were called. -/
structure WorkerPool (Task : Type) where
  workers : Table ObjectID (PooledWorker Task) := ∅
  nextId : ObjectID := 1
  dbWorkerCache : Table DbKey ObjectID := ∅
  held : Table ℕ ObjectID := ∅
  pushed : List (ObjectID × Task) := []
  executed : List (ObjectID × Task) := []
  called : List (ObjectID × Task) := []

/-- What the managers and the threads do. -/
inductive PoolEvent (Task : Type) where
  /-- `db_worker_ = make_db(path, read_only)`. -/
  | makeDb (manager : ℕ) (path : String) (readOnly : Bool)
  /-- The manager is destroyed. -/
  | leave (manager : ℕ)
  | pushTask (manager : ℕ) (task : Task)
  /-- The thread takes the first task. -/
  | take (id : ObjectID)
  /-- The thread has run its task and queues the callback. -/
  | finish (id : ObjectID)
  | flushCallbacks (id : ObjectID)

namespace WorkerPool

variable {Task : Type}

/-- A new worker under the next instance id. -/
def create (pool : WorkerPool Task) (key : DbKey) : WorkerPool Task :=
  { pool with
    workers := pool.workers.insert pool.nextId { key }
    nextId := pool.nextId + 1
    dbWorkerCache := pool.dbWorkerCache.insert key pool.nextId }

/-- `make_db`: the cached worker if it lives, else a new one. -/
def makeDb (pool : WorkerPool Task) (path : String) (readOnly : Bool) :
    Option ObjectID × WorkerPool Task :=
  if path = "" then (none, pool)
  else
    let key : DbKey := { path, readOnly }
    match pool.dbWorkerCache.get? key with
    | some id =>
        if id ∈ pool.workers then (some id, pool)
        else
          let pool := { pool with dbWorkerCache := pool.dbWorkerCache.erase key }
          (some pool.nextId, pool.create key)
    | none => (some pool.nextId, pool.create key)

/-- The destruction of a worker, which waits for its thread. -/
def destroy (pool : WorkerPool Task) (id : ObjectID) : WorkerPool Task :=
  match pool.workers.get? id with
  | none => pool
  | some worker =>
      { pool with
        workers := pool.workers.erase id
        executed := pool.executed ++
          (worker.running.toList ++ worker.taskQueue).map fun task => (id, task) }

/-- Whether some manager holds a worker. -/
def isHeld (pool : WorkerPool Task) (id : ObjectID) : Bool :=
  pool.held.entries.any fun entry => entry.2 = id

/-- Let go of a worker. -/
def unreference (pool : WorkerPool Task) (id : ObjectID) : WorkerPool Task :=
  if pool.isHeld id then pool else pool.destroy id

/-- Give a manager another worker, or none, and let go of the one it had. -/
def assign (pool : WorkerPool Task) (manager : ℕ) (found : Option ObjectID) : WorkerPool Task :=
  let held := found.elim (pool.held.erase manager) (pool.held.insert manager)
  match pool.held.get? manager with
  | some old => { pool with held }.unreference old
  | none => { pool with held }

variable (completes : Task → Bool)

/-- One step; a task completes when it has a callback. -/
def step (pool : WorkerPool Task) : PoolEvent Task → Option (WorkerPool Task)
  | .makeDb manager path readOnly =>
      let made := pool.makeDb path readOnly
      some (made.2.assign manager made.1)
  | .leave manager => some (pool.assign manager none)
  | .pushTask manager task => do
      let id ← pool.held.get? manager
      let worker ← pool.workers.get? id
      some
        { pool with
          workers := pool.workers.insert id
            { worker with taskQueue := worker.taskQueue ++ [task] }
          pushed := pool.pushed ++ [(id, task)] }
  | .take id => do
      let worker ← pool.workers.get? id
      match worker.running, worker.taskQueue with
      | none, task :: rest =>
          some
            { pool with
              workers := pool.workers.insert id
                { worker with running := some task, taskQueue := rest } }
      | _, _ => none
  | .finish id => do
      let worker ← pool.workers.get? id
      let task ← worker.running
      some
        { pool with
          workers := pool.workers.insert id
            { worker with
              running := none
              completedCallbacks :=
                worker.completedCallbacks ++ if completes task then [task] else [] }
          executed := pool.executed ++ [(id, task)] }
  | .flushCallbacks id => do
      let worker ← pool.workers.get? id
      some
        { pool with
          workers := pool.workers.insert id { worker with completedCallbacks := [] }
          called := pool.called ++ worker.completedCallbacks.map fun task => (id, task) }

variable {completes} {pool : WorkerPool Task}

/-- The key of a live worker. -/
def keyOf (pool : WorkerPool Task) (id : ObjectID) : Option DbKey :=
  (pool.workers.get? id).map PooledWorker.key

theorem isHeld_iff {id : ObjectID} :
    pool.isHeld id = true ↔ ∃ manager, pool.held.get? manager = some id := by
  simp only [isHeld, List.any_eq_true, decide_eq_true_eq, Table.get?_eq_some]
  constructor
  · rintro ⟨⟨manager, held⟩, listed, rfl⟩
    exact ⟨manager, listed⟩
  · rintro ⟨manager, listed⟩
    exact ⟨(manager, id), listed, rfl⟩

theorem workers_destroy (pool : WorkerPool Task) (id : ObjectID) :
    (pool.destroy id).workers = pool.workers.erase id := by
  rw [destroy]
  cases found : pool.workers.get? id with
  | none => exact (Table.erase_eq_self (Table.get?_eq_none.mp found)).symm
  | some worker => rfl

/-- Destroying a worker leaves the other fields alone. -/
theorem kept_destroy (pool : WorkerPool Task) (id : ObjectID) :
    (pool.destroy id).nextId = pool.nextId ∧ (pool.destroy id).dbWorkerCache = pool.dbWorkerCache ∧
      (pool.destroy id).held = pool.held ∧ (pool.destroy id).pushed = pool.pushed ∧
      (pool.destroy id).called = pool.called := by
  rw [destroy]
  cases pool.workers.get? id <;> exact ⟨rfl, rfl, rfl, rfl, rfl⟩

/-- The index is sound, and every id in use has been issued. -/
structure Sound (pool : WorkerPool Task) : Prop where
  weak : WeakIndex pool.dbWorkerCache pool.keyOf
  issued : ∀ id ∈ pool.workers, id < pool.nextId
  cached : ∀ key id, pool.dbWorkerCache.get? key = some id → id < pool.nextId

theorem keyOf_create (pool : WorkerPool Task) (key : DbKey) :
    (pool.create key).keyOf = Function.update pool.keyOf pool.nextId (some key) := by
  funext id
  rw [keyOf, create, Table.get?_insert]
  by_cases same : id = pool.nextId
  · rw [if_pos same, same, Function.update_self]
    rfl
  · rw [if_neg same, Function.update_of_ne same]
    rfl

theorem Sound.create (sound : pool.Sound) {key : DbKey} (unused : ∀ id, pool.keyOf id ≠ some key) :
    (pool.create key).Sound := by
  constructor
  · rw [keyOf_create]
    exact sound.weak.register unused fun other found =>
      absurd (sound.cached other _ found) (Nat.lt_irrefl _)
  · intro id live
    rw [WorkerPool.create, Table.mem_insert] at live
    rcases live with rfl | old
    · exact Nat.lt_succ_self _
    · exact Nat.lt_succ_of_lt (sound.issued id old)
  · intro other id found
    rw [WorkerPool.create, Table.get?_insert] at found
    split at found
    · obtain rfl := Option.some.inj found
      exact Nat.lt_succ_self _
    · exact Nat.lt_succ_of_lt (sound.cached other id found)

/-- What `make_db` does for a path: it finds a live worker, or it makes one under a new id. -/
structure Made (pool : WorkerPool Task) (key : DbKey) (id : ObjectID)
    (after : WorkerPool Task) : Prop where
  sound : after.Sound
  keyed : after.keyOf id = some key
  held : after.held = pool.held
  pushed : after.pushed = pool.pushed
  executed : after.executed = pool.executed
  called : after.called = pool.called
  workers : after = pool ∨ id = pool.nextId ∧ after.nextId = pool.nextId + 1 ∧
    after.workers = pool.workers.insert id { key }

theorem made_create (sound : pool.Sound) {key : DbKey} (unused : ∀ id, pool.keyOf id ≠ some key) :
    pool.Made key pool.nextId (pool.create key) where
  sound := sound.create unused
  keyed := by rw [keyOf_create, Function.update_self]
  held := rfl
  pushed := rfl
  executed := rfl
  called := rfl
  workers := Or.inr ⟨rfl, rfl, rfl⟩

theorem Sound.makeDb (sound : pool.Sound) {path : String} (named : path ≠ "") (readOnly : Bool) :
    ∃ id, (pool.makeDb path readOnly).1 = some id ∧
      pool.Made { path, readOnly } id (pool.makeDb path readOnly).2 := by
  rw [WorkerPool.makeDb, if_neg named]
  generalize keyEq : ({ path, readOnly } : DbKey) = key
  simp only
  cases found : pool.dbWorkerCache.get? key with
  | none =>
      have unused (id : ObjectID) : pool.keyOf id ≠ some key := by
        intro live
        rw [sound.weak.indexed live] at found
        exact absurd found (by simp)
      exact ⟨_, rfl, made_create sound unused⟩
  | some id =>
      dsimp only
      by_cases live : id ∈ pool.workers
      · rw [if_pos live]
        refine ⟨id, rfl, ⟨sound, ?_, rfl, rfl, rfl, rfl, Or.inl rfl⟩⟩
        apply sound.weak.keyOf_of_live found
        rw [keyOf, Option.isSome_map]
        exact Option.isSome_iff_exists.mpr (Table.mem_iff_get?.mp live)
      · rw [if_neg live]
        have unused (other : ObjectID) : pool.keyOf other ≠ some key := by
          intro otherLive
          obtain rfl := Option.some.inj (found.symm.trans (sound.weak.indexed otherLive))
          rw [keyOf, Table.get?_eq_none.mpr live] at otherLive
          exact absurd otherLive (by simp)
        have erased : Sound { pool with dbWorkerCache := pool.dbWorkerCache.erase key } := by
          refine ⟨sound.weak.erase unused, sound.issued, ?_⟩
          intro other id entry
          rw [Table.get?_erase] at entry
          split at entry
          · exact absurd entry (by simp)
          · exact sound.cached other id entry
        have made := made_create erased unused
        exact ⟨_, rfl, made.sound, made.keyed, rfl, rfl, rfl, rfl, Or.inr ⟨rfl, rfl, rfl⟩⟩

theorem keyOf_destroy (pool : WorkerPool Task) (id : ObjectID) :
    (pool.destroy id).keyOf = Function.update pool.keyOf id none := by
  funext other
  rw [keyOf, workers_destroy, Table.get?_erase]
  by_cases same : other = id
  · rw [if_pos same, same, Function.update_self]
    rfl
  · rw [if_neg same, Function.update_of_ne same]
    rfl

theorem Sound.destroy (sound : pool.Sound) (id : ObjectID) : (pool.destroy id).Sound := by
  have kept := kept_destroy pool id
  constructor
  · rw [keyOf_destroy, kept.2.1]
    exact sound.weak.forget id
  · intro other live
    rw [workers_destroy, Table.mem_erase] at live
    rw [kept.1]
    exact sound.issued other live.2
  · rw [kept.1, kept.2.1]
    exact sound.cached

/-- The path and the mode that each manager asked for last. -/
def wants (asked : ℕ → Option DbKey) : PoolEvent Task → ℕ → Option DbKey
  | .makeDb manager path readOnly =>
      Function.update asked manager (if path = "" then none else some { path, readOnly })
  | .leave manager => Function.update asked manager none
  | _ => asked

/-- Each manager that asked for a database holds a live worker for it, and somebody holds each
live worker. -/
structure Shares (asked : ℕ → Option DbKey) (pool : WorkerPool Task) : Prop where
  sound : pool.Sound
  answers (manager : ℕ) (id : ObjectID) : pool.held.get? manager = some id →
    ∃ key, asked manager = some key ∧ pool.keyOf id = some key
  idle (manager : ℕ) : pool.held.get? manager = none → asked manager = none
  wanted : ∀ id ∈ pool.workers, ∃ manager, pool.held.get? manager = some id

theorem shares_empty : Shares (fun _ => none) ({} : WorkerPool Task) where
  sound := ⟨WeakIndex.empty, fun _ live => absurd live (Table.not_mem_empty _), nofun⟩
  answers := nofun
  idle _ _ := rfl
  wanted _ live := absurd live (Table.not_mem_empty _)

/-- A manager that holds another worker from now on, before it lets go of the one it had. -/
theorem held_set (pool : WorkerPool Task) (manager : ℕ) (found : Option ObjectID) (other : ℕ) :
    (found.elim (pool.held.erase manager) (pool.held.insert manager)).get? other =
      if other = manager then found else pool.held.get? other := by
  cases found with
  | none => exact Table.get?_erase ..
  | some id => exact Table.get?_insert ..

/-- What holds after a manager has let go of a worker. -/
theorem Shares.unreference {asked : ℕ → Option DbKey} {old : ObjectID} (sound : pool.Sound)
    (answers : ∀ manager id, pool.held.get? manager = some id →
      ∃ key, asked manager = some key ∧ pool.keyOf id = some key)
    (idle : ∀ manager, pool.held.get? manager = none → asked manager = none)
    (wanted : ∀ id ∈ pool.workers, id = old ∨ ∃ manager, pool.held.get? manager = some id) :
    Shares asked (pool.unreference old) := by
  rw [WorkerPool.unreference]
  by_cases held : pool.isHeld old = true
  · rw [if_pos held]
    refine ⟨sound, answers, idle, fun id live => ?_⟩
    rcases wanted id live with rfl | other
    · exact isHeld_iff.mp held
    · exact other
  · rw [if_neg held]
    have kept := kept_destroy pool old
    have unheld (manager : ℕ) (id : ObjectID) (holds : pool.held.get? manager = some id) :
        id ≠ old := by
      rintro rfl
      exact held (isHeld_iff.mpr ⟨manager, holds⟩)
    refine ⟨sound.destroy old, ?_, ?_, ?_⟩
    · intro manager id holds
      rw [kept.2.2.1] at holds
      rw [keyOf_destroy, Function.update_of_ne (unheld manager id holds)]
      exact answers manager id holds
    · rw [kept.2.2.1]
      exact idle
    · intro id live
      rw [workers_destroy, Table.mem_erase] at live
      rw [kept.2.2.1]
      exact (wanted id live.2).resolve_left live.1

/-- A manager may be given a live worker, which nobody else need hold, or none. -/
theorem Shares.assign {asked : ℕ → Option DbKey} {key : Option DbKey} {found : Option ObjectID}
    (sound : pool.Sound)
    (answers : ∀ manager id, pool.held.get? manager = some id →
      ∃ key, asked manager = some key ∧ pool.keyOf id = some key)
    (idle : ∀ manager, pool.held.get? manager = none → asked manager = none)
    (wanted : ∀ id ∈ pool.workers, found = some id ∨ ∃ manager, pool.held.get? manager = some id)
    (keyed : ∀ id, found = some id → ∃ own, key = some own ∧ pool.keyOf id = some own)
    (unkeyed : found = none → key = none) (manager : ℕ) :
    Shares (Function.update asked manager key) (pool.assign manager found) := by
  rw [WorkerPool.assign.eq_def]
  generalize heldEq : found.elim (pool.held.erase manager) (pool.held.insert manager) = held
  have heldOf (other : ℕ) : held.get? other = if other = manager then found
      else pool.held.get? other := by
    rw [← heldEq]
    exact held_set pool manager found other
  have answersNow (other : ℕ) (id : ObjectID) (holds : held.get? other = some id) :
      ∃ own, Function.update asked manager key other = some own ∧ pool.keyOf id = some own := by
    rw [heldOf] at holds
    by_cases same : other = manager
    · rw [same, Function.update_self]
      exact keyed id (by rwa [if_pos same] at holds)
    · rw [Function.update_of_ne same]
      exact answers other id (by rwa [if_neg same] at holds)
  have idleNow (other : ℕ) (holds : held.get? other = none) :
      Function.update asked manager key other = none := by
    rw [heldOf] at holds
    by_cases same : other = manager
    · rw [same, Function.update_self]
      exact unkeyed (by rwa [if_pos same] at holds)
    · rw [Function.update_of_ne same]
      exact idle other (by rwa [if_neg same] at holds)
  have wantedNow (id : ObjectID) (live : id ∈ pool.workers) :
      pool.held.get? manager = some id ∨ ∃ other, held.get? other = some id := by
    rcases wanted id live with isFound | ⟨other, holds⟩
    · exact Or.inr ⟨manager, by rw [heldOf, if_pos rfl, isFound]⟩
    · by_cases same : other = manager
      · exact Or.inl (same ▸ holds)
      · exact Or.inr ⟨other, by rw [heldOf, if_neg same, holds]⟩
  have soundNow : Sound { pool with held } := ⟨sound.weak, sound.issued, sound.cached⟩
  cases old : pool.held.get? manager with
  | none =>
      refine ⟨soundNow, answersNow, idleNow, fun id live => ?_⟩
      rcases wantedNow id live with was | now
      · rw [old] at was
        exact absurd was (by simp)
      · exact now
  | some previous =>
      refine Shares.unreference soundNow answersNow idleNow fun id live => ?_
      rcases wantedNow id live with was | now
      · rw [old] at was
        exact Or.inl (Option.some.inj was).symm
      · exact Or.inr now

/-- Work on a worker does not change who shares it. -/
theorem Shares.congr {asked : ℕ → Option DbKey} {after : WorkerPool Task}
    (shares : pool.Shares asked) (keys : after.keyOf = pool.keyOf)
    (nextId : after.nextId = pool.nextId) (cache : after.dbWorkerCache = pool.dbWorkerCache)
    (held : after.held = pool.held) : after.Shares asked := by
  have live (id : ObjectID) (here : id ∈ after.workers) : id ∈ pool.workers := by
    rw [Table.mem_iff_get?, ← Option.isSome_iff_exists] at here ⊢
    have same := congrArg Option.isSome (congrFun keys id)
    rwa [keyOf, keyOf, Option.isSome_map, Option.isSome_map, here, eq_comm] at same
  refine ⟨⟨?_, ?_, ?_⟩, ?_, ?_, ?_⟩
  · rw [keys, cache]
    exact shares.sound.weak
  · rw [nextId]
    exact fun id here => shares.sound.issued id (live id here)
  · rw [nextId, cache]
    exact shares.sound.cached
  · rw [keys, held]
    exact shares.answers
  · rw [held]
    exact shares.idle
  · rw [held]
    exact fun id here => shares.wanted id (live id here)

theorem keyOf_insert {id : ObjectID} {worker changed : PooledWorker Task}
    (found : pool.workers.get? id = some worker) {after : WorkerPool Task}
    (workers : after.workers = pool.workers.insert id changed)
    (sameKey : changed.key = worker.key) : after.keyOf = pool.keyOf := by
  funext other
  rw [keyOf, keyOf, workers, Table.get?_insert]
  by_cases same : other = id
  · rw [if_pos same, same, found, Option.map_some, Option.map_some, sameKey]
  · rw [if_neg same]

theorem Shares.makeDb {asked : ℕ → Option DbKey} (shares : pool.Shares asked) (manager : ℕ)
    (path : String) (readOnly : Bool) :
    Shares (Function.update asked manager (if path = "" then none else some { path, readOnly }))
      ((pool.makeDb path readOnly).2.assign manager (pool.makeDb path readOnly).1) := by
  by_cases named : path = ""
  · rw [WorkerPool.makeDb, if_pos named, if_pos named]
    exact Shares.assign shares.sound shares.answers shares.idle
      (fun id live => Or.inr (shares.wanted id live)) (fun _ held => absurd held (by simp))
        (fun _ => rfl) manager
  · rcases shares.sound.makeDb named readOnly with ⟨id, found, made⟩
    rw [found, if_neg named]
    apply Shares.assign made.sound
    · intro other held holds
      rw [made.held] at holds
      rcases shares.answers other held holds with ⟨own, ownAsked, ownKey⟩
      refine ⟨own, ownAsked, ?_⟩
      rcases made.workers with unchanged | ⟨fresh, -, workers⟩
      · rw [unchanged]
        exact ownKey
      · have known : held ≠ id := by
          rintro rfl
          have live : pool.nextId ∈ pool.workers := by
            rw [← fresh, Table.mem_iff_get?]
            rcases Option.map_eq_some_iff.mp ownKey with ⟨worker, present, -⟩
            exact ⟨worker, present⟩
          exact Nat.lt_irrefl _ (shares.sound.issued _ live)
        rw [keyOf, workers, Table.get?_insert_of_ne _ (fresh ▸ known)]
        exact ownKey
    · rw [made.held]
      exact shares.idle
    · intro other live
      rw [made.held]
      rcases made.workers with unchanged | ⟨fresh, -, workers⟩
      · exact Or.inr (shares.wanted other (unchanged ▸ live))
      · rw [workers, Table.mem_insert] at live
        rcases live with isNew | old
        · exact Or.inl (by rw [isNew, fresh])
        · exact Or.inr (shares.wanted other old)
    · rintro other ⟨⟩
      exact ⟨_, rfl, made.keyed⟩
    · exact nofun

theorem Shares.step {asked : ℕ → Option DbKey} (shares : pool.Shares asked)
    {event : PoolEvent Task} {next : WorkerPool Task}
    (stepped : pool.step completes event = some next) : next.Shares (wants asked event) := by
  cases event with
  | makeDb manager path readOnly =>
      obtain rfl := Option.some.inj stepped
      exact shares.makeDb manager path readOnly
  | leave manager =>
      obtain rfl := Option.some.inj stepped
      exact Shares.assign shares.sound shares.answers shares.idle
        (fun id live => Or.inr (shares.wanted id live)) (fun _ held => absurd held (by simp))
        (fun _ => rfl) manager
  | pushTask manager task =>
      simp only [WorkerPool.step, Option.bind_eq_bind, Option.bind_eq_some_iff] at stepped
      rcases stepped with ⟨id, -, worker, found, ⟨⟩⟩
      exact shares.congr (keyOf_insert found rfl rfl) rfl rfl rfl
  | take id =>
      simp only [WorkerPool.step, Option.bind_eq_bind, Option.bind_eq_some_iff] at stepped
      rcases stepped with ⟨worker, found, took⟩
      split at took
      · obtain rfl := Option.some.inj took
        exact shares.congr (keyOf_insert found rfl rfl) rfl rfl rfl
      · exact absurd took (by simp)
  | finish id =>
      simp only [WorkerPool.step, Option.bind_eq_bind, Option.bind_eq_some_iff] at stepped
      rcases stepped with ⟨worker, found, task, -, ⟨⟩⟩
      exact shares.congr (keyOf_insert found rfl rfl) rfl rfl rfl
  | flushCallbacks id =>
      simp only [WorkerPool.step, Option.bind_eq_bind, Option.bind_eq_some_iff] at stepped
      rcases stepped with ⟨worker, found, ⟨⟩⟩
      exact shares.congr (keyOf_insert found rfl rfl) rfl rfl rfl

theorem Shares.follow {events : List (PoolEvent Task)} {asked : ℕ → Option DbKey}
    (shares : pool.Shares asked) {final : WorkerPool Task}
    (ran : follow (WorkerPool.step completes) events pool = some final) :
    final.Shares (events.foldl wants asked) := by
  induction events generalizing pool asked with
  | nil => exact Option.some.inj ran ▸ shares
  | cons event rest ih =>
      rw [Run.follow, Option.bind_eq_some_iff] at ran
      rcases ran with ⟨next, stepped, restRan⟩
      exact ih (shares.step stepped) restRan

/-- After any run, each manager holds a live worker for the path and the mode that it asked for
last, two managers hold the same worker exactly when they asked for the same, and the live
workers are those that somebody asked for, one for each path and mode. -/
theorem workers_shared {events : List (PoolEvent Task)} {final : WorkerPool Task}
    (ran : follow (WorkerPool.step completes) events {} = some final) :
    (∀ manager, (final.held.get? manager).bind final.keyOf =
      events.foldl wants (fun _ => none) manager) ∧
    (∀ first second, final.held.get? first = final.held.get? second ↔
      events.foldl wants (fun _ => none) first = events.foldl wants (fun _ => none) second) ∧
    (∀ key, (∃ id, final.keyOf id = some key) ↔
      ∃ manager, events.foldl wants (fun _ => none) manager = some key) ∧
    ∀ first second key, final.keyOf first = some key → final.keyOf second = some key →
      first = second := by
  have shares := shares_empty.follow ran
  generalize events.foldl wants (fun _ => none) = asked at shares
  have answer (manager : ℕ) : (final.held.get? manager).bind final.keyOf = asked manager := by
    cases held : final.held.get? manager with
    | none => exact (shares.idle manager held).symm
    | some id =>
        rcases shares.answers manager id held with ⟨key, asks, keyed⟩
        rw [Option.bind_some, keyed, asks]
  refine ⟨answer, ?_, ?_, fun first second key => shares.sound.weak.unique⟩
  · intro first second
    constructor
    · intro same
      rw [← answer first, ← answer second, same]
    · intro same
      cases firstHeld : final.held.get? first with
      | none =>
          cases secondHeld : final.held.get? second with
          | none => rfl
          | some id =>
              rcases shares.answers second id secondHeld with ⟨key, asks, -⟩
              rw [← same, shares.idle first firstHeld] at asks
              exact absurd asks (by simp)
      | some firstId =>
          rcases shares.answers first firstId firstHeld with ⟨key, asks, firstKey⟩
          cases secondHeld : final.held.get? second with
          | none =>
              rw [same, shares.idle second secondHeld] at asks
              exact absurd asks (by simp)
          | some secondId =>
              rcases shares.answers second secondId secondHeld with ⟨other, otherAsks, secondKey⟩
              rw [same, otherAsks, Option.some.injEq] at asks
              rw [shares.sound.weak.unique firstKey (asks ▸ secondKey)]
  · intro key
    constructor
    · rintro ⟨id, keyed⟩
      rcases Option.map_eq_some_iff.mp keyed with ⟨worker, live, -⟩
      rcases shares.wanted id (Table.mem_of_get? live) with ⟨manager, held⟩
      refine ⟨manager, ?_⟩
      rw [← answer manager, held, Option.bind_some, keyed]
    · rintro ⟨manager, asks⟩
      rw [← answer manager, Option.bind_eq_some_iff] at asks
      rcases asks with ⟨id, -, keyed⟩
      exact ⟨id, keyed⟩

/-- Two managers share a worker, until one leaves and the other one turns to another path. -/
def sharingEvents : List (PoolEvent ℕ) :=
  [.makeDb 0 "res://a.db" false, .makeDb 1 "res://a.db" false, .pushTask 0 1, .pushTask 1 2,
    .take 1, .pushTask 0 3, .finish 1, .take 1, .finish 1, .leave 0, .makeDb 1 "res://b.db" false,
    .makeDb 0 "res://a.db" false]

/-- The pool after these events, when the even tasks have callbacks. -/
def sharingPool : WorkerPool ℕ :=
  runAll (WorkerPool.step fun task => task % 2 = 0) sharingEvents {}

theorem follow_sharingEvents :
    follow (WorkerPool.step fun task => task % 2 = 0) sharingEvents {} = some sharingPool := by
  have possible : (follow (WorkerPool.step fun task => task % 2 = 0) sharingEvents {}).isSome =
      true := by decide +kernel
  rcases Option.isSome_iff_exists.mp possible with ⟨final, ran⟩
  rw [sharingPool, runAll, ran, Option.getD_some]

theorem workers_shared_sharing :
    (∀ manager, (sharingPool.held.get? manager).bind sharingPool.keyOf =
      sharingEvents.foldl wants (fun _ => none) manager) ∧
    (∀ first second, sharingPool.held.get? first = sharingPool.held.get? second ↔
      sharingEvents.foldl wants (fun _ => none) first =
        sharingEvents.foldl wants (fun _ => none) second) ∧
    (∀ key, (∃ id, sharingPool.keyOf id = some key) ↔
      ∃ manager, sharingEvents.foldl wants (fun _ => none) manager = some key) ∧
    ∀ first second key, sharingPool.keyOf first = some key → sharingPool.keyOf second = some key →
      first = second :=
  workers_shared follow_sharingEvents

end WorkerPool

end GodotStream
