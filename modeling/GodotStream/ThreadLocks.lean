import GodotStream.Lib.Mutex
import GodotStream.Lib.Run
import GodotStream.ThreadLoop
import Mathlib.Data.Bool.Basic

/-!
# The lock of the thread loop

`AsyncDbWorker` down to its mutex and condition variable. `thread_loop`, the callers
of `push_task` and of the destructor, and `_flush_callbacks` lock `queue_mutex_`,
change what it protects and unlock it, in any interleaving, and the loop sleeps on
`cv_` until it is notified or wakes spuriously. Only the owner of the mutex changes
the queues, and what the loop must wake for never goes unnoticed.
-/

namespace GodotStream

universe u v w x

variable {Caller : Type x} {Db : Type u} {Result : Type v} {Reply : Type w}

/-- Who locks `queue_mutex_`. -/
inductive LockParty (Caller : Type x) where
  | loop
  | caller (caller : Caller)
  | flusher
  deriving DecidableEq

/-- Where `thread_loop` stands. -/
inductive LoopStage (Db : Type u) (Result : Type v) (Reply : Type w) where
  /-- At the lock of a round, or woken and locking again. -/
  | locking
  /-- At the predicate of the wait. -/
  | checking
  /-- The predicate was false: about to unlock and sleep. -/
  | parking
  | sleeping
  /-- Behind the wait. -/
  | taking
  | running (task : ThreadTask Db Result Reply)
  | worked (task : ThreadTask Db Result Reply) (result : Option Result)
  /-- At the lock for the callback. -/
  | queueing (task : ThreadTask Db Result Reply) (result : Option Result)
  | storing (task : ThreadTask Db Result Reply) (result : Option Result)
  | returned

/-- What a caller does under the lock. -/
inductive LockRequest (Db : Type u) (Result : Type v) (Reply : Type w) where
  | pushTask (task : ThreadTask Db Result Reply)
  | stop

/-- Where a caller of `push_task` or of the destructor stands. -/
inductive CallerStage (Db : Type u) (Result : Type v) (Reply : Type w) where
  | idle
  | locking (request : LockRequest Db Result Reply)
  | holding (request : LockRequest Db Result Reply)
  | notifying (request : LockRequest Db Result Reply)
  | joining

/-- Where `_flush_callbacks` stands. -/
inductive FlushStage (Reply : Type w) where
  | idle
  | locking
  | holding
  | delivering (callbacks : List Reply)

namespace LoopStage

/-- The stages between a lock and its unlock. -/
def inside : LoopStage Db Result Reply → Bool
  | .checking | .parking | .taking | .storing _ _ => true
  | _ => false

/-- `cv_.notify_one()`, for the only thread that waits on `cv_`. -/
def notified : LoopStage Db Result Reply → LoopStage Db Result Reply
  | .sleeping => .locking
  | stage => stage

@[simp] theorem inside_notified (stage : LoopStage Db Result Reply) :
    stage.notified.inside = stage.inside := by
  cases stage <;> rfl

/-- The position between two lock releases. -/
def position : LoopStage Db Result Reply → LoopPosition Db Result Reply
  | .running task => .taken task
  | .worked task result | .queueing task result | .storing task result => .worked task result
  | .returned => .returned
  | _ => .waiting

@[simp] theorem position_notified (stage : LoopStage Db Result Reply) :
    stage.notified.position = stage.position := by
  cases stage <;> rfl

end LoopStage

def CallerStage.inside : CallerStage Db Result Reply → Bool
  | .holding _ => true
  | _ => false

namespace FlushStage

def inside : FlushStage Reply → Bool
  | .holding => true
  | _ => false

def delivery : FlushStage Reply → Option (List Reply)
  | .delivering callbacks => some callbacks
  | _ => none

end FlushStage

/-- The last three fields are histories. -/
structure LockedState (Caller : Type x) (Db : Type u) (Result : Type v) (Reply : Type w) where
  owner : Option (LockParty Caller)
  db : Db
  taskQueue : List (ThreadTask Db Result Reply)
  completedCallbacks : List Reply
  stop : Bool
  loop : LoopStage Db Result Reply
  callers : Caller → CallerStage Db Result Reply
  flusher : FlushStage Reply
  pushed : List (ThreadTask Db Result Reply)
  executed : List (ThreadTask Db Result Reply × Option Result)
  ran : List Reply

/-- The next step of a party, the calls that start one, and a wake-up that nobody caused. -/
inductive LockEvent (Caller : Type x) (Db : Type u) (Result : Type v) (Reply : Type w) where
  | loop
  | caller (caller : Caller)
  | flusher
  | call (caller : Caller) (request : LockRequest Db Result Reply)
  | flush
  | spurious

/-- Who takes a step; a call and a spurious wake-up are no steps of a party. -/
def LockEvent.party : LockEvent Caller Db Result Reply → Option (LockParty Caller)
  | .loop => some .loop
  | .caller party => some (.caller party)
  | .flusher => some .flusher
  | _ => none

namespace LockedState

def start (db : Db) : LockedState Caller Db Result Reply :=
  { owner := none
    db
    taskQueue := []
    completedCallbacks := []
    stop := false
    loop := .locking
    callers := fun _ => .idle
    flusher := .idle
    pushed := []
    executed := []
    ran := [] }

/-- The predicate of the wait. -/
def due (state : LockedState Caller Db Result Reply) : Bool :=
  state.stop || !state.taskQueue.isEmpty

def stepLoop (state : LockedState Caller Db Result Reply) :
    Option (LockedState Caller Db Result Reply) :=
  match state.loop with
  | .locking =>
      match state.owner with
      | none => some { state with owner := some .loop, loop := .checking }
      | some _ => none
  | .checking => some { state with loop := if state.due then .taking else .parking }
  | .parking => some { state with owner := none, loop := .sleeping }
  | .sleeping => none
  | .taking =>
      match state.taskQueue with
      | [] =>
          -- Without `stop_` this is `front` of an empty queue.
          if state.stop then some { state with owner := none, loop := .returned } else none
      | task :: rest =>
          some { state with owner := none, taskQueue := rest, loop := .running task }
  | .running task =>
      (task.run state.db).map fun done =>
        { state with
          db := done.1
          loop := .worked task done.2
          executed := state.executed ++ [(task, done.2)] }
  | .worked task result =>
      some { state with
        loop := if task.onComplete.isSome then .queueing task result else .locking }
  | .queueing task result =>
      match state.owner with
      | none => some { state with owner := some .loop, loop := .storing task result }
      | some _ => none
  | .storing task result =>
      some { state with
        owner := none
        loop := .locking
        completedCallbacks :=
          state.completedCallbacks ++ (ThreadTask.reply (task, result)).toList }
  | .returned => none

def stepFlusher (state : LockedState Caller Db Result Reply) :
    Option (LockedState Caller Db Result Reply) :=
  match state.flusher with
  | .idle => none
  | .locking =>
      match state.owner with
      | none => some { state with owner := some .flusher, flusher := .holding }
      | some _ => none
  | .holding =>
      some { state with
        owner := none
        flusher := .delivering state.completedCallbacks
        completedCallbacks := [] }
  | .delivering (callback :: rest) =>
      some { state with flusher := .delivering rest, ran := state.ran ++ [callback] }
  | .delivering [] => some { state with flusher := .idle }

/-- What the lock of a caller protects. -/
def perform (state : LockedState Caller Db Result Reply) :
    LockRequest Db Result Reply → LockedState Caller Db Result Reply
  | .pushTask task =>
      { state with
        taskQueue := state.taskQueue ++ [task]
        pushed := state.pushed ++ [task] }
  | .stop => { state with stop := true }

variable [DecidableEq Caller]

def setCaller (state : LockedState Caller Db Result Reply) (caller : Caller)
    (stage : CallerStage Db Result Reply) : LockedState Caller Db Result Reply :=
  { state with callers := Function.update state.callers caller stage }

def stepCaller (state : LockedState Caller Db Result Reply) (caller : Caller) :
    Option (LockedState Caller Db Result Reply) :=
  match state.callers caller with
  | .idle => none
  | .locking request =>
      match state.owner with
      | none =>
          some ({ state with owner := some (.caller caller) }.setCaller caller (.holding request))
      | some _ => none
  | .holding request =>
      some ({ state.perform request with owner := none }.setCaller caller (.notifying request))
  | .notifying (.pushTask _) =>
      some ({ state with loop := state.loop.notified }.setCaller caller .idle)
  | .notifying .stop =>
      some ({ state with loop := state.loop.notified }.setCaller caller .joining)
  | .joining =>
      match state.loop with
      | .returned => some (state.setCaller caller .idle)
      | _ => none

def step (state : LockedState Caller Db Result Reply) :
    LockEvent Caller Db Result Reply → Option (LockedState Caller Db Result Reply)
  | .loop => state.stepLoop
  | .caller caller => state.stepCaller caller
  | .flusher => state.stepFlusher
  | .call caller request =>
      match state.callers caller with
      | .idle => some (state.setCaller caller (.locking request))
      | _ => none
  | .flush =>
      match state.flusher with
      | .idle => some { state with flusher := .locking }
      | _ => none
  | .spurious =>
      match state.loop with
      | .sleeping => some { state with loop := .locking }
      | _ => none

/-- What an event does, transition by transition. -/
inductive Move (state : LockedState Caller Db Result Reply) :
    LockEvent Caller Db Result Reply → LockedState Caller Db Result Reply → Prop where
  | lock (loop : state.loop = .locking) (free : state.owner = none) :
      Move state .loop { state with owner := some .loop, loop := .checking }
  | find (loop : state.loop = .checking) (due : state.due = true) :
      Move state .loop { state with loop := .taking }
  | miss (loop : state.loop = .checking) (due : state.due = false) :
      Move state .loop { state with loop := .parking }
  | park (loop : state.loop = .parking) :
      Move state .loop { state with owner := none, loop := .sleeping }
  | leave (loop : state.loop = .taking) (queued : state.taskQueue = [])
      (stop : state.stop = true) :
      Move state .loop { state with owner := none, loop := .returned }
  | take {task : ThreadTask Db Result Reply} {rest : List (ThreadTask Db Result Reply)}
      (loop : state.loop = .taking) (queued : state.taskQueue = task :: rest) :
      Move state .loop { state with owner := none, taskQueue := rest, loop := .running task }
  | work {task : ThreadTask Db Result Reply} {done : Db × Option Result}
      (loop : state.loop = .running task) (ran : task.run state.db = some done) :
      Move state .loop
        { state with
          db := done.1
          loop := .worked task done.2
          executed := state.executed ++ [(task, done.2)] }
  | forgo {task : ThreadTask Db Result Reply} {result : Option Result}
      (loop : state.loop = .worked task result) (onComplete : task.onComplete = none) :
      Move state .loop { state with loop := .locking }
  | report {task : ThreadTask Db Result Reply} {result : Option Result}
      (loop : state.loop = .worked task result) :
      Move state .loop { state with loop := .queueing task result }
  | lockQueueing {task : ThreadTask Db Result Reply} {result : Option Result}
      (loop : state.loop = .queueing task result) (free : state.owner = none) :
      Move state .loop { state with owner := some .loop, loop := .storing task result }
  | store {task : ThreadTask Db Result Reply} {result : Option Result}
      (loop : state.loop = .storing task result) :
      Move state .loop
        { state with
          owner := none
          loop := .locking
          completedCallbacks :=
            state.completedCallbacks ++ (ThreadTask.reply (task, result)).toList }
  | lockFlusher (flusher : state.flusher = .locking) (free : state.owner = none) :
      Move state .flusher { state with owner := some .flusher, flusher := .holding }
  | swap (flusher : state.flusher = .holding) :
      Move state .flusher
        { state with
          owner := none
          flusher := .delivering state.completedCallbacks
          completedCallbacks := [] }
  | deliver {callback : Reply} {rest : List Reply}
      (flusher : state.flusher = .delivering (callback :: rest)) :
      Move state .flusher
        { state with flusher := .delivering rest, ran := state.ran ++ [callback] }
  | delivered (flusher : state.flusher = .delivering []) :
      Move state .flusher { state with flusher := .idle }
  | lockCaller {caller : Caller} {request : LockRequest Db Result Reply}
      (stage : state.callers caller = .locking request) (free : state.owner = none) :
      Move state (.caller caller)
        ({ state with owner := some (.caller caller) }.setCaller caller (.holding request))
  | perform {caller : Caller} {request : LockRequest Db Result Reply}
      (stage : state.callers caller = .holding request) :
      Move state (.caller caller)
        ({ state.perform request with owner := none }.setCaller caller (.notifying request))
  | notifyPush {caller : Caller} {task : ThreadTask Db Result Reply}
      (stage : state.callers caller = .notifying (.pushTask task)) :
      Move state (.caller caller)
        ({ state with loop := state.loop.notified }.setCaller caller .idle)
  | notifyStop {caller : Caller} (stage : state.callers caller = .notifying .stop) :
      Move state (.caller caller)
        ({ state with loop := state.loop.notified }.setCaller caller .joining)
  | join {caller : Caller} (stage : state.callers caller = .joining)
      (loop : state.loop = .returned) :
      Move state (.caller caller) (state.setCaller caller .idle)
  | call {caller : Caller} (stage : state.callers caller = .idle)
      (request : LockRequest Db Result Reply) :
      Move state (.call caller request) (state.setCaller caller (.locking request))
  | flush (flusher : state.flusher = .idle) : Move state .flush { state with flusher := .locking }
  | wake (loop : state.loop = .sleeping) : Move state .spurious { state with loop := .locking }

variable {state next : LockedState Caller Db Result Reply}

theorem stepLoop_move (stepped : state.stepLoop = some next) : Move state .loop next := by
  cases loop : state.loop with
  | locking =>
      simp only [stepLoop, loop] at stepped
      split at stepped
      case h_1 free => exact Option.some.inj stepped ▸ .lock loop free
      case h_2 => simp at stepped
  | checking =>
      simp only [stepLoop, loop] at stepped
      rw [← Option.some.inj stepped]
      cases due : state.due with
      | true => exact .find loop due
      | false => exact .miss loop due
  | parking =>
      simp only [stepLoop, loop] at stepped
      exact Option.some.inj stepped ▸ .park loop
  | taking =>
      simp only [stepLoop, loop] at stepped
      split at stepped
      case h_1 queued =>
        split at stepped
        case isTrue stop => exact Option.some.inj stepped ▸ .leave loop queued stop
        case isFalse => simp at stepped
      case h_2 task rest queued => exact Option.some.inj stepped ▸ .take loop queued
  | running task =>
      simp only [stepLoop, loop] at stepped
      rcases Option.map_eq_some_iff.mp stepped with ⟨done, ran, rfl⟩
      exact .work loop ran
  | worked task result =>
      simp only [stepLoop, loop] at stepped
      rw [← Option.some.inj stepped]
      cases onComplete : task.onComplete with
      | none => exact .forgo loop onComplete
      | some => exact .report loop
  | queueing task result =>
      simp only [stepLoop, loop] at stepped
      split at stepped
      case h_1 free => exact Option.some.inj stepped ▸ .lockQueueing loop free
      case h_2 => simp at stepped
  | storing task result =>
      simp only [stepLoop, loop] at stepped
      exact Option.some.inj stepped ▸ .store loop
  | sleeping | returned => simp [stepLoop, loop] at stepped

theorem stepFlusher_move (stepped : state.stepFlusher = some next) :
    Move state .flusher next := by
  simp only [stepFlusher] at stepped
  split at stepped
  case h_1 => simp at stepped
  case h_2 locking =>
    split at stepped
    case h_1 free => exact Option.some.inj stepped ▸ .lockFlusher locking free
    case h_2 => simp at stepped
  case h_3 holding => exact Option.some.inj stepped ▸ .swap holding
  case h_4 callback rest delivering => exact Option.some.inj stepped ▸ .deliver delivering
  case h_5 delivering => exact Option.some.inj stepped ▸ .delivered delivering

theorem stepCaller_move {caller : Caller} (stepped : state.stepCaller caller = some next) :
    Move state (.caller caller) next := by
  simp only [stepCaller] at stepped
  split at stepped
  case h_1 => simp at stepped
  case h_2 request locking =>
    split at stepped
    case h_1 free => exact Option.some.inj stepped ▸ .lockCaller locking free
    case h_2 => simp at stepped
  case h_3 request holding => exact Option.some.inj stepped ▸ .perform holding
  case h_4 task notifying => exact Option.some.inj stepped ▸ .notifyPush notifying
  case h_5 notifying => exact Option.some.inj stepped ▸ .notifyStop notifying
  case h_6 joining =>
    split at stepped
    case h_1 returned => exact Option.some.inj stepped ▸ .join joining returned
    case h_2 => simp at stepped

theorem step_move {event : LockEvent Caller Db Result Reply}
    (stepped : state.step event = some next) : Move state event next := by
  cases event with
  | loop => exact stepLoop_move stepped
  | caller caller => exact stepCaller_move stepped
  | flusher => exact stepFlusher_move stepped
  | call caller request =>
      simp only [step] at stepped
      split at stepped
      case h_1 idle => exact Option.some.inj stepped ▸ .call idle request
      case h_2 => simp at stepped
  | flush =>
      simp only [step] at stepped
      split at stepped
      case h_1 idle => exact Option.some.inj stepped ▸ .flush idle
      case h_2 => simp at stepped
  | spurious =>
      simp only [step] at stepped
      split at stepped
      case h_1 asleep => exact Option.some.inj stepped ▸ .wake asleep
      case h_2 => simp at stepped

/-- Between the lock and the unlock. -/
def inside (state : LockedState Caller Db Result Reply) : LockParty Caller → Bool
  | .loop => state.loop.inside
  | .caller caller => (state.callers caller).inside
  | .flusher => state.flusher.inside

/-- The owner of the mutex is inside, what the loop knows under the lock is so, and whoever made it
due while it sleeps still has to notify it. -/
structure Sound (state : LockedState Caller Db Result Reply) : Prop where
  guards : Mutex.Guards state.owner state.inside
  parking : state.loop = .parking → state.due = false
  taking : state.loop = .taking → state.due = true
  sleeping : state.loop = .sleeping → state.due = true →
    ∃ caller request, state.callers caller = .notifying request
  returned : state.loop = .returned → state.stop = true
  stopping : ∀ caller, state.callers caller = .notifying .stop ∨ state.callers caller = .joining →
    state.stop = true

theorem inside_of_loop (callers : next.callers = state.callers)
    (flusher : next.flusher = state.flusher) :
    next.inside = Function.update state.inside .loop next.loop.inside := by
  funext party
  cases party <;> simp [inside, callers, flusher]

theorem inside_of_flusher (callers : next.callers = state.callers)
    (loop : next.loop.inside = state.loop.inside) :
    next.inside = Function.update state.inside .flusher next.flusher.inside := by
  funext party
  cases party <;> simp [inside, callers, loop]

theorem inside_of_caller {caller : Caller} {stage : CallerStage Db Result Reply}
    (callers : next.callers = Function.update state.callers caller stage)
    (flusher : next.flusher = state.flusher) (loop : next.loop.inside = state.loop.inside) :
    next.inside = Function.update state.inside (.caller caller) stage.inside := by
  funext party
  cases party with
  | loop => simp [inside, loop]
  | flusher => simp [inside, flusher]
  | caller other =>
      rw [inside, callers, Function.update_apply, Function.update_apply]
      by_cases same : other = caller <;> simp [same, inside]

omit [DecidableEq Caller] in
theorem sound_start (db : Db) : Sound (start db : LockedState Caller Db Result Reply) := by
  refine ⟨?_, ?_, ?_, ?_, ?_, ?_⟩
  · intro party
    cases party <;> simp [start, inside, LoopStage.inside, CallerStage.inside, FlushStage.inside]
  all_goals simp [start]

namespace Sound

/-- A step of the loop that leaves the callers and `stop_` alone. -/
theorem of_loop (sound : Sound state) (callers : next.callers = state.callers)
    (flusher : next.flusher = state.flusher) (stop : next.stop = state.stop)
    (guards : Mutex.Guards next.owner (Function.update state.inside .loop next.loop.inside))
    (parking : next.loop = .parking → next.due = false)
    (taking : next.loop = .taking → next.due = true)
    (sleeping : next.loop = .sleeping → next.due = false)
    (returned : next.loop = .returned → state.stop = true) : Sound next where
  guards := by rwa [inside_of_loop callers flusher]
  parking := parking
  taking := taking
  sleeping := by
    intro asleep due
    rw [sleeping asleep] at due
    exact absurd due Bool.false_ne_true
  returned := by rwa [stop]
  stopping := by
    rw [callers, stop]
    exact sound.stopping

/-- A step of `_flush_callbacks`. -/
theorem of_flusher (sound : Sound state) (callers : next.callers = state.callers)
    (loop : next.loop = state.loop) (stop : next.stop = state.stop)
    (tasks : next.taskQueue = state.taskQueue)
    (guards : Mutex.Guards next.owner (Function.update state.inside .flusher next.flusher.inside)) :
    Sound next := by
  have due : next.due = state.due := by rw [LockedState.due, LockedState.due, stop, tasks]
  refine ⟨?_, ?_, ?_, ?_, ?_, ?_⟩
  · rwa [inside_of_flusher callers (by rw [loop])]
  · rw [loop, due]
    exact sound.parking
  · rw [loop, due]
    exact sound.taking
  · rw [loop, due, callers]
    exact sound.sleeping
  · rw [loop, stop]
    exact sound.returned
  · rw [callers, stop]
    exact sound.stopping

/-- A caller moves between stages that owe no notification. -/
theorem of_caller (sound : Sound state) {caller : Caller} {stage : CallerStage Db Result Reply}
    (callers : next.callers = Function.update state.callers caller stage)
    (flusher : next.flusher = state.flusher) (loop : next.loop = state.loop)
    (stop : next.stop = state.stop) (tasks : next.taskQueue = state.taskQueue)
    (owing : ∀ request, state.callers caller ≠ .notifying request)
    (working : stage ≠ .notifying .stop ∧ stage ≠ .joining)
    (guards : Mutex.Guards next.owner
      (Function.update state.inside (.caller caller) stage.inside)) : Sound next := by
  have due : next.due = state.due := by rw [LockedState.due, LockedState.due, stop, tasks]
  refine ⟨?_, ?_, ?_, ?_, ?_, ?_⟩
  · rwa [inside_of_caller callers flusher (by rw [loop])]
  · rw [loop, due]
    exact sound.parking
  · rw [loop, due]
    exact sound.taking
  · rw [loop, due, callers]
    intro asleep isDue
    rcases sound.sleeping asleep isDue with ⟨other, request, notifying⟩
    refine ⟨other, request, ?_⟩
    rwa [Function.update_of_ne]
    rintro rfl
    exact owing request notifying
  · rw [loop, stop]
    exact sound.returned
  · intro other
    rw [callers, stop, Function.update_apply]
    split
    case isTrue =>
      rintro (notifying | joining)
      · exact absurd notifying working.1
      · exact absurd joining working.2
    case isFalse => exact sound.stopping other

/-- `cv_.notify_one()` after an unlock. -/
theorem of_notified (sound : Sound state) {caller : Caller} {stage : CallerStage Db Result Reply}
    (left : stage.inside = (state.callers caller).inside)
    (stopping : stage = .notifying .stop ∨ stage = .joining → state.stop = true) :
    Sound ({ state with loop := state.loop.notified }.setCaller caller stage) := by
  have loops : ∀ stage : LoopStage Db Result Reply, state.loop.notified = stage →
      stage ≠ .locking → state.loop = stage ∧ stage ≠ .sleeping := by
    rintro _ rfl
    cases state.loop <;> simp [LoopStage.notified]
  refine ⟨?_, ?_, ?_, ?_, ?_, ?_⟩
  · have insideEq : ({ state with loop := state.loop.notified }.setCaller caller stage).inside =
        Function.update state.inside (.caller caller) stage.inside :=
      inside_of_caller rfl rfl (LoopStage.inside_notified _)
    rw [insideEq]
    exact sound.guards.keep left
  · exact fun parking => sound.parking (loops _ parking (by simp)).1
  · exact fun taking => sound.taking (loops _ taking (by simp)).1
  · exact fun asleep => absurd rfl (loops _ asleep (by simp)).2
  · exact fun returned => sound.returned (loops _ returned (by simp)).1
  · intro other
    simp only [setCaller, Function.update_apply]
    split
    case isTrue => exact stopping
    case isFalse => exact sound.stopping other

/-- A caller changes what the mutex protects and unlocks: the loop is outside, and may sleep. -/
theorem of_perform (sound : Sound state) {caller : Caller} {request : LockRequest Db Result Reply}
    (holding : state.callers caller = .holding request) :
    Sound ({ state.perform request with owner := none }.setCaller caller (.notifying request)) := by
  have held : state.inside (.caller caller) = true := congrArg CallerStage.inside holding
  have outside : state.loop.inside ≠ true := by
    intro inside
    have loopInside : state.inside .loop = true := inside
    exact absurd (sound.guards.unique loopInside held) (by simp)
  have loop : (state.perform request).loop = state.loop := by cases request <;> rfl
  have flusher : (state.perform request).flusher = state.flusher := by cases request <;> rfl
  have callers : (state.perform request).callers = state.callers := by cases request <;> rfl
  have stop : state.stop = true → (state.perform request).stop = true := by
    cases request <;> simp [perform]
  refine ⟨?_, ?_, ?_, ?_, ?_, ?_⟩
  · have insideEq : ({ state.perform request with owner := none }.setCaller caller
        (.notifying request)).inside = Function.update state.inside (.caller caller)
          (CallerStage.notifying request).inside := by
      apply inside_of_caller
      · rw [setCaller, callers]
      · exact flusher
      · exact congrArg LoopStage.inside loop
    rw [insideEq]
    exact sound.guards.unlock held
  · simp only [setCaller, loop]
    intro parking
    simp [parking, LoopStage.inside] at outside
  · simp only [setCaller, loop]
    intro taking
    simp [taking, LoopStage.inside] at outside
  · exact fun _ _ => ⟨caller, request, Function.update_self ..⟩
  · simp only [setCaller, loop]
    exact fun returned => stop (sound.returned returned)
  · intro other
    simp only [setCaller, callers, Function.update_apply]
    split
    case isTrue =>
      cases request with
      | pushTask task => simp
      | stop => simp [perform]
    case isFalse => exact fun busy => stop (sound.stopping other busy)

theorem step (sound : Sound state) {event : LockEvent Caller Db Result Reply}
    (stepped : state.step event = some next) : Sound next := by
  have guards := sound.guards
  have ofLoop : ∀ {old stage : LoopStage Db Result Reply}, state.loop = old →
      stage.inside = old.inside → stage.inside = state.inside .loop :=
    fun loop same => same.trans (congrArg LoopStage.inside loop.symm)
  have ofFlusher : ∀ {old stage : FlushStage Reply}, state.flusher = old →
      stage.inside = old.inside → stage.inside = state.inside .flusher :=
    fun flusher same => same.trans (congrArg FlushStage.inside flusher.symm)
  have ofCaller : ∀ {caller} {old stage : CallerStage Db Result Reply},
      state.callers caller = old → stage.inside = old.inside →
        stage.inside = state.inside (.caller caller) :=
    fun stage same => same.trans (congrArg CallerStage.inside stage.symm)
  cases step_move stepped with
  | lock loop free =>
      rw [free] at guards
      refine sound.of_loop rfl rfl rfl (guards.lock .loop) ?_ ?_ ?_ ?_ <;> simp
  | find loop due =>
      refine sound.of_loop rfl rfl rfl (guards.keep (ofLoop loop rfl)) ?_ ?_ ?_ ?_
      · simp
      · exact fun _ => due
      all_goals simp
  | miss loop due =>
      refine sound.of_loop rfl rfl rfl (guards.keep (ofLoop loop rfl)) ?_ ?_ ?_ ?_
      · exact fun _ => due
      all_goals simp
  | park loop =>
      refine sound.of_loop rfl rfl rfl (guards.unlock (congrArg LoopStage.inside loop)) ?_ ?_ ?_ ?_
      · simp
      · simp
      · exact fun _ => sound.parking loop
      · simp
  | leave loop queued stop =>
      refine sound.of_loop rfl rfl rfl (guards.unlock (congrArg LoopStage.inside loop)) ?_ ?_ ?_ ?_
      · simp
      · simp
      · simp
      · exact fun _ => stop
  | take loop queued | store loop =>
      refine sound.of_loop rfl rfl rfl (guards.unlock (congrArg LoopStage.inside loop)) ?_ ?_ ?_ ?_
        <;> simp
  | work loop ran | forgo loop onComplete =>
      refine sound.of_loop rfl rfl rfl (guards.keep (ofLoop loop rfl)) ?_ ?_ ?_ ?_ <;> simp
  | report loop =>
      refine sound.of_loop rfl rfl rfl (guards.keep (ofLoop loop rfl)) ?_ ?_ ?_ ?_ <;> simp
  | lockQueueing loop free =>
      rw [free] at guards
      refine sound.of_loop rfl rfl rfl (guards.lock .loop) ?_ ?_ ?_ ?_ <;> simp
  | lockFlusher flusher free =>
      rw [free] at guards
      exact sound.of_flusher rfl rfl rfl rfl (guards.lock .flusher)
  | swap flusher =>
      exact sound.of_flusher rfl rfl rfl rfl (guards.unlock (congrArg FlushStage.inside flusher))
  | deliver flusher =>
      exact sound.of_flusher rfl rfl rfl rfl (guards.keep (ofFlusher flusher rfl))
  | delivered flusher =>
      exact sound.of_flusher rfl rfl rfl rfl (guards.keep (ofFlusher flusher rfl))
  | lockCaller stage free =>
      rw [free] at guards
      exact sound.of_caller rfl rfl rfl rfl rfl (by simp [stage]) (by simp)
        (guards.lock (.caller _))
  | perform stage => exact sound.of_perform stage
  | notifyPush stage => exact sound.of_notified (by rw [stage]; rfl) (by simp)
  | notifyStop stage =>
      exact sound.of_notified (by rw [stage]; rfl) fun _ => sound.stopping _ (Or.inl stage)
  | join stage loop =>
      exact sound.of_caller rfl rfl rfl rfl rfl (by simp [stage]) (by simp)
        (guards.keep (ofCaller stage rfl))
  | call stage request =>
      exact sound.of_caller rfl rfl rfl rfl rfl (by simp [stage]) (by simp)
        (guards.keep (ofCaller stage rfl))
  | flush flusher => exact sound.of_flusher rfl rfl rfl rfl (guards.keep (ofFlusher flusher rfl))
  | wake loop =>
      refine sound.of_loop rfl rfl rfl (guards.keep (ofLoop loop rfl)) ?_ ?_ ?_ ?_ <;> simp

end Sound

theorem sound_of_reaches {db : Db} {guard : LockedState Caller Db Result Reply →
    LockEvent Caller Db Result Reply → Prop}
    (reached : Run.Reaches step guard (start db) state) : Sound state :=
  reached.invariant (sound_start db) fun _ _ _ sound _ stepped => sound.step stepped

/-- A wake-up is never lost: while the loop sleeps with a task queued or the stop requested, a
caller is still about to notify it. Behind the wait it never takes from an empty queue. -/
theorem notification_owed {db : Db}
    (reached : Run.Reaches step (fun _ _ => True) (start db) state) :
    (state.loop = .sleeping → state.taskQueue ≠ [] ∨ state.stop = true →
      ∃ caller request, state.callers caller = .notifying request) ∧
    (state.loop = .taking → state.taskQueue = [] → state.stop = true) := by
  have sound := sound_of_reaches reached
  constructor
  · intro asleep waiting
    apply sound.sleeping asleep
    rcases waiting with queued | stop
    · simp [due, queued]
    · simp [due, stop]
  · intro taking empty
    simpa [due, empty] using sound.taking taking

/-- A task is queued over the sleeping loop, and its caller has not notified it yet. -/
theorem notification_owed_push :
    let task : ThreadTask ℕ ℕ ℕ := ⟨none, none⟩
    let final : LockedState Bool ℕ ℕ ℕ := Run.runAll step
      [.call true (.pushTask task), .loop, .loop, .loop, .caller true, .caller true] (start 0)
    final.loop = .sleeping ∧ final.taskQueue = [task] ∧
    (final.loop = .sleeping → final.taskQueue ≠ [] ∨ final.stop = true →
      ∃ caller request, final.callers caller = .notifying request) ∧
    (final.loop = .taking → final.taskQueue = [] → final.stop = true) :=
  ⟨rfl, rfl, notification_owed (Run.reaches_runAll (by simp [Run.Allowed]) rfl)⟩

/-- The members behind `queue_mutex_`. -/
def shared (state : LockedState Caller Db Result Reply) :
    List (ThreadTask Db Result Reply) × List Reply × Bool :=
  (state.taskQueue, state.completedCallbacks, state.stop)

theorem step_shared (sound : Sound state) {event : LockEvent Caller Db Result Reply}
    (stepped : state.step event = some next) :
    next.shared = state.shared ∨ ∃ party, event.party = some party ∧ state.owner = some party := by
  have owner : ∀ {party}, state.inside party = true → state.owner = some party :=
    fun held => (sound.guards _).mpr held
  cases step_move stepped with
  | park loop | leave loop | take loop | store loop =>
      exact Or.inr ⟨.loop, rfl, owner (congrArg LoopStage.inside loop)⟩
  | swap flusher => exact Or.inr ⟨.flusher, rfl, owner (congrArg FlushStage.inside flusher)⟩
  | perform stage => exact Or.inr ⟨.caller _, rfl, owner (congrArg CallerStage.inside stage)⟩
  | lock | find | miss | work | forgo | report | lockQueueing | lockFlusher | deliver | delivered
  | lockCaller | notifyPush | notifyStop | join | call | flush | wake => exact Or.inl rfl

/-- No two parties are between lock and unlock at once, and in every step that changes a queue or
`stop_`, the party that takes the step owns the mutex. -/
theorem queueMutex_protects {db : Db}
    (reached : Run.Reaches step (fun _ _ => True) (start db) state) :
    (∀ party other, state.inside party = true → state.inside other = true → party = other) ∧
    ∀ event next, state.step event = some next → next.shared ≠ state.shared →
      ∃ party, event.party = some party ∧ state.owner = some party ∧ state.inside party = true := by
  have sound := sound_of_reaches reached
  refine ⟨fun _ _ first second => sound.guards.unique first second, ?_⟩
  intro event next stepped changed
  rcases step_shared sound stepped with same | ⟨party, acts, owner⟩
  · exact absurd same changed
  · exact ⟨party, acts, owner, (sound.guards party).mp owner⟩

/-- A flush waits for the lock of a caller, who pushes a task. -/
theorem queueMutex_protects_push :
    let final : LockedState Bool ℕ ℕ ℕ := Run.runAll step
      [.flush, .call true (.pushTask ⟨none, none⟩), .caller true] (start 0)
    (final.step .flusher).isNone = true ∧
    (∀ party other, final.inside party = true → final.inside other = true → party = other) ∧
    ∀ event next, final.step event = some next → next.shared ≠ final.shared →
      ∃ party, event.party = some party ∧ final.owner = some party ∧ final.inside party = true :=
  ⟨rfl, queueMutex_protects (Run.reaches_runAll (by simp [Run.Allowed]) rfl)⟩

end LockedState

end GodotStream
