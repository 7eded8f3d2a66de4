import GodotStream.Deletion

/-!
# Switching databases

A switch sets the directory of the scene files, makes sure that it exists, and then takes the
worker of the database: the present one if it serves the same path, else a new one, and the
old one works off its queue and goes. What waits for a flush is left as it is, so the next
frame hands it to the new database.
-/

namespace GodotStream

open Storage Run

/-- The functions of the engine's `String` that take paths apart and join them. -/
structure PathFunctions where
  getBaseDir : String → String
  getFile : String → String
  getBasename : String → String
  pathJoin : String → String → String

namespace StreamManager

def deriveObjectDir (paths : PathFunctions) (dbPath : String) : String :=
  let base := paths.getBaseDir dbPath
  let name := "." ++ paths.getBasename (paths.getFile dbPath)
  paths.pathJoin base name ++ "/"

end StreamManager

/-- The content of a database file, opened with empty caches. -/
def StreamSqliteDB.reopen (db : StreamSqliteDB) : StreamSqliteDB :=
  { create with objects := db.objects, chunks := db.chunks }

/-- The world, and the databases that its manager opens and closes. -/
structure Session where
  world : World
  ready : Bool
  databasePath : String
  /-- The path of the database that the worker serves. -/
  dbPath : Option String
  /-- The files of the databases that are not open. -/
  databases : String → StreamSqliteDB

inductive Request where
  | event (event : Event)
  /-- `_ready`, and whether the object directory exists or can be made. -/
  | ready (dirReady : Bool)
  | setDatabasePath (path : String) (dirReady : Bool)

namespace Session

/-- A worker that nobody holds works off its queue, and its database is closed. -/
def release (session : Session) : Option (String → StreamSqliteDB) :=
  match session.dbPath, session.world.dbWorker with
  | some path, some worker =>
      (AsyncDbWorker.drain worker.taskQueue worker.db).map fun db other =>
        if other = path then db else session.databases other
  | _, _ => some session.databases

/-- `AsyncDbWorker::make_db`, and the release of the worker that is replaced. -/
def makeDb (session : Session) (path : String) : Option Session :=
  if session.dbPath = some path then some session
  else
    session.release.map fun databases =>
      let worker : AsyncDbWorker :=
        { db := (session.databases path).reopen, taskQueue := [], completedCallbacks := [] }
      { session with
        world := { session.world with dbWorker := some worker }
        dbPath := some path
        databases }

def initDatabase (paths : PathFunctions) (session : Session) (path : String) (dirReady : Bool) :
    Option Session :=
  if path = "" then some session
  else
    let manager := { session.world.manager with
      objectSceneDir := StreamManager.deriveObjectDir paths path }
    let session := { session with world := { session.world with manager } }
    if dirReady then
      (session.makeDb path).map fun session =>
        { session with world := session.world.pushTask .init }
    else some session

def step (paths : PathFunctions) (session : Session) : Request → Option Session
  | .event event => (session.world.step event).map fun world => { session with world }
  | .ready dirReady =>
      if session.ready then none
      else
        let session := { session with ready := true }
        if session.databasePath = "" then some session
        else session.initDatabase paths session.databasePath dirReady
  | .setDatabasePath path dirReady =>
      let session := { session with databasePath := path }
      if session.ready then session.initDatabase paths path dirReady else some session

/-- A new manager over the database files, before it is ready. -/
def make (databases : String → StreamSqliteDB) (files : Table ScenePath PackedScene)
    (sceneCap nodeCap : ℕ) (uuidGenerator : ℕ → {uuid : Uuid // uuid ≠ Uuid.nil}) : Session :=
  { world := { World.make .create files sceneCap nodeCap uuidGenerator with dbWorker := none }
    ready := false
    databasePath := ""
    dbPath := none
    databases }

/-- What `_init_database` is called with, if it is called. -/
def opens (session : Session) : Request → Option (String × Bool)
  | .event _ => none
  | .ready dirReady =>
      if session.ready ∨ session.databasePath = "" then none
      else some (session.databasePath, dirReady)
  | .setDatabasePath path dirReady => if session.ready then some (path, dirReady) else none

end Session

/-- What waits for a flush. -/
inductive Change where
  | removal (uuid : Uuid)
  | upsert (uuid : Uuid)
  | delete (uuid : Uuid)
  | aabb (uuid : Uuid)
deriving DecidableEq

def StreamManager.Awaits (manager : StreamManager) : Change → Prop
  | .removal uuid => uuid ∈ manager.objectRemoval
  | .upsert uuid => uuid ∈ manager.toUpsertUuids
  | .delete uuid => uuid ∈ manager.toRemove
  | .aabb uuid => uuid ∈ manager.dirtyAabb

instance (manager : StreamManager) : ∀ change, Decidable (manager.Awaits change)
  | .removal _ | .upsert _ | .delete _ | .aabb _ => inferInstanceAs (Decidable (_ ∈ _))

def StreamManager.NothingWaits (manager : StreamManager) : Prop :=
  manager.objectRemoval.keys = [] ∧ manager.toUpsertUuids.keys = [] ∧
    manager.toRemove.keys = [] ∧ manager.dirtyAabb.keys = []

instance (manager : StreamManager) : Decidable manager.NothingWaits :=
  inferInstanceAs (Decidable (_ ∧ _))

/-- The changes that a task makes to its database. -/
def Task.changes : Task → List Change
  | .flush batch => batch.upsertData.map (fun entry => .upsert entry.1) ++
      batch.remove.keys.map .delete ++ batch.dirtyData.keys.map .aabb
  | _ => []

def World.tasks (world : World) : List Task :=
  match world.dbWorker with
  | none => []
  | some worker => worker.taskQueue

/-- The changes in the tasks that a step has queued. -/
def World.handedOver (before after : World) : List Change :=
  (after.tasks.drop before.tasks.length).flatMap Task.changes

/-- A run that notes which database was open when each waiting change was recorded. -/
structure Provenance where
  session : Session
  origin : Change → Option String
  /-- The changes that were handed to a database, each with its origin and that database. -/
  sent : List (Change × Option String × Option String)

namespace Provenance

/-- One removal of a frame: the deletes that it records have the origin of the removal. -/
def removeRecorded (origin : Change → Option String) (state : World × (Uuid → Option String))
    (root : Uuid) : World × (Uuid → Option String) :=
  let after := state.1._removeObject root
  (after, fun uuid =>
    if uuid ∈ after.manager.toRemove ∧ uuid ∉ state.1.manager.toRemove then origin (.removal root)
    else state.2 uuid)

/-- The origins of what a step hands over. -/
def handedOrigin (world : World) (origin : Change → Option String) : Change → Option String
  | .delete uuid =>
      (world.manager.objectRemoval.keys.foldl (removeRecorded origin)
        (world, fun uuid => origin (.delete uuid))).2 uuid
  | change => origin change

def step (paths : PathFunctions) (provenance : Provenance) (request : Request) :
    Option Provenance :=
  (provenance.session.step paths request).map fun next =>
    let world := provenance.session.world
    { session := next
      origin := fun change =>
        if world.manager.Awaits change then provenance.origin change
        else provenance.session.dbPath
      sent := provenance.sent ++ (world.handedOver next.world).map fun change =>
        (change, handedOrigin world provenance.origin change, next.dbPath) }

/-- The directory fits the database that the worker serves, and each change was handed to the
database under which it was recorded, or was recorded under none. -/
structure Consistent (paths : PathFunctions) (provenance : Provenance) : Prop where
  served : provenance.session.dbPath.isSome = provenance.session.world.dbWorker.isSome
  dir : ∀ path ∈ provenance.session.dbPath,
    provenance.session.world.manager.objectSceneDir = StreamManager.deriveObjectDir paths path
  sent : ∀ entry ∈ provenance.sent, entry.2.1 = none ∨ entry.2.1 = entry.2.2

/-- A switch fails only if the directory stays the same, and to another database it comes only
while no change waits. -/
def Careful (paths : PathFunctions) (provenance : Provenance) (request : Request) : Prop :=
  match provenance.session.opens request with
  | none => True
  | some (path, dirReady) =>
      path = "" ∨
        dirReady = false ∧ provenance.session.world.manager.objectSceneDir =
          StreamManager.deriveObjectDir paths path ∨
        dirReady = true ∧ (provenance.session.dbPath = none ∨
          provenance.session.dbPath = some path ∨
          provenance.session.world.manager.NothingWaits)

instance decidableCareful (paths : PathFunctions) (provenance : Provenance) (request : Request) :
    Decidable (Careful paths provenance request) := by
  simp only [Careful]
  split
  · exact isTrue trivial
  · infer_instance

end Provenance

namespace World

variable {world before middle after : World}

/-- A step leaves the directory, keeps the worker, and queues no task. -/
structure SameStore (before after : World) : Prop where
  dir : after.manager.objectSceneDir = before.manager.objectSceneDir
  running : after.dbWorker.isSome = before.dbWorker.isSome
  tasks : after.tasks <:+ before.tasks

theorem SameStore.refl (world : World) : SameStore world world :=
  ⟨rfl, rfl, List.suffix_refl _⟩

theorem SameStore.trans (first : SameStore before middle) (second : SameStore middle after) :
    SameStore before after :=
  ⟨second.dir.trans first.dir, second.running.trans first.running,
    second.tasks.trans first.tasks⟩

theorem SameStore.of_eq (dir : after.manager.objectSceneDir = before.manager.objectSceneDir)
    (dbWorker : after.dbWorker = before.dbWorker) : SameStore before after := by
  refine ⟨dir, by rw [dbWorker], ?_⟩
  rw [World.tasks, World.tasks, dbWorker]

theorem SameStore.handedOver (same : SameStore before after) : before.handedOver after = [] := by
  have shorter := same.tasks.length_le
  rw [World.handedOver, List.drop_eq_nil_of_le shorter, List.flatMap_nil]

theorem Loads.sameStore (loads : Loads before after) : SameStore before after := by
  apply SameStore.of_eq
  · rw [loads.frame]
  · rw [loads.frame]

theorem sameStore_removeChild (world : World) (id : ObjectID) :
    SameStore world (world.removeChild id) := by
  rcases exists_removeChild world id with ⟨_, _, _, _, _, same⟩
  rw [same]
  exact SameStore.of_eq rfl rfl

theorem sameStore_exitChild {id : ObjectID} {mount : Mount} {next : World}
    (exited : world.exitChild id mount = some next) : SameStore world next := by
  rcases exists_of_exitChild exited with ⟨_, _, _, rfl⟩
  exact (sameStore_removeChild world id).trans (SameStore.of_eq rfl rfl)

theorem sameStore_onQueryResult (world : World) (dbObjects : Table Uuid ObjectData) :
    SameStore world (world.onQueryResult dbObjects) := by
  apply onQueryResult_rule (SameStore.refl world)
  · exact fun other pendingRemoval same => same.trans (SameStore.of_eq rfl rfl)
  · intro other objId same _
    rcases exists_unloadCollected other objId with ⟨_, _, _, _, _, _, _, frame, _⟩
    rw [frame]
    exact same.trans (SameStore.of_eq rfl rfl)
  · exact fun other uuid same _ => same.trans (SameStore.of_eq rfl rfl)
  · intro other same
    rcases StreamManager.exists_applyObjects other.manager dbObjects with ⟨_, _, applied⟩
    rw [applied]
    exact same.trans (SameStore.of_eq rfl rfl)

theorem sameStore_flushCallbacks (world : World) : SameStore world world.flushCallbacks := by
  apply flushCallbacks_rule (SameStore.refl world)
  · intro worker running
    refine ⟨rfl, ?_, ?_⟩
    · rw [running]
      rfl
    · rw [World.tasks, World.tasks, running]
  · exact fun other worker dbObjects same _ _ =>
      same.trans (sameStore_onQueryResult other dbObjects)

/-- Only a frame queues tasks. -/
theorem sameStore_step {event : Event} {next : World} (stepped : world.step event = some next)
    (noFrame : ∀ loader, event ≠ .process loader) : SameStore world next := by
  cases happens_of_step stepped with
  | process loader => exact absurd rfl (noFrame loader)
  | flushCallbacks => exact sameStore_flushCallbacks world
  | removeObject uuid =>
      refine SameStore.of_eq ?_ rfl
      simp only [StreamManager.removeObject]
      split
      · rfl
      · rfl
  | exit id => exact sameStore_exitChild stepped
  | reparent id => exact sameStore_exitChild stepped
  | enter id =>
      have freed : SameStore world (world.setMount id .orphan) := SameStore.of_eq rfl rfl
      exact freed.trans (loads_addChild _ id).sameStore
  | deleteQueued id => exact (sameStore_removeChild world id).trans (SameStore.of_eq rfl rfl)
  | addObject id node found =>
      exact (loads_addObject world world.objectDb world.generated id node).sameStore
  | updateObject id parentUuid node found =>
      rcases StreamManager.updateObject_cases world.manager id { node with parentUuid } with
        ⟨_, same⟩ | ⟨_, _, _, same, _⟩
      · rw [same]
        exact SameStore.of_eq rfl rfl
      · rw [same]
        exact SameStore.of_eq rfl rfl
  | aabbChanged id aabb node found =>
      refine SameStore.of_eq ?_ rfl
      rcases StreamManager.exists_onObjectAabbChanged world.manager { node with aabb } with
        ⟨_, same⟩
      simp only [same]
      split
      · rfl
      · rfl
  | workerStep worker running next ran =>
      rcases AsyncDbWorker.runNext_cases ran with ⟨task, _, _, queued, _⟩
      refine ⟨rfl, by rw [running]; rfl, ?_⟩
      simp only [World.tasks, running, queued]
      exact List.suffix_cons task next.taskQueue
  | create | queueFree | boxChanged | loadProbe | unloadProbe | asyncSave =>
      exact SameStore.of_eq rfl rfl

/-- A step leaves the directory, keeps the worker, and queues only such tasks. -/
structure Queueing (allowed : Task → Prop) (before after : World) : Prop where
  dir : after.manager.objectSceneDir = before.manager.objectSceneDir
  running : after.dbWorker.isSome = before.dbWorker.isSome
  tasks : ∃ later, after.tasks = before.tasks ++ later ∧ ∀ task ∈ later, allowed task

theorem Queueing.trans {allowed : Task → Prop} (first : Queueing allowed before middle)
    (second : Queueing allowed middle after) : Queueing allowed before after := by
  refine ⟨second.dir.trans first.dir, second.running.trans first.running, ?_⟩
  rcases first.tasks with ⟨sooner, firstTasks, soonerAllowed⟩
  rcases second.tasks with ⟨later, secondTasks, laterAllowed⟩
  refine ⟨sooner ++ later, by rw [secondTasks, firstTasks, List.append_assoc], ?_⟩
  intro task listed
  rcases List.mem_append.mp listed with here | here
  · exact soonerAllowed task here
  · exact laterAllowed task here

theorem Queueing.of_eq {allowed : Task → Prop}
    (dir : after.manager.objectSceneDir = before.manager.objectSceneDir)
    (dbWorker : after.dbWorker = before.dbWorker) : Queueing allowed before after := by
  refine ⟨dir, by rw [dbWorker], [], ?_, fun _ listed => absurd listed List.not_mem_nil⟩
  rw [World.tasks, World.tasks, dbWorker, List.append_nil]

theorem Queueing.of_pushTask {allowed : Task → Prop} {task : Task} (fits : allowed task)
    (dir : after.manager.objectSceneDir = before.manager.objectSceneDir)
    (dbWorker : after.dbWorker = before.dbWorker.map fun worker => worker.pushTask task) :
    Queueing allowed before after := by
  refine ⟨dir, by rw [dbWorker, Option.isSome_map], ?_⟩
  cases running : before.dbWorker with
  | none => exact ⟨[], by simp [World.tasks, dbWorker, running], by simp⟩
  | some worker =>
      refine ⟨[task], by simp [World.tasks, dbWorker, running, AsyncDbWorker.pushTask], ?_⟩
      intro other listed
      rw [List.mem_singleton.mp listed]
      exact fits

/-- The batch of a flush, or a query. -/
def FlushesOrQueries (batch : FlushBatch) (task : Task) : Prop :=
  task = .flush batch ∨ ∃ aabbs, task = .query aabbs

theorem queueing_flushPendingDbOps (world : World) :
    Queueing (FlushesOrQueries world.captureBatch) world world.flushPendingDbOps := by
  have dir : world.flushPendingDbOps.manager.objectSceneDir = world.manager.objectSceneDir := by
    rw [flushPendingDbOps_frame]
  have pushed : world.flushPendingDbOps.dbWorker = world.dbWorker ∨
      world.flushPendingDbOps.dbWorker =
        world.dbWorker.map fun worker => worker.pushTask (.flush world.captureBatch) := by
    simp only [flushPendingDbOps]
    split
    · exact Or.inl rfl
    · split
      · exact Or.inl rfl
      · split
        · exact Or.inl rfl
        · exact Or.inr rfl
  rcases pushed with same | pushed
  · exact Queueing.of_eq dir same
  · exact Queueing.of_pushTask (Or.inl rfl) dir pushed

theorem queueing_queryProbes (batch : FlushBatch) (world : World) :
    Queueing (FlushesOrQueries batch) world world.queryProbes := by
  have dir : world.queryProbes.manager.objectSceneDir = world.manager.objectSceneDir := by
    rw [queryProbes_frame]
  rcases dbWorker_queryProbes world with same | ⟨aabbs, pushed⟩
  · exact Queueing.of_eq dir same
  · exact Queueing.of_pushTask (Or.inr ⟨aabbs, rfl⟩) dir pushed

/-- A frame queues at most the batch that it captures after its removals, and a query. -/
theorem queueing_process (world : World) (loader : Loader) :
    Queueing (FlushesOrQueries world.runRemovals.captureBatch) world (world.process loader) := by
  have removed : Queueing (FlushesOrQueries world.runRemovals.captureBatch) world
      world.runRemovals := by
    rw [(sparesEntry_runRemovals Uuid.nil world).frame]
    exact Queueing.of_eq rfl rfl
  have streamed (other : World) : Queueing (FlushesOrQueries world.runRemovals.captureBatch) other
      (other.streamScenes loader) := by
    rw [(loads_streamScenes other loader).frame]
    exact Queueing.of_eq rfl rfl
  simp only [process]
  split
  · exact Queueing.of_eq rfl rfl
  · apply removed.trans
    split
    · exact streamed _
    · apply Queueing.trans _ (streamed _)
      exact (queueing_flushPendingDbOps _).trans (queueing_queryProbes _ _)

/-- Only boxes of marked objects are captured. -/
theorem mem_dirtyAabb_of_dirtyData {uuid : Uuid} (captured : uuid ∈ world.dirtyData) :
    uuid ∈ world.manager.dirtyAabb := by
  let marked (data : Table Uuid AABB) : Prop := uuid ∈ data → uuid ∈ world.manager.dirtyAabb
  have all : marked world.dirtyData := by
    have start : marked ∅ := fun here => absurd here (Table.not_mem_empty uuid)
    apply List.foldlRecOn (motive := marked) _ _ start
    intro data dataMarked key listed here
    split at here
    · exact dataMarked here
    · split at here
      · exact dataMarked here
      · split at here
        · rcases Table.mem_insert.mp here with rfl | before
          · exact Table.mem_def.mpr listed
          · exact dataMarked before
        · exact dataMarked here
  exact all captured

theorem store_step {event : Event} {next : World} (stepped : world.step event = some next) :
    next.manager.objectSceneDir = world.manager.objectSceneDir ∧
      next.dbWorker.isSome = world.dbWorker.isSome := by
  by_cases isFrame : ∃ loader, event = .process loader
  · rcases isFrame with ⟨loader, rfl⟩
    rw [← Option.some.inj stepped]
    have queueing := queueing_process world loader
    exact ⟨queueing.dir, queueing.running⟩
  · have same := sameStore_step stepped fun loader isProcess => isFrame ⟨loader, isProcess⟩
    exact ⟨same.dir, same.running⟩

/-- What a captured batch changes has waited since before the removals, or is what they delete. -/
theorem awaits_of_captureBatch {change : Change}
    (captured : change ∈ (Task.flush world.runRemovals.captureBatch).changes) :
    (∃ uuid ∈ world.runRemovals.manager.toRemove, change = .delete uuid) ∨
      world.manager.Awaits change ∧ ∀ uuid, change ≠ .delete uuid := by
  simp only [Task.changes, List.mem_append, List.mem_map] at captured
  rcases captured with (⟨⟨uuid, data⟩, listed, rfl⟩ | ⟨uuid, listed, rfl⟩) | ⟨uuid, listed, rfl⟩
  · refine Or.inr ⟨?_, by simp⟩
    apply (sparesEntry_runRemovals uuid world).upserts
    exact (StreamManager.mem_upsertData.mp (List.mem_map_of_mem listed)).1
  · exact Or.inl ⟨uuid, Table.mem_def.mpr listed, rfl⟩
  · refine Or.inr ⟨?_, by simp⟩
    apply (sparesEntry_runRemovals uuid world).dirty
    exact mem_dirtyAabb_of_dirtyData (Table.mem_def.mpr listed)

end World

namespace Provenance

variable {paths : PathFunctions} {provenance : Provenance}

/-- A delete of a frame has the origin of a waiting delete or of a waiting removal. -/
theorem handedOrigin_delete (world : World) (origin : Change → Option String) {uuid : Uuid}
    (deleted : uuid ∈ world.runRemovals.manager.toRemove) :
    ∃ change, world.manager.Awaits change ∧ handedOrigin world origin (.delete uuid) =
      origin change := by
  let traced (state : World × (Uuid → Option String)) : Prop :=
    uuid ∈ state.1.manager.toRemove →
      ∃ change, world.manager.Awaits change ∧ state.2 uuid = origin change
  have first (state : World × (Uuid → Option String)) (roots : List Uuid) :
      (roots.foldl (removeRecorded origin) state).1 = roots.foldl World._removeObject state.1 := by
    induction roots generalizing state with
    | nil => rfl
    | cons root rest ih => exact ih _
  have start : traced (world, fun uuid => origin (.delete uuid)) :=
    fun waits => ⟨.delete uuid, waits, rfl⟩
  have all : traced (world.manager.objectRemoval.keys.foldl (removeRecorded origin)
      (world, fun uuid => origin (.delete uuid))) := by
    apply List.foldlRecOn (motive := traced) _ _ start
    intro state stateTraced root recorded waits
    by_cases before : uuid ∈ state.1.manager.toRemove
    · rcases stateTraced before with ⟨change, awaits, same⟩
      refine ⟨change, awaits, ?_⟩
      simp only [removeRecorded, before, not_true, and_false, if_false]
      exact same
    · refine ⟨.removal root, Table.mem_def.mpr recorded, ?_⟩
      exact if_pos ⟨waits, before⟩
  apply all
  rw [first]
  exact deleted

end Provenance

namespace Session

variable {paths : PathFunctions} {session next : Session}

/-- `_init_database` has run with a path: the directory is set in any case, and the worker only if
the directory is there. -/
structure Opened (paths : PathFunctions) (session next : Session) (path : String)
    (dirReady : Bool) : Prop where
  manager : next.world.manager = { session.world.manager with
    objectSceneDir := StreamManager.deriveObjectDir paths path }
  handed : session.world.handedOver next.world = []
  failed : dirReady = false →
    next.dbPath = session.dbPath ∧ next.world.dbWorker = session.world.dbWorker
  succeeded : dirReady = true → next.dbPath = some path ∧ next.world.dbWorker.isSome = true

theorem handedOver_nil {before after : World} (task : Task) (nothing : task.changes = [])
    (tasks : after.tasks = before.tasks ++ [task] ∨ after.tasks = [task]) :
    before.handedOver after = [] := by
  rcases tasks with appended | alone
  · rw [World.handedOver, appended, List.drop_left, List.flatMap_singleton, nothing]
  · rw [World.handedOver, alone, List.flatMap_eq_nil_iff]
    intro other listed
    rw [List.mem_singleton.mp (List.mem_of_mem_drop listed), nothing]

theorem opened_initDatabase {path : String} {dirReady : Bool}
    (served : session.dbPath.isSome = session.world.dbWorker.isSome) (nonempty : path ≠ "")
    (inits : session.initDatabase paths path dirReady = some next) :
    Opened paths session next path dirReady := by
  simp only [initDatabase, nonempty, if_false] at inits
  cases dirReady with
  | false =>
      simp only [Bool.false_eq_true, if_false, Option.some.injEq] at inits
      subst inits
      refine ⟨rfl, ?_, fun _ => ⟨rfl, rfl⟩, by simp⟩
      exact (World.SameStore.mk rfl rfl (List.suffix_refl _)).handedOver
  | true =>
      simp only [if_true, Option.map_eq_some_iff] at inits
      rcases inits with ⟨opened, made, rfl⟩
      simp only [makeDb] at made
      split at made
      case isTrue same =>
        rw [← Option.some.inj made]
        rw [same, Option.isSome_some, eq_comm, Option.isSome_iff_exists] at served
        rcases served with ⟨worker, running⟩
        refine ⟨rfl, ?_, by simp, fun _ => ⟨same, by simp [World.pushTask, running]⟩⟩
        apply handedOver_nil .init rfl
        left
        simp only [World.tasks, World.pushTask, running, Option.map_some, AsyncDbWorker.pushTask]
      case isFalse other =>
        rcases Option.map_eq_some_iff.mp made with ⟨databases, _, rfl⟩
        refine ⟨rfl, ?_, by simp, fun _ => ⟨rfl, rfl⟩⟩
        exact handedOver_nil .init rfl (Or.inr rfl)

/-- A request is an event of the world, calls `_init_database` with a path, or leaves world and
database alone. -/
theorem step_cases {request : Request}
    (served : session.dbPath.isSome = session.world.dbWorker.isSome)
    (stepped : session.step paths request = some next) :
    (∃ event world, request = .event event ∧ session.world.step event = some world ∧
        next = { session with world }) ∨
      (next.world = session.world ∧ next.dbPath = session.dbPath) ∨
      ∃ path dirReady, session.opens request = some (path, dirReady) ∧ path ≠ "" ∧
        Opened paths session next path dirReady := by
  cases request with
  | event event =>
      rcases Option.map_eq_some_iff.mp stepped with ⟨world, happened, same⟩
      exact Or.inl ⟨event, world, rfl, happened, same.symm⟩
  | ready dirReady =>
      right
      simp only [step] at stepped
      split at stepped
      · simp at stepped
      case isFalse unready =>
        split at stepped
        · rw [← Option.some.inj stepped]
          exact Or.inl ⟨rfl, rfl⟩
        case isFalse nonempty =>
          right
          refine ⟨session.databasePath, dirReady, ?_, nonempty, ?_⟩
          · exact if_neg (not_or.mpr ⟨unready, nonempty⟩)
          · have opened : Opened paths { session with ready := true } next session.databasePath
                dirReady := opened_initDatabase served nonempty stepped
            exact ⟨opened.manager, opened.handed, opened.failed, opened.succeeded⟩
  | setDatabasePath path dirReady =>
      right
      simp only [step] at stepped
      split at stepped
      case isFalse =>
        rw [← Option.some.inj stepped]
        exact Or.inl ⟨rfl, rfl⟩
      case isTrue isReady =>
        by_cases isEmpty : path = ""
        · left
          simp only [initDatabase, isEmpty, if_true, Option.some.injEq] at stepped
          rw [← stepped]
          exact ⟨rfl, rfl⟩
        · right
          refine ⟨path, dirReady, if_pos isReady, isEmpty, ?_⟩
          have opened : Opened paths { session with databasePath := path } next path dirReady :=
            opened_initDatabase served isEmpty stepped
          exact ⟨opened.manager, opened.handed, opened.failed, opened.succeeded⟩

end Session

namespace Provenance

variable {paths : PathFunctions} {provenance next : Provenance}

/-- What the runs preserve: what waits was recorded under the open database, or under none. -/
structure Sound (paths : PathFunctions) (provenance : Provenance) : Prop where
  consistent : provenance.Consistent paths
  origins : ∀ change, provenance.session.world.manager.Awaits change →
    provenance.origin change = none ∨ provenance.origin change = provenance.session.dbPath

/-- What a frame hands over was recorded under the open database, or under none. -/
theorem Sound.handedOrigin (sound : Sound paths provenance) {event : Event} {world : World}
    (happened : provenance.session.world.step event = some world) {change : Change}
    (handed : change ∈ provenance.session.world.handedOver world) :
    Provenance.handedOrigin provenance.session.world provenance.origin change = none ∨
      Provenance.handedOrigin provenance.session.world provenance.origin change =
        provenance.session.dbPath := by
  by_cases isFrame : ∃ loader, event = .process loader
  · rcases isFrame with ⟨loader, rfl⟩
    rw [← Option.some.inj happened] at handed
    rcases (World.queueing_process provenance.session.world loader).tasks with
      ⟨later, tasks, allowed⟩
    rw [World.handedOver, tasks, List.drop_left, List.mem_flatMap] at handed
    rcases handed with ⟨task, listed, changes⟩
    rcases allowed task listed with rfl | ⟨aabbs, rfl⟩
    · rcases World.awaits_of_captureBatch changes with ⟨uuid, deleted, rfl⟩ | ⟨awaits, other⟩
      · rcases handedOrigin_delete provenance.session.world provenance.origin deleted with
          ⟨source, awaits, same⟩
        rw [same]
        exact sound.origins source awaits
      · have own : Provenance.handedOrigin provenance.session.world provenance.origin change =
            provenance.origin change := by
          cases change with
          | delete uuid => exact absurd rfl (other uuid)
          | removal | upsert | aabb => rfl
        rw [own]
        exact sound.origins change awaits
    · simp [Task.changes] at changes
  · have same := World.sameStore_step happened fun loader isProcess => isFrame ⟨loader, isProcess⟩
    rw [same.handedOver] at handed
    exact absurd handed List.not_mem_nil

/-- A switch under the condition leaves the directory of the open database, and opens another one
only if nothing waits. -/
theorem Sound.opened (sound : Sound paths provenance) {request : Request}
    (careful : Careful paths provenance request) {path : String} {dirReady : Bool}
    (opens : provenance.session.opens request = some (path, dirReady)) (nonempty : path ≠ "")
    {session : Session} (opened : Session.Opened paths provenance.session session path dirReady) :
    session.dbPath.isSome = session.world.dbWorker.isSome ∧
      (∀ served ∈ session.dbPath,
        session.world.manager.objectSceneDir = StreamManager.deriveObjectDir paths served) ∧
      (provenance.session.dbPath = none ∨ session.dbPath = provenance.session.dbPath ∨
        provenance.session.world.manager.NothingWaits) := by
  simp only [Careful, opens] at careful
  have dir : session.world.manager.objectSceneDir = StreamManager.deriveObjectDir paths path := by
    rw [opened.manager]
  rcases careful.resolve_left nonempty with ⟨failed, same⟩ | ⟨succeeded, target⟩
  · rcases opened.failed failed with ⟨dbPath, dbWorker⟩
    refine ⟨?_, ?_, Or.inr (Or.inl dbPath)⟩
    · rw [dbPath, dbWorker]
      exact sound.consistent.served
    · intro served isServed
      rw [dbPath] at isServed
      rw [dir, ← same]
      exact sound.consistent.dir served isServed
  · rcases opened.succeeded succeeded with ⟨dbPath, running⟩
    refine ⟨by rw [dbPath, running]; rfl, ?_, ?_⟩
    · intro served isServed
      rw [dbPath, Option.mem_some_iff] at isServed
      rw [dir, isServed]
    · exact target.imp_right fun other => other.imp_left fun same => dbPath.trans same.symm

theorem not_awaits_of_nothingWaits {manager : StreamManager} (nothing : manager.NothingWaits)
    (change : Change) : ¬ manager.Awaits change := by
  rcases nothing with ⟨removals, upserts, deletes, boxes⟩
  cases change with
  | removal uuid => exact fun here => List.not_mem_nil (removals ▸ Table.mem_def.mp here)
  | upsert uuid => exact fun here => List.not_mem_nil (upserts ▸ Table.mem_def.mp here)
  | delete uuid => exact fun here => List.not_mem_nil (deletes ▸ Table.mem_def.mp here)
  | aabb uuid => exact fun here => List.not_mem_nil (boxes ▸ Table.mem_def.mp here)

theorem Sound.step (sound : Sound paths provenance) {request : Request}
    (careful : Careful paths provenance request)
    (stepped : provenance.step paths request = some next) : Sound paths next := by
  rcases Option.map_eq_some_iff.mp stepped with ⟨session, moved, rfl⟩
  have recorded (change : Change) :
      (if provenance.session.world.manager.Awaits change then provenance.origin change
        else provenance.session.dbPath) = none ∨
      (if provenance.session.world.manager.Awaits change then provenance.origin change
        else provenance.session.dbPath) = provenance.session.dbPath := by
    split
    case isTrue awaits => exact sound.origins change awaits
    case isFalse => exact Or.inr rfl
  rcases Session.step_cases sound.consistent.served moved with
    ⟨event, world, _, happened, rfl⟩ | ⟨sameWorld, samePath⟩ |
    ⟨path, dirReady, opens, nonempty, opened⟩
  · rcases World.store_step happened with ⟨dir, running⟩
    refine ⟨⟨?_, ?_, ?_⟩, fun change _ => recorded change⟩
    · exact sound.consistent.served.trans running.symm
    · exact fun path served => dir.trans (sound.consistent.dir path served)
    · intro entry listed
      rcases List.mem_append.mp listed with before | new
      · exact sound.consistent.sent entry before
      · rcases List.mem_map.mp new with ⟨change, handed, rfl⟩
        exact sound.handedOrigin happened handed
  · have nothing : provenance.session.world.handedOver session.world = [] := by
      rw [sameWorld]
      exact (World.SameStore.refl _).handedOver
    refine ⟨⟨?_, ?_, ?_⟩, ?_⟩
    · simp only [sameWorld, samePath]
      exact sound.consistent.served
    · simp only [sameWorld, samePath]
      exact sound.consistent.dir
    · simp only [nothing, List.map_nil, List.append_nil]
      exact sound.consistent.sent
    · intro change _
      simp only [samePath]
      exact recorded change
  · rcases sound.opened careful opens nonempty opened with ⟨served, dir, kept⟩
    refine ⟨⟨served, dir, ?_⟩, ?_⟩
    · simp only [opened.handed, List.map_nil, List.append_nil]
      exact sound.consistent.sent
    · intro change stillAwaits
      have awaits : provenance.session.world.manager.Awaits change := by
        rw [opened.manager] at stillAwaits
        cases change with
        | removal | upsert | delete | aabb => exact stillAwaits
      rcases kept with closed | same | nothing
      · have unrecorded := recorded change
        rw [closed, or_self] at unrecorded
        exact Or.inl (closed ▸ unrecorded)
      · rw [same]
        exact recorded change
      · exact absurd awaits (not_awaits_of_nothingWaits nothing change)

/-- The directory, the worker and its database are as before. -/
structure KeepsStore (before after : Session) : Prop where
  dir : after.world.manager.objectSceneDir = before.world.manager.objectSceneDir
  dbPath : after.dbPath = before.dbPath
  dbWorker : after.world.dbWorker = before.world.dbWorker

/-- In every run in which a switch fails only if the directory stays the same, and opens another
database only while nothing waits, the directory fits the open database, every change goes to the
database under which it was recorded, and a failing switch changes nothing. -/
theorem consistent_of_reaches {databases : String → StreamSqliteDB}
    {files : Table ScenePath PackedScene} {sceneCap nodeCap : ℕ}
    {uuidGenerator : ℕ → {uuid : Uuid // uuid ≠ Uuid.nil}}
    (reached : Reaches (step paths) (Careful paths)
      ⟨Session.make databases files sceneCap nodeCap uuidGenerator, fun _ => none, []⟩ provenance) :
    provenance.Consistent paths ∧
      ∀ request path dirReady, provenance.session.opens request = some (path, dirReady) →
        Careful paths provenance request → (path = "" ∨ dirReady = false) →
        ∀ next ∈ provenance.step paths request, KeepsStore provenance.session next.session := by
  have sound : Sound paths provenance := by
    apply reached.invariant
    · refine ⟨⟨rfl, by simp [Session.make], by simp⟩, fun _ _ => Or.inl rfl⟩
    · exact fun _ _ _ before careful stepped => before.step careful stepped
  refine ⟨sound.consistent, ?_⟩
  intro request path dirReady opens careful fails next stepped
  rcases Option.map_eq_some_iff.mp stepped with ⟨session, moved, rfl⟩
  rcases Session.step_cases sound.consistent.served moved with
    ⟨event, world, rfl, _, _⟩ | ⟨sameWorld, samePath⟩ |
    ⟨other, otherReady, otherOpens, nonempty, opened⟩
  · simp [Session.opens] at opens
  · exact ⟨by rw [sameWorld], samePath, by rw [sameWorld]⟩
  · rw [opens, Option.some.injEq, Prod.mk.injEq] at otherOpens
    rcases otherOpens with ⟨rfl, rfl⟩
    have failed := fails.resolve_left nonempty
    simp only [Careful, opens, nonempty, failed, false_or, true_and, Bool.false_eq_true, false_and,
      or_false] at careful
    rcases opened.failed failed with ⟨dbPath, dbWorker⟩
    refine ⟨?_, dbPath, dbWorker⟩
    rw [opened.manager]
    exact careful.symm

/-- The engine's functions on `user://a.db` and `user://b.db`. -/
def userPaths : PathFunctions where
  getBaseDir _ := "user://"
  getFile path := if path = "user://a.db" then "a.db" else "b.db"
  getBasename file := if file = "a.db" then "a" else "b"
  pathJoin base name := base ++ name

def twoDatabases : Provenance :=
  ⟨Session.make (fun _ => .create) ∅ 2 2 World.counting, fun _ => none, []⟩

/-- A switch after a frame. -/
def switchedIdle : List Request :=
  [.ready true, .setDatabasePath "user://a.db" true,
    .event (.create Uuid.nil Uuid.nil World.unitBox), .event (.enter 1),
    .event (.process World.eagerLoader), .setDatabasePath "user://b.db" true,
    .setDatabasePath "" true]

theorem consistent_switchedIdle :
    (runAll (step userPaths) switchedIdle twoDatabases).Consistent userPaths :=
  (consistent_of_reaches (reaches_runAll (by decide +kernel) (by decide +kernel))).1

/-- A switch to a database whose directory cannot be made. -/
def switchFailed : List Request :=
  [.ready true, .setDatabasePath "user://a.db" true, .setDatabasePath "user://b.db" false]

/-- A switch before the frame that would have flushed a new object. -/
def switchedBusy : List Request :=
  [.ready true, .setDatabasePath "user://a.db" true,
    .event (.create Uuid.nil Uuid.nil World.unitBox), .event (.enter 1),
    .setDatabasePath "user://b.db" true, .event (.process World.eagerLoader)]

/-- The directory is that of the other database, and the new object goes to the other database. -/
theorem switch_mixes :
    Reaches (step userPaths) (fun _ _ => True) twoDatabases
        (runAll (step userPaths) switchFailed twoDatabases) ∧
      (runAll (step userPaths) switchFailed twoDatabases).session.dbPath = some "user://a.db" ∧
      (runAll (step userPaths) switchFailed twoDatabases).session.world.manager.objectSceneDir ≠
        StreamManager.deriveObjectDir userPaths "user://a.db" ∧
      Reaches (step userPaths) (fun _ _ => True) twoDatabases
        (runAll (step userPaths) switchedBusy twoDatabases) ∧
      (runAll (step userPaths) switchedBusy twoDatabases).sent =
        [(.upsert 101, some "user://a.db", some "user://b.db"),
          (.aabb 101, some "user://a.db", some "user://b.db")] :=
  ⟨reaches_runAll (by decide +kernel) (by decide +kernel), by decide +kernel, by decide +kernel,
    reaches_runAll (by decide +kernel) (by decide +kernel), by decide +kernel⟩

end Provenance

end GodotStream
