import GodotStream.Lib.Run
import GodotStream.World

/-!
# Events

What can happen to a manager that stays inside the tree: the user's operations on
nodes, calls of the public functions, frames, rounds of the database thread,
delivered callbacks and finished save tasks. `step` gives the next state, or none
when the event cannot happen.
-/

namespace GodotStream

open Storage

inductive Event where
  /-- A new node is made outside the tree. -/
  | create (uuid parentUuid : Uuid) (aabb : AABB)
  /-- A node is added below the manager. -/
  | enter (id : ObjectID)
  /-- A child is removed by `remove_child`. -/
  | exit (id : ObjectID)
  /-- A child is moved below another node of the running scene. -/
  | reparent (id : ObjectID)
  | queueFree (id : ObjectID)
  /-- A node that is queued for deletion is destroyed. -/
  | deleteQueued (id : ObjectID)
  | addObject (id : ObjectID)
  | removeObject (uuid : Uuid)
  /-- The parent uuid of a node is set and the manager is told. -/
  | updateObject (id : ObjectID) (parentUuid : Uuid)
  /-- The transform of a node changes its box. -/
  | aabbChanged (id : ObjectID) (aabb : AABB)
  /-- The box of a node changes without a call, as when one of its sources enters the tree. -/
  | boxChanged (id : ObjectID) (aabb : AABB)
  | loadProbe (id : ObjectID) (aabb : AABB)
  | unloadProbe (id : ObjectID)
  | process (loader : Loader)
  | workerStep
  | flushCallbacks
  | asyncSave (index : ℕ)

namespace World

/-- Move a child out of the manager. -/
def exitChild (world : World) (id : ObjectID) (mount : Mount) : Option World :=
  match world.objectDb.getInstance id with
  | none => none
  | some node =>
      if node.mount = .manager then some ((world.removeChild id).setMount id mount) else none

def step (world : World) : Event → Option World
  | .create uuid parentUuid aabb =>
      some { world with objectDb := world.objectDb.create { uuid, parentUuid, aabb } }
  | .enter id =>
      match world.objectDb.getInstance id with
      | none => none
      | some node =>
          if node.mount = .manager then none
          else some ((world.setMount id .orphan).addChild id)
  | .exit id => world.exitChild id .orphan
  | .reparent id => world.exitChild id .elsewhere
  | .queueFree id =>
      match world.objectDb.getInstance id with
      | none => none
      | some _ =>
          some { world with
            objectDb := world.objectDb.modify id fun node =>
              { node with queuedForDeletion := true } }
  | .deleteQueued id =>
      match world.objectDb.getInstance id with
      | none => none
      | some node =>
          if node.queuedForDeletion then
            let world := world.removeChild id
            some { world with objectDb := world.objectDb.free id }
          else none
  | .addObject id =>
      match world.objectDb.getInstance id with
      | none => none
      | some node => some { world with manager := world.manager.addObject id node }
  | .removeObject uuid => some { world with manager := world.manager.removeObject uuid }
  | .updateObject id parentUuid =>
      match world.objectDb.getInstance id with
      | none => none
      | some node =>
          if node.uuid = Uuid.nil then none
          else
            let node := { node with parentUuid }
            some { world with
              objectDb := world.objectDb.modify id fun _ => node
              manager := world.manager.updateObject id node }
  | .aabbChanged id aabb =>
      match world.objectDb.getInstance id with
      | none => none
      | some node =>
          let node := { node with aabb }
          some { world with
            objectDb := world.objectDb.modify id fun _ => node
            manager :=
              if node.mount = .manager then world.manager.onObjectAabbChanged node
              else world.manager }
  | .boxChanged id aabb =>
      match world.objectDb.getInstance id with
      | none => none
      | some node =>
          some { world with objectDb := world.objectDb.modify id fun _ => { node with aabb } }
  | .loadProbe id aabb =>
      some { world with
        probes := world.probes.insert id aabb
        manager := { world.manager with
          registeredProbes := world.manager.registeredProbes.insert id () } }
  | .unloadProbe id =>
      some { world with
        probes := world.probes.erase id
        manager := { world.manager with
          registeredProbes := world.manager.registeredProbes.erase id } }
  | .process loader => some (world.process loader)
  | .workerStep =>
      match world.dbWorker with
      | none => none
      | some worker => worker.runNext.map fun worker => { world with dbWorker := some worker }
  | .flushCallbacks => some world.flushCallbacks
  | .asyncSave index => world.asyncSaveObject index

/-- What an event that can happen leads to. -/
inductive Happens (world : World) : Event → World → Prop where
  | create (uuid parentUuid : Uuid) (aabb : AABB) :
      Happens world (.create uuid parentUuid aabb)
        { world with objectDb := world.objectDb.create { uuid, parentUuid, aabb } }
  | enter (id : ObjectID) (node : StreamObjectNode)
      (found : world.objectDb.getInstance id = some node) (detached : node.mount ≠ .manager) :
      Happens world (.enter id) ((world.setMount id .orphan).addChild id)
  | exit (id : ObjectID) (node : StreamObjectNode)
      (found : world.objectDb.getInstance id = some node) (child : node.mount = .manager) :
      Happens world (.exit id) ((world.removeChild id).setMount id .orphan)
  | reparent (id : ObjectID) (node : StreamObjectNode)
      (found : world.objectDb.getInstance id = some node) (child : node.mount = .manager) :
      Happens world (.reparent id) ((world.removeChild id).setMount id .elsewhere)
  | queueFree (id : ObjectID) (node : StreamObjectNode)
      (found : world.objectDb.getInstance id = some node) :
      Happens world (.queueFree id) { world with
        objectDb := world.objectDb.modify id fun node => { node with queuedForDeletion := true } }
  | deleteQueued (id : ObjectID) (node : StreamObjectNode)
      (found : world.objectDb.getInstance id = some node) (queued : node.queuedForDeletion = true) :
      Happens world (.deleteQueued id) { world.removeChild id with
        objectDb := (world.removeChild id).objectDb.free id }
  | addObject (id : ObjectID) (node : StreamObjectNode)
      (found : world.objectDb.getInstance id = some node) :
      Happens world (.addObject id) { world with manager := world.manager.addObject id node }
  | removeObject (uuid : Uuid) :
      Happens world (.removeObject uuid) { world with manager := world.manager.removeObject uuid }
  | updateObject (id : ObjectID) (parentUuid : Uuid) (node : StreamObjectNode)
      (found : world.objectDb.getInstance id = some node) (named : node.uuid ≠ Uuid.nil) :
      Happens world (.updateObject id parentUuid) { world with
        objectDb := world.objectDb.modify id fun _ => { node with parentUuid }
        manager := world.manager.updateObject id { node with parentUuid } }
  | aabbChanged (id : ObjectID) (aabb : AABB) (node : StreamObjectNode)
      (found : world.objectDb.getInstance id = some node) :
      Happens world (.aabbChanged id aabb) { world with
        objectDb := world.objectDb.modify id fun _ => { node with aabb }
        manager :=
          if node.mount = .manager then world.manager.onObjectAabbChanged { node with aabb }
          else world.manager }
  | boxChanged (id : ObjectID) (aabb : AABB) (node : StreamObjectNode)
      (found : world.objectDb.getInstance id = some node) :
      Happens world (.boxChanged id aabb) { world with
        objectDb := world.objectDb.modify id fun _ => { node with aabb } }
  | loadProbe (id : ObjectID) (aabb : AABB) :
      Happens world (.loadProbe id aabb) { world with
        probes := world.probes.insert id aabb
        manager := { world.manager with
          registeredProbes := world.manager.registeredProbes.insert id () } }
  | unloadProbe (id : ObjectID) :
      Happens world (.unloadProbe id) { world with
        probes := world.probes.erase id
        manager := { world.manager with
          registeredProbes := world.manager.registeredProbes.erase id } }
  | process (loader : Loader) : Happens world (.process loader) (world.process loader)
  | workerStep (worker : AsyncDbWorker) (running : world.dbWorker = some worker)
      (after : AsyncDbWorker) (ran : worker.runNext = some after) :
      Happens world .workerStep { world with dbWorker := some after }
  | flushCallbacks : Happens world .flushCallbacks world.flushCallbacks
  | asyncSave (index : ℕ) (task : ScenePath × PackedScene)
      (waits : world.saveTasks[index]? = some task) :
      Happens world (.asyncSave index) { world with
        files := world.files.insert task.1 task.2
        saveTasks := world.saveTasks.eraseIdx index }

theorem exists_of_exitChild {world next : World} {id : ObjectID} {mount : Mount}
    (exited : world.exitChild id mount = some next) :
    ∃ node, world.objectDb.getInstance id = some node ∧ node.mount = .manager ∧
      next = (world.removeChild id).setMount id mount := by
  simp only [exitChild] at exited
  split at exited
  · simp at exited
  case h_2 node found =>
    split at exited
    case isTrue child => exact ⟨node, found, child, (Option.some.inj exited).symm⟩
    case isFalse => simp at exited

theorem happens_of_step {world next : World} {event : Event}
    (stepped : world.step event = some next) : Happens world event next := by
  cases event with
  | create uuid parentUuid aabb => exact Option.some.inj stepped ▸ .create uuid parentUuid aabb
  | removeObject uuid => exact Option.some.inj stepped ▸ .removeObject uuid
  | loadProbe id aabb => exact Option.some.inj stepped ▸ .loadProbe id aabb
  | unloadProbe id => exact Option.some.inj stepped ▸ .unloadProbe id
  | process loader => exact Option.some.inj stepped ▸ .process loader
  | flushCallbacks => exact Option.some.inj stepped ▸ .flushCallbacks
  | enter id =>
      simp only [World.step] at stepped
      split at stepped
      · simp at stepped
      case h_2 node found =>
        split at stepped
        · simp at stepped
        case isFalse detached => exact Option.some.inj stepped ▸ .enter id node found detached
  | exit id =>
      rcases exists_of_exitChild stepped with ⟨node, found, child, rfl⟩
      exact .exit id node found child
  | reparent id =>
      rcases exists_of_exitChild stepped with ⟨node, found, child, rfl⟩
      exact .reparent id node found child
  | queueFree id =>
      simp only [World.step] at stepped
      split at stepped
      · simp at stepped
      case h_2 node found => exact Option.some.inj stepped ▸ .queueFree id node found
  | deleteQueued id =>
      simp only [World.step] at stepped
      split at stepped
      · simp at stepped
      case h_2 node found =>
        split at stepped
        case isTrue queued => exact Option.some.inj stepped ▸ .deleteQueued id node found queued
        case isFalse => simp at stepped
  | addObject id =>
      simp only [World.step] at stepped
      split at stepped
      · simp at stepped
      case h_2 node found => exact Option.some.inj stepped ▸ .addObject id node found
  | updateObject id parentUuid =>
      simp only [World.step] at stepped
      split at stepped
      · simp at stepped
      case h_2 node found =>
        split at stepped
        · simp at stepped
        case isFalse named =>
          exact Option.some.inj stepped ▸ .updateObject id parentUuid node found named
  | aabbChanged id aabb =>
      simp only [World.step] at stepped
      split at stepped
      · simp at stepped
      case h_2 node found => exact Option.some.inj stepped ▸ .aabbChanged id aabb node found
  | boxChanged id aabb =>
      simp only [World.step] at stepped
      split at stepped
      · simp at stepped
      case h_2 node found => exact Option.some.inj stepped ▸ .boxChanged id aabb node found
  | workerStep =>
      simp only [World.step] at stepped
      split at stepped
      · simp at stepped
      case h_2 worker running =>
        rcases Option.map_eq_some_iff.mp stepped with ⟨after, ran, rfl⟩
        exact .workerStep worker running after ran
  | asyncSave index =>
      rcases Option.map_eq_some_iff.mp stepped with ⟨task, waits, rfl⟩
      exact .asyncSave index task waits

/-- The events, and single calls of the handlers inside them. -/
inductive Action where
  | event (event : Event)
  /-- `_on_query_result` with any result. -/
  | result (dbObjects : Table Uuid ObjectData)
  /-- `_load_object_scene` -/
  | load (loader : Loader) (uuid : Uuid)
  /-- `ObjectSceneCache::update` -/
  | update (loader : Loader)
  /-- `_unload_object` -/
  | unload (uuid : Uuid)

/-- Poll the background loads. -/
def updateCache (world : World) (loader : Loader) : World :=
  { world with
    manager := { world.manager with
      cache := world.manager.cache.update (world.loadStatus loader) } }

def act (world : World) : Action → Option World
  | .event event => world.step event
  | .result dbObjects => some (world.onQueryResult dbObjects)
  | .load loader uuid => some (world.loadObjectScene loader uuid)
  | .update loader => some (world.updateCache loader)
  | .unload uuid => some (world.unloadObject uuid)

/-- A loader that finds every file. -/
def eagerLoader : Loader :=
  { accepts := fun _ => true, progress := fun _ => .loaded }

/-- Uuids from 101 on. -/
def counting (index : ℕ) : {uuid : Uuid // uuid ≠ Uuid.nil} :=
  if index = 0 then ⟨101, by decide⟩ else ⟨102, by decide⟩

/-- An empty world. -/
def blank : World :=
  make .create ∅ 2 2 counting

def unitBox : AABB := ⟨⟨0, 0, 0⟩, ⟨1, 1, 1⟩⟩

end World

end GodotStream
