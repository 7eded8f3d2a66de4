import GodotStream.AsyncDbWorker
import GodotStream.StreamManager

/-!
# The manager in its world

The handlers of `stream_manager.cpp` with everything that they reach: the engine's
nodes, the scene files, the queued save tasks, the probes and the database thread.
Signals are delivered synchronously: mounting a child runs `onObjectEntered` and
detaching one runs `onObjectExited` while the node is still a child. Error reports
have no effect on the state and are left out.
-/

namespace GodotStream

open Storage

/-- How far the background loader has come with a path. -/
inductive LoadProgress where
  | invalidResource
  | inProgress
  | failed
  | loaded

/-- The engine's answers to load requests during one frame. -/
structure Loader where
  accepts : ScenePath → Bool
  progress : ScenePath → LoadProgress

structure World where
  manager : StreamManager
  objectDb : ObjectDB
  files : Table ScenePath PackedScene
  saveTasks : List (ScenePath × PackedScene)
  captures : ℕ
  dbWorker : Option AsyncDbWorker
  probes : Table ObjectID AABB
  uuidGenerator : ℕ → {uuid : Uuid // uuid ≠ Uuid.nil}
  generated : ℕ

namespace World

/-- A world with a fresh manager, over the database and the scene files of earlier sessions. The
captures that it counts are later than those of the files. -/
def make (db : StreamSqliteDB) (files : Table ScenePath PackedScene) (sceneCap nodeCap : ℕ)
    (uuidGenerator : ℕ → {uuid : Uuid // uuid ≠ Uuid.nil}) : World :=
  { manager := .make "" sceneCap nodeCap
    objectDb := .empty
    files
    saveTasks := []
    captures := files.entries.foldl (fun bound file => max bound (file.2.capture + 1)) 0
    dbWorker := some { db, taskQueue := [.init], completedCallbacks := [] }
    probes := ∅
    uuidGenerator
    generated := 0 }

def pushTask (world : World) (task : Task) : World :=
  { world with dbWorker := world.dbWorker.map fun worker => worker.pushTask task }

def onObjectEntered (world : World) (id : ObjectID) : World :=
  match world.objectDb.getInstance id with
  | none => world
  | some node =>
      if node.uuid = Uuid.nil then
        let uuid := (world.uuidGenerator world.generated).1
        let node := { node with uuid }
        { world with
          generated := world.generated + 1
          objectDb := world.objectDb.modify id fun _ => node
          manager := world.manager.addObject id node }
      else { world with manager := world.manager.setNodeRoot node.uuid id }

/-- Pack the node and queue the save of the scene. -/
def saveObjectToFile (world : World) (uuid : Uuid) (node : StreamObjectNode) : World :=
  let scene : PackedScene :=
    { root := some { uuid := node.uuid, parentUuid := node.parentUuid, aabb := node.aabb }
      capture := world.captures }
  { world with
    captures := world.captures + 1
    saveTasks := world.saveTasks ++ [(world.manager.objectScenePath uuid, scene)] }

def onObjectExited (world : World) (id : ObjectID) : World :=
  match world.objectDb.getInstance id with
  | none => world
  | some node =>
      let uuid := node.uuid
      if uuid ∈ world.manager.pendingRemoval ∨ node.queuedForDeletion ∨
          world.manager.queuedForDeletion then
        let world := world.saveObjectToFile uuid node
        { world with
          manager := { world.manager with dirtyAabb := world.manager.dirtyAabb.erase uuid } }
      else { world with manager := world.manager.removeObject uuid }

/-- Whether the child signals reach the manager. -/
def listening (world : World) : Bool :=
  world.manager.insideTree && world.manager.connected

def setMount (world : World) (id : ObjectID) (mount : Mount) : World :=
  { world with objectDb := world.objectDb.modify id fun node => { node with mount } }

/-- `add_child` of the manager; a node that has a parent is refused. -/
def addChild (world : World) (id : ObjectID) : World :=
  match world.objectDb.getInstance id with
  | none => world
  | some node =>
      if node.mount = .orphan then
        let world := world.setMount id .manager
        if world.listening then world.onObjectEntered id else world
      else world

/-- `remove_child` of the manager; a node that is not a child is refused. -/
def removeChild (world : World) (id : ObjectID) : World :=
  match world.objectDb.getInstance id with
  | none => world
  | some node =>
      if node.mount = .manager then
        (if world.listening then world.onObjectExited id else world).setMount id .orphan
      else world

/-- `StreamObjectNode::get_aabb` may be read while the node is inside the tree. -/
def isInsideTree (world : World) (node : StreamObjectNode) : Bool :=
  match node.mount with
  | .orphan => false
  | .manager => world.manager.insideTree
  | .elsewhere => true

def deleteObjectScene (world : World) (uuid : Uuid) : World :=
  { world with
    files := world.files.erase (world.manager.objectScenePath uuid)
    manager := { world.manager with cache := world.manager.cache.removeScene uuid } }

/-- The body of the loop in `_remove_object`. -/
def removeCollected (world : World) (id : Uuid) : World :=
  match world.manager.registry.get? id with
  | none => world
  | some data =>
      let world := world.deleteObjectScene id
      let manager := { world.manager with cache := world.manager.cache.removeScene id }
      let manager := manager.eraseChild data.parentUuid id
      let manager := { manager with
        registry := manager.registry.erase id
        toRemove := manager.toRemove.insert id () }
      { world with manager := manager.eraseRegistryEntry id }

/-- Remove an object with all its descendants. -/
def _removeObject (world : World) (uuid : Uuid) : World :=
  let toDelete := world.manager.collectDescendants uuid
  let world := toDelete.foldl removeCollected world
  { world with
    manager := { world.manager with
      childrenMap := toDelete.foldl Table.erase world.manager.childrenMap } }

/-- The removals that a frame starts with. -/
def runRemovals (world : World) : World :=
  let world := world.manager.objectRemoval.keys.foldl _removeObject world
  { world with manager := { world.manager with objectRemoval := ∅ } }

/-- Keep a detached node in the cache under a uuid. -/
def release (world : World) (uuid : Uuid) (id : ObjectID) : World :=
  let kept := world.manager.cache.release world.objectDb uuid id
  { world with
    objectDb := kept.2
    manager := { world.manager with cache := kept.1 } }

/-- `registry_[uuid]`, which creates an absent entry. -/
def touchEntry (world : World) (uuid : Uuid) : World :=
  { world with manager := { world.manager with registry := world.manager.registry.touch uuid } }

/-- The body of the loop in `_unload_object`. -/
def unloadCollected (world : World) (objId : Uuid) : World :=
  let world := world.touchEntry objId
  let nodeRoot := world.manager.nodeRootOf objId
  match world.objectDb.getInstance nodeRoot with
  | none => world
  | some _ =>
      let world := (world.removeChild nodeRoot).release objId nodeRoot
      { world with manager := world.manager.setNodeRoot objId 0 }

/-- Detach an object with all its descendants. -/
def unloadObject (world : World) (uuid : Uuid) : World :=
  if uuid = Uuid.nil ∨ uuid ∉ world.manager.registry then world
  else
    let allIds := world.manager.collectDescendants uuid
    let pending := allIds.foldl (fun set id => set.insert id ()) world.manager.pendingRemoval
    let world := { world with manager := { world.manager with pendingRemoval := pending } }
    let world := allIds.foldl unloadCollected world
    let pending := allIds.foldl Table.erase world.manager.pendingRemoval
    { world with manager := { world.manager with pendingRemoval := pending } }

/-- One object that is no longer in range. -/
def unloadStale (world : World) (uuid : Uuid) : World :=
  let world := world.unloadObject uuid
  { world with manager := world.manager.eraseRegistryEntry uuid }

def onQueryResult (world : World) (dbObjects : Table Uuid ObjectData) : World :=
  let world := (world.manager.toUnload dbObjects).foldl unloadStale world
  { world with manager := world.manager.applyObjects dbObjects }

/-- Ask the loader for a scene and try again in a later frame. -/
def requestScene (world : World) (loader : Loader) (uuid : Uuid) : World :=
  let path := world.manager.objectScenePath uuid
  let answer := world.manager.cache.requestScene uuid path (loader.accepts path)
  let manager := { world.manager with cache := answer.2 }
  if answer.1 then
    { world with manager := { manager with loadedQueue := manager.loadedQueue ++ [uuid] } }
  else { world with manager }

/-- Mount an instance; one of another type is destroyed. -/
def mountInstance (world : World) (made : Instance) : World :=
  match made with
  | .other => world
  | .object id => world.addChild id

/-- An acquired node that is queued for deletion is replaced by an instance of the cached scene. -/
def mountAcquired (world : World) (loader : Loader) (uuid : Uuid) (made : Instance) : World :=
  match made with
  | .other => world
  | .object id =>
      match world.objectDb.getInstance id with
      | none => world
      | some node =>
          if node.queuedForDeletion then
            match world.manager.cache.getScene uuid with
            | (some scene, cache) =>
                let fresh := scene.instantiate world.objectDb
                let world := { world with
                  objectDb := fresh.2
                  manager := { world.manager with cache } }
                world.mountInstance fresh.1
            | (none, cache) =>
                let world := { world with
                  manager := { world.manager with cache := cache.removeScene uuid } }
                world.requestScene loader uuid
          else world.mountInstance (.object id)

/-- What `acquire` leaves behind. -/
def acquired (world : World) (uuid : Uuid) : World :=
  let acquired := world.manager.cache.acquire world.objectDb uuid
  { world with
    objectDb := acquired.2.2
    manager := { world.manager with cache := acquired.2.1 } }

def loadObjectScene (world : World) (loader : Loader) (uuid : Uuid) : World :=
  if !world.manager.insideTree || world.manager.queuedForDeletion then world
  else if uuid = Uuid.nil then world
  else
    match world.manager.registry.get? uuid with
    | none => world
    | some data =>
        if data.nodeRoot ≠ 0 then world
        else
          match (world.manager.cache.acquire world.objectDb uuid).1 with
          | none => (world.acquired uuid).requestScene loader uuid
          | some made => (world.acquired uuid).mountAcquired loader uuid made

/-- Load from the front of the queue, a bounded number of times. -/
def runLoads (loader : Loader) : ℕ → World → World
  | 0, world => world
  | loads + 1, world =>
      match world.manager.loadQueue with
      | [] => world
      | uuid :: rest =>
          let world := { world with manager := { world.manager with loadQueue := rest } }
          runLoads loader loads (world.loadObjectScene loader uuid)

/-- The answer of the loader to a pending request: a finished load has the content of the file. -/
def loadStatus (world : World) (loader : Loader) (entry : LoadingEntry) : ThreadLoadStatus :=
  match loader.progress entry.path with
  | .invalidResource => .invalidResource
  | .inProgress => .inProgress
  | .failed => .failed
  | .loaded =>
      match world.files.get? entry.path with
      | none => .failed
      | some scene => .loaded (some scene)

/-- The boxes of the changed objects that can be read. -/
def dirtyData (world : World) : Table Uuid AABB :=
  world.manager.dirtyAabb.keys.foldl (fun data uuid =>
    match world.manager.registry.get? uuid with
    | none => data
    | some object =>
        match world.objectDb.getInstance object.nodeRoot with
        | none => data
        | some node => if world.isInsideTree node then data.insert uuid node.aabb else data) ∅

/-- The batch that the main thread captures. -/
def captureBatch (world : World) : FlushBatch :=
  { upsertData := world.manager.upsertData
    remove := world.manager.toRemove
    dirtyData := world.dirtyData }

def flushPendingDbOps (world : World) : World :=
  match world.dbWorker with
  | none => world
  | some _ =>
      let manager := world.manager
      if manager.toUpsertUuids.entries.isEmpty && manager.toRemove.entries.isEmpty &&
          manager.dirtyAabb.entries.isEmpty then world
      else
        let batch := world.captureBatch
        let world := { world with manager := world.manager.clearPending }
        if batch.upsertData.isEmpty && batch.remove.entries.isEmpty &&
            batch.dirtyData.entries.isEmpty then world
        else world.pushTask (.flush batch)

/-- Read one slot of the probe set; a probe that is gone is erased while the loop runs on. -/
def pollProbe (probes : Table ObjectID AABB) (state : Table ObjectID Unit × List AABB) (slot : ℕ) :
    Table ObjectID Unit × List AABB :=
  match state.1.entries[slot]? with
  | none => state
  | some entry =>
      match probes.get? entry.1 with
      | some aabb => (state.1, state.2 ++ [aabb])
      | none => (state.1.erase entry.1, state.2)

/-- Count the frame and query around the probes in every fourth one. -/
def queryProbes (world : World) : World :=
  let frames := world.manager.queryProcess + 1
  if frames ≥ 4 then
    let registered := world.manager.registeredProbes
    let polled := (List.range registered.entries.length).foldl (pollProbe world.probes)
      (registered, [])
    let world := { world with
      manager := { world.manager with registeredProbes := polled.1, queryProcess := 0 } }
    if polled.2.isEmpty then world else world.pushTask (.query polled.2)
  else { world with manager := { world.manager with queryProcess := frames } }

/-- Scenes that were requested in this frame are tried again in the next one. -/
def requeueLoaded (world : World) : World :=
  { world with
    manager := { world.manager with
      loadQueue := world.manager.loadQueue ++ world.manager.loadedQueue
      loadedQueue := [] } }

/-- The loading part of a frame. -/
def streamScenes (world : World) (loader : Loader) : World :=
  let cache := world.manager.cache.update (world.loadStatus loader)
  let world := { world with manager := { world.manager with cache } }
  (runLoads loader 4 world).requeueLoaded

def process (world : World) (loader : Loader) : World :=
  if !world.manager.insideTree then world
  else
    let world := world.runRemovals
    let world :=
      match world.dbWorker with
      | none => world
      | some _ => world.flushPendingDbOps.queryProbes
    world.streamScenes loader

def runCallback (world : World) (callback : Callback) : World :=
  match callback with
  | .nothing => world
  | .onQueryResult dbObjects => world.onQueryResult dbObjects

def flushCallbacks (world : World) : World :=
  match world.dbWorker with
  | none => world
  | some worker =>
      worker.completedCallbacks.foldl runCallback
        { world with dbWorker := some { worker with completedCallbacks := [] } }

/-- A queued save task runs on the worker pool. -/
def asyncSaveObject (world : World) (index : ℕ) : Option World :=
  world.saveTasks[index]?.map fun task =>
    { world with
      files := world.files.insert task.1 task.2
      saveTasks := world.saveTasks.eraseIdx index }

end World

end GodotStream
