import GodotStream.Steady
import GodotStream.Unloading

/-!
# Scenes under their uuids

A scene is saved under the uuid of the node it was packed from, and cached under the uuid
whose path it was loaded from. What packed scenes have in common therefore holds of every
scene that a run keeps, if it held of the scene files of earlier sessions.
-/

namespace GodotStream

open Storage

variable {fits : Uuid → PackedScene → Prop}

namespace ObjectSceneCache

variable {cache : ObjectSceneCache}

/-- A scene that is cached after an update was cached before, or answers a request. -/
theorem peek_of_update {status : LoadingEntry → ThreadLoadStatus} {uuid : Uuid}
    {scene : PackedScene} (found : (cache.update status).sceneCache.peek uuid = some scene) :
    cache.sceneCache.peek uuid = some scene ∨
      ∃ entry ∈ cache.loadingRequests, entry.uuid = uuid ∧ status entry = .loaded (some scene) := by
  let known (other : ObjectSceneCache) : Prop := other.sceneCache.peek uuid = some scene →
    cache.sceneCache.peek uuid = some scene ∨
      ∃ entry ∈ cache.loadingRequests, entry.uuid = uuid ∧ status entry = .loaded (some scene)
  have updated : known (cache.update status) := by
    have start : known { cache with loadingRequests := [] } := Or.inl
    apply List.foldlRecOn (motive := known) _ _ start
    intro other otherKnown entry listed here
    simp only [pollRequest] at here
    split at here
    case h_1 answer answered =>
      cases answer with
      | none => exact otherKnown here
      | some loaded =>
          simp only [storeScene] at here
          by_cases own : uuid = entry.uuid
          · subst own
            rw [FixedSizedCache.peek_put_self] at here
            exact Or.inr ⟨entry, listed, rfl, answered.trans (congrArg _ here)⟩
          · exact otherKnown (FixedSizedCache.peek_put_of_ne own here)
    all_goals exact otherKnown here
  exact updated found

theorem mem_loadingRequests_of_update {status : LoadingEntry → ThreadLoadStatus}
    {entry : LoadingEntry} (waiting : entry ∈ (cache.update status).loadingRequests) :
    entry ∈ cache.loadingRequests := by
  let known (other : ObjectSceneCache) : Prop :=
    entry ∈ other.loadingRequests → entry ∈ cache.loadingRequests
  have updated : known (cache.update status) := by
    have start : known { cache with loadingRequests := [] } := by simp [known]
    apply List.foldlRecOn (motive := known) _ _ start
    intro other otherKnown polled listed here
    simp only [pollRequest] at here
    split at here
    case h_1 answer _ => cases answer <;> exact otherKnown here
    case h_2 => exact otherKnown here
    all_goals
      rcases List.mem_append.mp here with before | new
      · exact otherKnown before
      · exact List.mem_singleton.mp new ▸ listed
  exact updated waiting

theorem peek_requestScene (uuid other : Uuid) (path : ScenePath) (accepts : Bool) :
    (cache.requestScene uuid path accepts).2.sceneCache.peek other =
      cache.sceneCache.peek other := by
  simp only [requestScene]
  split
  · rfl
  · split
    · simp
    · split <;> simp

theorem mem_loadingRequests_of_requestScene {uuid : Uuid} {path : ScenePath} {accepts : Bool}
    {entry : LoadingEntry}
    (waiting : entry ∈ (cache.requestScene uuid path accepts).2.loadingRequests) :
    entry ∈ cache.loadingRequests ∨ entry = ⟨uuid, path⟩ := by
  simp only [requestScene] at waiting
  split at waiting
  · exact Or.inl waiting
  · split at waiting
    · exact Or.inl waiting
    · split at waiting
      · rcases List.mem_append.mp waiting with before | new
        · exact Or.inl before
        · exact Or.inr (List.mem_singleton.mp new)
      · exact Or.inl waiting
/-- The cached scenes fit their uuids, and each request reads the file of its uuid. -/
structure Stores (fits : Uuid → PackedScene → Prop) (cache : ObjectSceneCache) : Prop where
  cached : ∀ uuid scene, cache.sceneCache.peek uuid = some scene → fits uuid scene
  requests : ∀ entry ∈ cache.loadingRequests, entry.path.uuid = entry.uuid

theorem Stores.removeScene (stores : cache.Stores fits) (uuid : Uuid) :
    (cache.removeScene uuid).Stores fits := by
  refine ⟨?_, stores.requests⟩
  intro other scene found
  rw [ObjectSceneCache.removeScene, FixedSizedCache.peek_remove] at found
  split at found
  · simp at found
  · exact stores.cached other scene found

theorem Stores.requestScene (stores : cache.Stores fits) {uuid : Uuid} {path : ScenePath}
    (own : path.uuid = uuid) (accepts : Bool) :
    (cache.requestScene uuid path accepts).2.Stores fits := by
  refine ⟨?_, ?_⟩
  · intro other scene found
    rw [peek_requestScene] at found
    exact stores.cached other scene found
  · intro entry waiting
    rcases mem_loadingRequests_of_requestScene waiting with before | rfl
    · exact stores.requests entry before
    · exact own

theorem Stores.update (stores : cache.Stores fits) {status : LoadingEntry → ThreadLoadStatus}
    (loaded : ∀ entry scene, entry.path.uuid = entry.uuid →
      status entry = .loaded (some scene) → fits entry.uuid scene) :
    (cache.update status).Stores fits := by
  refine ⟨?_, fun entry waiting => stores.requests entry (mem_loadingRequests_of_update waiting)⟩
  intro uuid scene found
  rcases peek_of_update found with before | ⟨entry, listed, rfl, answered⟩
  · exact stores.cached uuid scene before
  · exact loaded entry scene (stores.requests entry listed) answered

/-- `acquire` changes the two caches. -/
theorem exists_acquire (cache : ObjectSceneCache) (objectDb : ObjectDB) (uuid : Uuid) :
    ∃ nodeCache sceneCache, (cache.acquire objectDb uuid).2.1 =
      { cache with nodeCache, sceneCache } := by
  have made (nodeCache : FixedSizedCache Uuid ObjectID) : ∃ nodeCache' sceneCache,
      (acquireInstance { cache with nodeCache } objectDb uuid).2.1 =
        { cache with nodeCache := nodeCache', sceneCache } := by
    simp only [acquireInstance, ObjectSceneCache.getScene]
    cases (cache.sceneCache.tryGet uuid).1 <;> exact ⟨_, _, rfl⟩
  simp only [acquire]
  split
  · exact made _
  · split
    · exact made _
    · split
      · exact made _
      · exact ⟨_, _, rfl⟩

/-- `acquire` asks the loader for nothing. -/
theorem loadingRequests_acquire (cache : ObjectSceneCache) (objectDb : ObjectDB) (uuid : Uuid) :
    (cache.acquire objectDb uuid).2.1.loadingRequests = cache.loadingRequests := by
  rcases exists_acquire cache objectDb uuid with ⟨_, _, same⟩
  rw [same]

theorem Stores.acquire (stores : cache.Stores fits) (objectDb : ObjectDB) (uuid : Uuid) :
    (cache.acquire objectDb uuid).2.1.Stores fits := by
  refine ⟨?_, ?_⟩
  · intro other scene found
    rw [(acquire_caches cache objectDb uuid).2] at found
    exact stores.cached other scene found
  · rw [loadingRequests_acquire]
    exact stores.requests

theorem Stores.release (stores : cache.Stores fits) (objectDb : ObjectDB) (uuid : Uuid)
    (id : ObjectID) : (cache.release objectDb uuid id).1.Stores fits := by
  rw [release_fst]
  exact ⟨stores.cached, stores.requests⟩

end ObjectSceneCache

namespace World

variable {world : World}

/-- Every scene fits the uuid that it is stored, cached or about to be saved under. -/
structure StoresScenes (fits : Uuid → PackedScene → Prop) (world : World) : Prop where
  files : ∀ path scene, world.files.get? path = some scene → fits path.uuid scene
  saves : ∀ task ∈ world.saveTasks, fits task.1.uuid task.2
  cache : world.manager.cache.Stores fits

theorem StoresScenes.mono {weaker : Uuid → PackedScene → Prop}
    (implies : ∀ uuid scene, fits uuid scene → weaker uuid scene)
    (stores : world.StoresScenes fits) : world.StoresScenes weaker :=
  ⟨fun path scene filed => implies _ _ (stores.files path scene filed),
    fun task queued => implies _ _ (stores.saves task queued),
    ⟨fun uuid scene cached => implies _ _ (stores.cache.cached uuid scene cached),
      stores.cache.requests⟩⟩

theorem StoresScenes.withManager (stores : world.StoresScenes fits) {objectDb : ObjectDB}
    {generated : ℕ} {manager : StreamManager} (cache : manager.cache.Stores fits) :
    StoresScenes fits { world with objectDb, generated, manager } :=
  ⟨stores.files, stores.saves, cache⟩

section Loading

theorem cache_addChild (world : World) (id : ObjectID) :
    (world.addChild id).manager.cache = world.manager.cache := by
  have entered (other : World) :
      (other.onObjectEntered id).manager.cache = other.manager.cache := by
    simp only [onObjectEntered]
    split
    · rfl
    · split
      · exact StreamManager.cache_addObject _ _ _
      · rfl
  simp only [addChild]
  split
  · rfl
  · split
    · split
      · exact entered _
      · rfl
    · rfl

theorem StoresScenes.addChild (stores : world.StoresScenes fits) (id : ObjectID) :
    (world.addChild id).StoresScenes fits := by
  have sameCache := cache_addChild world id
  rw [(loads_addChild world id).frame]
  refine ⟨stores.files, stores.saves, ?_⟩
  simpa only [sameCache] using stores.cache

theorem StoresScenes.loadObjectScene (stores : world.StoresScenes fits) (loader : Loader)
    (uuid : Uuid) : (world.loadObjectScene loader uuid).StoresScenes fits := by
  have acquired : (world.acquired uuid).StoresScenes fits :=
    ⟨stores.files, stores.saves, stores.cache.acquire _ _⟩
  apply loadObjectScene_rule stores acquired
  · have own : ((world.acquired uuid).manager.objectScenePath uuid).uuid = uuid := rfl
    have requested := acquired.cache.requestScene own
    simp only [requestScene]
    split
    · exact ⟨acquired.files, acquired.saves, requested _⟩
    · exact ⟨acquired.files, acquired.saves, requested _⟩
  · exact fun id => acquired.addChild id

/-- A finished load has the content of the file of its request. -/
theorem StoresScenes.updateCache (stores : world.StoresScenes fits) (loader : Loader) :
    (world.updateCache loader).StoresScenes fits := by
  refine ⟨stores.files, stores.saves, stores.cache.update ?_⟩
  intro entry scene own answered
  simp only [loadStatus] at answered
  split at answered
  · simp at answered
  · simp at answered
  · simp at answered
  · split at answered
    · simp at answered
    case h_2 stored found =>
      simp only [ThreadLoadStatus.loaded.injEq, Option.some.injEq] at answered
      rw [← own, ← answered]
      exact stores.files entry.path stored found

theorem StoresScenes.streamScenes (stores : world.StoresScenes fits) (loader : Loader) :
    (world.streamScenes loader).StoresScenes fits := by
  apply streamScenes_rule stores
  · exact fun other otherStores => otherStores.updateCache loader
  · exact fun other loadQueue loadedQueue otherStores => otherStores.withManager otherStores.cache
  · exact fun other uuid otherStores => otherStores.loadObjectScene loader uuid

end Loading

section Removal

theorem StoresScenes.removeCollected (stores : world.StoresScenes fits) (id : Uuid) :
    (world.removeCollected id).StoresScenes fits := by
  simp only [World.removeCollected]
  split
  · exact stores
  · refine ⟨?_, stores.saves, ?_⟩
    · intro path scene found
      simp only [deleteObjectScene, Table.get?_erase] at found
      split at found
      · simp at found
      · exact stores.files path scene found
    · simpa [StreamManager.eraseRegistryEntry, deleteObjectScene] using
        (stores.cache.removeScene id).removeScene id

theorem StoresScenes.runRemovals (stores : world.StoresScenes fits) :
    world.runRemovals.StoresScenes fits := by
  apply runRemovals_rule stores
  · intro other uuid otherStores _
    apply _removeObject_rule otherStores
    · exact fun inner id innerStores _ => innerStores.removeCollected id
    · exact fun inner childrenMap innerStores => innerStores.withManager innerStores.cache
  · exact fun other otherStores => otherStores.withManager otherStores.cache

end Removal

section Unloading

variable (packs : ∀ (world : World) node, fits node.uuid (world.packed node))

include packs

theorem StoresScenes.removeChild (stores : world.StoresScenes fits) (id : ObjectID) :
    (world.removeChild id).StoresScenes fits := by
  have exited : (world.onObjectExited id).StoresScenes fits := by
    simp only [onObjectExited]
    split
    · exact stores
    case h_2 node _ =>
      split
      · refine ⟨stores.files, ?_, stores.cache⟩
        intro task queued
        rcases List.mem_append.mp queued with before | new
        · exact stores.saves task before
        · rw [List.mem_singleton.mp new]
          exact packs world node
      · simp only [StreamManager.removeObject]
        split
        · exact stores
        · exact ⟨stores.files, stores.saves, stores.cache⟩
  simp only [World.removeChild]
  split
  · exact stores
  · split
    · split
      · exact ⟨exited.files, exited.saves, exited.cache⟩
      · exact ⟨stores.files, stores.saves, stores.cache⟩
    · exact stores

theorem StoresScenes.unloadCollected (stores : world.StoresScenes fits) (objId : Uuid) :
    (world.unloadCollected objId).StoresScenes fits := by
  have touched : (world.touchEntry objId).StoresScenes fits := stores.withManager stores.cache
  simp only [World.unloadCollected]
  split
  · exact touched
  · have removed := touched.removeChild packs ((world.touchEntry objId).manager.nodeRootOf objId)
    exact ⟨removed.files, removed.saves, removed.cache.release _ _ _⟩

theorem StoresScenes.onQueryResult (stores : world.StoresScenes fits)
    (dbObjects : Table Uuid ObjectData) :
    (world.onQueryResult dbObjects).StoresScenes fits := by
  apply onQueryResult_rule stores
  · exact fun other pendingRemoval otherStores => otherStores.withManager otherStores.cache
  · exact fun other objId otherStores _ => otherStores.unloadCollected packs objId
  · exact fun other uuid otherStores _ => otherStores.withManager otherStores.cache
  · intro other otherStores
    apply otherStores.withManager
    simpa using otherStores.cache

theorem StoresScenes.flushCallbacks (stores : world.StoresScenes fits) :
    world.flushCallbacks.StoresScenes fits := by
  apply flushCallbacks_rule stores
  · exact fun worker _ => ⟨stores.files, stores.saves, stores.cache⟩
  · exact fun other worker dbObjects otherStores _ _ => otherStores.onQueryResult packs dbObjects

end Unloading

section Events

theorem StoresScenes.flushPendingDbOps (stores : world.StoresScenes fits) :
    world.flushPendingDbOps.StoresScenes fits := by
  simp only [World.flushPendingDbOps]
  split
  · exact stores
  · split
    · exact stores
    · split <;> exact ⟨stores.files, stores.saves, stores.cache⟩

theorem StoresScenes.queryProbes (stores : world.StoresScenes fits) :
    world.queryProbes.StoresScenes fits := by
  simp only [World.queryProbes]
  split
  · split <;> exact ⟨stores.files, stores.saves, stores.cache⟩
  · exact ⟨stores.files, stores.saves, stores.cache⟩

theorem StoresScenes.process (stores : world.StoresScenes fits) (loader : Loader) :
    (world.process loader).StoresScenes fits := by
  have removed := stores.runRemovals
  simp only [World.process]
  split
  · exact stores
  · apply StoresScenes.streamScenes
    split
    · exact removed
    · exact removed.flushPendingDbOps.queryProbes

theorem StoresScenes.asyncSave (stores : world.StoresScenes fits) {index : ℕ} {next : World}
    (saved : world.asyncSaveObject index = some next) : next.StoresScenes fits := by
  rcases Option.map_eq_some_iff.mp saved with ⟨task, found, rfl⟩
  have queued : task ∈ world.saveTasks := List.mem_of_getElem? found
  refine ⟨?_, fun other listed => stores.saves other (List.mem_of_mem_eraseIdx listed),
    stores.cache⟩
  intro path scene stored
  simp only [Table.get?_insert] at stored
  split at stored
  case isTrue same =>
    rw [same, ← Option.some.inj stored]
    exact stores.saves task queued
  case isFalse => exact stores.files path scene stored

theorem StoresScenes.step (packs : ∀ (world : World) node, fits node.uuid (world.packed node))
    (stores : world.StoresScenes fits) {event : Event} {next : World}
    (stepped : world.step event = some next) : next.StoresScenes fits := by
  cases happens_of_step stepped with
  | enter id =>
      have orphaned : (world.setMount id .orphan).StoresScenes fits :=
        ⟨stores.files, stores.saves, stores.cache⟩
      exact orphaned.addChild id
  | exit id | reparent id | deleteQueued id =>
      have removed := stores.removeChild packs id
      exact ⟨removed.files, removed.saves, removed.cache⟩
  | addObject | removeObject | updateObject =>
      apply stores.withManager
      simpa using stores.cache
  | aabbChanged id aabb =>
      apply stores.withManager
      split
      · simpa using stores.cache
      · exact stores.cache
  | process loader => exact stores.process loader
  | flushCallbacks => exact stores.flushCallbacks packs
  | asyncSave index => exact stores.asyncSave stepped
  | create | queueFree | boxChanged | loadProbe | unloadProbe | workerStep =>
      exact ⟨stores.files, stores.saves, stores.cache⟩

theorem storesScenes_make {db : StreamSqliteDB} {files : Table ScenePath PackedScene}
    {sceneCap nodeCap : ℕ} {uuidGenerator : ℕ → {uuid : Uuid // uuid ≠ Uuid.nil}}
    (filesFit : ∀ path scene, files.get? path = some scene → fits path.uuid scene) :
    (make db files sceneCap nodeCap uuidGenerator).StoresScenes fits where
  files := filesFit
  saves := by simp [make]
  cache := ⟨by simp [make, StreamManager.make, ObjectSceneCache.make],
    by simp [make, StreamManager.make, ObjectSceneCache.make]⟩

end Events

end World

end GodotStream
