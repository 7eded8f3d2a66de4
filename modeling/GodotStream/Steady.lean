import GodotStream.Handlers

/-!
# What no run changes

The manager stays inside the tree with its signals connected, the database thread runs,
and every frame hands the removed uuids to a flush, so none waits between two events.
No step changes the generator of uuids, and no unload is under way between two events.
-/

namespace GodotStream

open Storage

namespace World

/-- A step changes neither the setting nor the removed uuids that wait for a flush, and leaves no
unload unfinished. -/
structure SameSetting (before after : World) : Prop where
  uuidGenerator : after.uuidGenerator = before.uuidGenerator
  insideTree : after.manager.insideTree = before.manager.insideTree
  connected : after.manager.connected = before.manager.connected
  queuedForDeletion : after.manager.queuedForDeletion = before.manager.queuedForDeletion
  running : after.dbWorker.isSome = before.dbWorker.isSome
  toRemove : after.manager.toRemove = before.manager.toRemove
  pendingRemoval : ∀ uuid ∈ after.manager.pendingRemoval, uuid ∈ before.manager.pendingRemoval

variable {world : World}

theorem SameSetting.refl (world : World) : SameSetting world world :=
  ⟨rfl, rfl, rfl, rfl, rfl, rfl, fun _ pending => pending⟩

theorem SameSetting.trans {before middle after : World} (first : SameSetting before middle)
    (second : SameSetting middle after) : SameSetting before after where
  uuidGenerator := second.uuidGenerator.trans first.uuidGenerator
  insideTree := second.insideTree.trans first.insideTree
  connected := second.connected.trans first.connected
  queuedForDeletion := second.queuedForDeletion.trans first.queuedForDeletion
  running := second.running.trans first.running
  toRemove := second.toRemove.trans first.toRemove
  pendingRemoval := fun uuid pending =>
    first.pendingRemoval uuid (second.pendingRemoval uuid pending)

theorem Loads.sameSetting {after : World} (loads : Loads world after) :
    SameSetting world after := by
  rw [loads.frame]
  exact ⟨rfl, rfl, rfl, rfl, rfl, rfl, fun _ pending => pending⟩

theorem sameSetting_removeChild (world : World) (id : ObjectID) :
    SameSetting world (world.removeChild id) := by
  rcases exists_removeChild world id with ⟨_, _, _, _, _, same⟩
  rw [same]
  exact ⟨rfl, rfl, rfl, rfl, rfl, rfl, fun _ pending => pending⟩

section Delivery

/-- An unload leaves no uuid pending that was not pending before. -/
theorem sameSetting_unloadObject (world : World) (uuid : Uuid) :
    SameSetting world (world.unloadObject uuid) := by
  have unloaded (ids : List Uuid) (start : World) :
      SameSetting start (ids.foldl unloadCollected start) := by
    apply List.foldlRecOn (motive := SameSetting start) _ _ (SameSetting.refl start)
    intro other same id _
    rcases exists_unloadCollected other id with ⟨_, _, _, _, _, _, _, frame, _⟩
    rw [frame]
    exact same.trans ⟨rfl, rfl, rfl, rfl, rfl, rfl, fun _ pending => pending⟩
  simp only [unloadObject]
  split
  · exact SameSetting.refl world
  · rcases unloaded (world.manager.collectDescendants uuid) { world with
        manager := { world.manager with
          pendingRemoval := (world.manager.collectDescendants uuid).foldl
            (fun set id => set.insert id ()) world.manager.pendingRemoval } } with
      ⟨uuidGenerator, insideTree, connected, queuedForDeletion, running, toRemove, pending⟩
    refine ⟨uuidGenerator, insideTree, connected, queuedForDeletion, running, toRemove, ?_⟩
    intro other stillPending
    rw [Table.mem_iff_get?, Table.get?_foldl_erase] at stillPending
    split at stillPending
    · simp at stillPending
    case isFalse uncollected =>
      have inserted := pending other (Table.mem_iff_get?.mpr stillPending)
      exact (mem_foldl_insert.mp inserted).resolve_left uncollected

theorem sameSetting_onQueryResult (world : World) (dbObjects : Table Uuid ObjectData) :
    SameSetting world (world.onQueryResult dbObjects) := by
  have unloaded :
      SameSetting world ((world.manager.toUnload dbObjects).foldl unloadStale world) := by
    apply List.foldlRecOn (motive := SameSetting world) _ _ (SameSetting.refl world)
    intro other same uuid _
    exact same.trans ((sameSetting_unloadObject other uuid).trans
      ⟨rfl, rfl, rfl, rfl, rfl, rfl, fun _ pending => pending⟩)
  apply unloaded.trans
  rcases StreamManager.exists_applyObjects
    ((world.manager.toUnload dbObjects).foldl unloadStale world).manager dbObjects with
    ⟨_, _, applied⟩
  simp only [onQueryResult, applied]
  exact ⟨rfl, rfl, rfl, rfl, rfl, rfl, fun _ pending => pending⟩

theorem sameSetting_flushCallbacks (world : World) :
    SameSetting world world.flushCallbacks := by
  apply flushCallbacks_rule (⟨rfl, rfl, rfl, rfl, rfl, rfl, fun _ pending => pending⟩)
  · intro worker running
    exact ⟨rfl, rfl, rfl, rfl, (congrArg Option.isSome running).symm, rfl, fun _ pending => pending⟩
  · exact fun other worker dbObjects same _ _ =>
      same.trans (sameSetting_onQueryResult other dbObjects)

end Delivery

section Frames

theorem sameSetting_queryProbes (world : World) : SameSetting world world.queryProbes := by
  simp only [queryProbes]
  split
  · split
    · exact ⟨rfl, rfl, rfl, rfl, rfl, rfl, fun _ pending => pending⟩
    · exact ⟨rfl, rfl, rfl, rfl, Option.isSome_map, rfl, fun _ pending => pending⟩
  · exact ⟨rfl, rfl, rfl, rfl, rfl, rfl, fun _ pending => pending⟩

/-- A flush changes nothing of the setting and leaves no removed uuid waiting. -/
theorem flushPendingDbOps_setting (running : world.dbWorker.isSome = true) :
    SameSetting { world with manager := { world.manager with toRemove := ∅ } }
      world.flushPendingDbOps := by
  rcases Option.isSome_iff_exists.mp running with ⟨worker, found⟩
  simp only [flushPendingDbOps, found]
  split
  case isTrue noOps =>
    simp only [Bool.and_eq_true, List.isEmpty_iff] at noOps
    have nothing : world.manager.toRemove = ∅ := by
      cases toRemove : world.manager.toRemove with
      | mk entries distinct =>
          rw [toRemove] at noOps
          obtain rfl := noOps.1.2
          rfl
    exact ⟨rfl, rfl, rfl, rfl, congrArg Option.isSome found, nothing, fun _ pending => pending⟩
  case isFalse =>
    split <;> exact ⟨rfl, rfl, rfl, rfl, rfl, rfl, fun _ pending => pending⟩

end Frames

/-- The setting of every state of a run. -/
structure Steady (uuidGenerator : ℕ → {uuid : Uuid // uuid ≠ Uuid.nil}) (world : World) : Prop where
  uuidGenerator : world.uuidGenerator = uuidGenerator
  insideTree : world.manager.insideTree = true
  connected : world.manager.connected = true
  queuedForDeletion : world.manager.queuedForDeletion = false
  running : world.dbWorker.isSome = true
  toRemove : world.manager.toRemove = ∅
  pendingRemoval : ∀ uuid, uuid ∉ world.manager.pendingRemoval

variable {uuidGenerator : ℕ → {uuid : Uuid // uuid ≠ Uuid.nil}}

theorem Steady.of_same {after : World} (steady : world.Steady uuidGenerator)
    (same : SameSetting world after) : after.Steady uuidGenerator where
  uuidGenerator := same.uuidGenerator.trans steady.uuidGenerator
  insideTree := same.insideTree.trans steady.insideTree
  connected := same.connected.trans steady.connected
  queuedForDeletion := same.queuedForDeletion.trans steady.queuedForDeletion
  running := same.running.trans steady.running
  toRemove := same.toRemove.trans steady.toRemove
  pendingRemoval := fun uuid pending =>
    steady.pendingRemoval uuid (same.pendingRemoval uuid pending)

theorem Steady.listening (steady : world.Steady uuidGenerator) : world.listening = true := by
  rw [World.listening, steady.insideTree, steady.connected]
  rfl

theorem Steady.process (steady : world.Steady uuidGenerator) (loader : Loader) :
    (world.process loader).Steady uuidGenerator := by
  have frame := (sparesEntry_runRemovals Uuid.nil world).frame
  have running : world.runRemovals.dbWorker.isSome = true := by
    rw [frame]
    exact steady.running
  have emptied : Steady uuidGenerator { world.runRemovals with
      manager := { world.runRemovals.manager with toRemove := ∅ } } := by
    rw [frame]
    exact ⟨steady.uuidGenerator, steady.insideTree, steady.connected, steady.queuedForDeletion,
      steady.running, rfl, steady.pendingRemoval⟩
  have flushed := emptied.of_same (flushPendingDbOps_setting running)
  simp only [World.process]
  split
  · exact steady
  · split
    case h_1 stopped => simp [stopped] at running
    case h_2 =>
      have queried := flushed.of_same (sameSetting_queryProbes _)
      exact queried.of_same (loads_streamScenes _ loader).sameSetting

theorem Steady.step (steady : world.Steady uuidGenerator) {event : Event} {next : World}
    (stepped : world.step event = some next) : next.Steady uuidGenerator := by
  cases happens_of_step stepped with
  | enter id =>
      have orphaned : SameSetting world (world.setMount id .orphan) :=
        ⟨rfl, rfl, rfl, rfl, rfl, rfl, fun _ pending => pending⟩
      exact steady.of_same (orphaned.trans (loads_addChild _ id).sameSetting)
  | exit id | reparent id | deleteQueued id =>
      exact steady.of_same
        ((sameSetting_removeChild world id).trans
          ⟨rfl, rfl, rfl, rfl, rfl, rfl, fun _ pending => pending⟩)
  | addObject id => exact steady.of_same (loads_addObject _ _ _ _ _).sameSetting
  | removeObject uuid =>
      simp only [StreamManager.removeObject]
      split <;> exact steady.of_same ⟨rfl, rfl, rfl, rfl, rfl, rfl, fun _ pending => pending⟩
  | updateObject id parentUuid node =>
      rcases StreamManager.updateObject_cases world.manager id { node with parentUuid } with
        ⟨_, same⟩ | ⟨_, _, _, same, _⟩
      · rw [same]
        exact steady.of_same ⟨rfl, rfl, rfl, rfl, rfl, rfl, fun _ pending => pending⟩
      · rw [same]
        exact steady.of_same ⟨rfl, rfl, rfl, rfl, rfl, rfl, fun _ pending => pending⟩
  | aabbChanged id aabb node =>
      rcases StreamManager.exists_onObjectAabbChanged world.manager { node with aabb } with
        ⟨_, same⟩
      rw [same]
      split <;> exact steady.of_same ⟨rfl, rfl, rfl, rfl, rfl, rfl, fun _ pending => pending⟩
  | process loader => exact steady.process loader
  | workerStep worker running =>
      exact steady.of_same
        ⟨rfl, rfl, rfl, rfl, (congrArg Option.isSome running).symm, rfl, fun _ pending => pending⟩
  | flushCallbacks => exact steady.of_same (sameSetting_flushCallbacks world)
  | create | queueFree | boxChanged | loadProbe | unloadProbe | asyncSave =>
      exact steady.of_same ⟨rfl, rfl, rfl, rfl, rfl, rfl, fun _ pending => pending⟩

theorem steady_make (db : StreamSqliteDB) (files : Table ScenePath PackedScene)
    (sceneCap nodeCap : ℕ) (uuidGenerator : ℕ → {uuid : Uuid // uuid ≠ Uuid.nil}) :
    (make db files sceneCap nodeCap uuidGenerator).Steady uuidGenerator :=
  ⟨rfl, rfl, rfl, rfl, rfl, rfl, Table.not_mem_empty⟩

/-- Every state of every run has the setting of the fresh manager. -/
theorem steady_of_reaches {db : StreamSqliteDB} {files : Table ScenePath PackedScene}
    {sceneCap nodeCap : ℕ} {guard : World → Event → Prop}
    (reached : Run.Reaches World.step guard (make db files sceneCap nodeCap uuidGenerator) world) :
    world.Steady uuidGenerator :=
  reached.invariant (steady_make db files sceneCap nodeCap uuidGenerator)
    fun _ _ _ steady _ stepped => steady.step stepped

end World

end GodotStream
