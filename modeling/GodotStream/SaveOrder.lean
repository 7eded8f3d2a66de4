import GodotStream.SubtreeRemoval

/-!
# The order of saves

Each unload packs a scene and queues a save for its path; the pool executes the queued
saves in any order, while a removal deletes the file at once. A history of what each path
was last asked to hold shows that the disk follows it, as long as nothing is asked of a
path while a save for it still waits.
-/

namespace GodotStream

open Storage Run

namespace World

variable {world before middle after : World}

/-- The scene files and the queued saves are the same. -/
def SameDisk (before after : World) : Prop :=
  after.files = before.files ∧ after.saveTasks = before.saveTasks

/-- The scene files are the same, and saves may have been queued. -/
def Queues (before after : World) : Prop :=
  after.files = before.files ∧ before.saveTasks <+: after.saveTasks

theorem SameDisk.refl (world : World) : SameDisk world world :=
  ⟨rfl, rfl⟩

theorem SameDisk.trans (first : SameDisk before middle) (second : SameDisk middle after) :
    SameDisk before after :=
  ⟨second.1.trans first.1, second.2.trans first.2⟩

theorem SameDisk.queues (same : SameDisk before after) : Queues before after :=
  ⟨same.1, same.2 ▸ List.prefix_refl _⟩

theorem Queues.refl (world : World) : Queues world world :=
  (SameDisk.refl world).queues

theorem Queues.trans (first : Queues before middle) (second : Queues middle after) :
    Queues before after :=
  ⟨second.1.trans first.1, first.2.trans second.2⟩

theorem Loads.sameDisk (loads : Loads before after) : SameDisk before after := by
  refine ⟨?_, ?_⟩
  · rw [loads.frame]
  · rw [loads.frame]

theorem sameDisk_flushPendingDbOps (world : World) : SameDisk world world.flushPendingDbOps := by
  rw [flushPendingDbOps_frame]
  exact SameDisk.refl world

theorem sameDisk_queryProbes (world : World) : SameDisk world world.queryProbes := by
  rw [queryProbes_frame]
  exact SameDisk.refl world

theorem queues_removeChild (world : World) (id : ObjectID) :
    Queues world (world.removeChild id) := by
  have exited : Queues world (world.onObjectExited id) := by
    simp only [onObjectExited]
    split
    · exact Queues.refl world
    · split
      · exact ⟨rfl, List.prefix_append _ _⟩
      · exact Queues.refl world
  simp only [removeChild]
  split
  · exact Queues.refl world
  · split
    · split
      · exact exited
      · exact Queues.refl world
    · exact Queues.refl world

theorem queues_unloadCollected (world : World) (objId : Uuid) :
    Queues world (world.unloadCollected objId) := by
  simp only [unloadCollected]
  split
  · exact Queues.refl world
  · exact queues_removeChild (world.touchEntry objId)
      ((world.touchEntry objId).manager.nodeRootOf objId)

theorem queues_unloadObject (world : World) (uuid : Uuid) :
    Queues world (world.unloadObject uuid) := by
  apply unloadObject_rule (Queues.refl world)
  · exact fun other pendingRemoval queues => queues
  · exact fun other objId queues _ _ => queues.trans (queues_unloadCollected other objId)

theorem queues_onQueryResult (world : World) (dbObjects : Table Uuid ObjectData) :
    Queues world (world.onQueryResult dbObjects) := by
  apply onQueryResult_rule (Queues.refl world)
  · exact fun other pendingRemoval queues => queues
  · exact fun other objId queues _ => queues.trans (queues_unloadCollected other objId)
  · exact fun other uuid queues _ => queues
  · exact fun other queues => queues

theorem queues_flushCallbacks (world : World) : Queues world world.flushCallbacks := by
  apply flushCallbacks_rule (Queues.refl world)
  · exact fun worker _ => Queues.refl world
  · exact fun other worker dbObjects queues _ _ =>
      queues.trans (queues_onQueryResult other dbObjects)

theorem queues_exitChild {id : ObjectID} {mount : Mount}
    (exited : world.exitChild id mount = some after) : Queues world after := by
  rcases exists_of_exitChild exited with ⟨_, _, _, rfl⟩
  exact queues_removeChild world id

/-- Every action but a frame and a finished save queues saves at most. -/
theorem queues_act {action : Action} (acted : world.act action = some after)
    (noFrame : ∀ loader, action ≠ .event (.process loader))
    (noSave : ∀ index, action ≠ .event (.asyncSave index)) : Queues world after := by
  cases action with
  | event event =>
      have stepped : world.step event = some after := acted
      cases happens_of_step stepped with
      | enter id => exact (loads_addChild (world.setMount id .orphan) id).sameDisk.queues
      | exit id => exact queues_exitChild acted
      | reparent id => exact queues_exitChild acted
      | deleteQueued id => exact queues_removeChild world id
      | process loader => exact absurd rfl (noFrame loader)
      | flushCallbacks => exact queues_flushCallbacks world
      | asyncSave index => exact absurd rfl (noSave index)
      | create | queueFree | addObject | removeObject | updateObject | aabbChanged | boxChanged
      | loadProbe | unloadProbe | workerStep => exact Queues.refl world
  | result dbObjects =>
      rw [← Option.some.inj acted]
      exact queues_onQueryResult world dbObjects
  | load loader uuid =>
      rw [← Option.some.inj acted]
      exact (loads_loadObjectScene world loader uuid).sameDisk.queues
  | update loader =>
      rw [← Option.some.inj acted]
      exact Queues.refl world
  | unload uuid =>
      rw [← Option.some.inj acted]
      exact queues_unloadObject world uuid

/-- The scene files of the objects that are no longer registered are deleted. -/
structure Erases (before after : World) : Prop where
  path : ∀ uuid, after.manager.objectScenePath uuid = before.manager.objectScenePath uuid
  shrinks : ∀ uuid ∈ after.manager.registry, uuid ∈ before.manager.registry
  gone : ∀ uuid ∈ before.manager.registry, uuid ∉ after.manager.registry →
    after.files.get? (before.manager.objectScenePath uuid) = none
  kept : ∀ path, (∀ uuid ∈ before.manager.registry, uuid ∉ after.manager.registry →
    path ≠ before.manager.objectScenePath uuid) → after.files.get? path = before.files.get? path
  saves : after.saveTasks = before.saveTasks

theorem Erases.refl (world : World) : Erases world world :=
  ⟨fun _ => rfl, fun _ registered => registered, fun _ here absent => absurd here absent,
    fun _ _ => rfl, rfl⟩

theorem Erases.trans (first : Erases before middle) (second : Erases middle after) :
    Erases before after := by
  refine ⟨?_, ?_, ?_, ?_, second.saves.trans first.saves⟩
  · exact fun uuid => (second.path uuid).trans (first.path uuid)
  · exact fun uuid registered => first.shrinks uuid (second.shrinks uuid registered)
  · intro uuid here absent
    by_cases between : uuid ∈ middle.manager.registry
    · rw [← first.path]
      exact second.gone uuid between absent
    · rw [second.kept]
      · exact first.gone uuid here between
      · intro other otherBetween _ same
        rw [first.path, StreamManager.objectScenePath, StreamManager.objectScenePath,
          ScenePath.mk.injEq] at same
        exact between (same.2 ▸ otherBetween)
  · intro path spared
    rw [second.kept, first.kept]
    · exact fun uuid here absent =>
        spared uuid here fun later => absent (second.shrinks uuid later)
    · intro uuid between absent
      rw [first.path]
      exact spared uuid (first.shrinks uuid between) absent

theorem erases_removeCollected (world : World) (id : Uuid) :
    Erases world (world.removeCollected id) := by
  have registry (uuid : Uuid) : uuid ∈ (world.removeCollected id).manager.registry ↔
      uuid ≠ id ∧ uuid ∈ world.manager.registry := by
    simp only [Table.mem_iff_get?, get?_registry_removeCollected]
    by_cases same : uuid = id <;> simp [same]
  cases registered : world.manager.registry.get? id with
  | none =>
      simp only [removeCollected, registered]
      exact Erases.refl world
  | some data =>
      have files : (world.removeCollected id).files =
          world.files.erase (world.manager.objectScenePath id) := by
        simp only [removeCollected, registered, deleteObjectScene]
      refine ⟨?_, fun uuid here => ((registry uuid).mp here).2, ?_, ?_, ?_⟩
      · intro uuid
        have frame := (deletes_removeCollected world id).frame
        rw [frame]
        rfl
      · intro uuid here absent
        have same : uuid = id := by
          by_contra distinct
          exact absent ((registry uuid).mpr ⟨distinct, here⟩)
        rw [files, same, Table.get?_erase_self]
      · intro path spared
        rw [files, Table.get?_erase_of_ne]
        exact spared id (Table.mem_of_get? registered) fun here => ((registry id).mp here).1 rfl
      · simp only [removeCollected, registered, deleteObjectScene]

theorem erases_runRemovals (world : World) : Erases world world.runRemovals := by
  apply runRemovals_rule (Erases.refl world)
  · intro other uuid erases _
    apply _removeObject_rule erases
    · exact fun inner id innerErases _ => innerErases.trans (erases_removeCollected inner id)
    · exact fun inner childrenMap innerErases =>
        ⟨innerErases.path, innerErases.shrinks, innerErases.gone, innerErases.kept,
          innerErases.saves⟩
  · exact fun other erases =>
      ⟨erases.path, erases.shrinks, erases.gone, erases.kept, erases.saves⟩

/-- A frame does not touch the disk after its removals. -/
theorem sameDisk_process {loader : Loader} (inside : world.manager.insideTree = true) :
    SameDisk world.runRemovals (world.process loader) := by
  simp only [process, inside, Bool.not_true, Bool.false_eq_true, if_false]
  refine SameDisk.trans ?_ (loads_streamScenes _ loader).sameDisk
  split
  · exact SameDisk.refl _
  · exact (sameDisk_flushPendingDbOps _).trans (sameDisk_queryProbes _)

/-- What an action asks of the disk. -/
inductive FileOp where
  | save (path : ScenePath) (scene : PackedScene)
  | delete (path : ScenePath)

/-- The operations of one action: the saves that it has queued, or the files that its removals have
deleted. -/
def fileOps (world next : World) : Action → List FileOp
  | .event (.asyncSave _) => []
  | .event (.process _) =>
      if world.manager.insideTree then
        (world.manager.registry.keys.filter (· ∉ world.runRemovals.manager.registry)).map
          fun uuid => .delete (world.manager.objectScenePath uuid)
      else []
  | _ => (next.saveTasks.drop world.saveTasks.length).map fun save => .save save.1 save.2

/-- For each path the scene that was last packed for it, or `none` when its file was deleted after
that. -/
abbrev Wishes := Table ScenePath (Option PackedScene)

def FileOp.record (wishes : Wishes) : FileOp → Wishes
  | .save path scene => wishes.insert path (some scene)
  | .delete path => wishes.insert path none

/-- An action, with the history of what the paths should hold. -/
def wishStep (state : World × Wishes) (action : Action) : Option (World × Wishes) :=
  (state.1.act action).map fun next =>
    (next, (fileOps state.1 next action).foldl FileOp.record state.2)

/-- No operation asks anything of a path while a save for it waits. -/
def SettledOps (waiting : List ScenePath) : List FileOp → Prop
  | [] => True
  | .save path _ :: rest => path ∉ waiting ∧ SettledOps (waiting ++ [path]) rest
  | .delete path :: rest => path ∉ waiting ∧ SettledOps waiting rest

instance decidableSettledOps : ∀ waiting ops, Decidable (SettledOps waiting ops)
  | _, [] => isTrue trivial
  | waiting, .save path _ :: rest =>
      have := decidableSettledOps (waiting ++ [path]) rest
      inferInstanceAs (Decidable (_ ∧ _))
  | waiting, .delete _ :: rest =>
      have := decidableSettledOps waiting rest
      inferInstanceAs (Decidable (_ ∧ _))

/-- The condition on one action. -/
def Settled (state : World × Wishes) (action : Action) : Prop :=
  ∀ next ∈ state.1.act action,
    SettledOps (state.1.saveTasks.map Prod.fst) (fileOps state.1 next action)

instance (state : World × Wishes) (action : Action) : Decidable (Settled state action) := by
  unfold Settled
  infer_instance

/-- One save at most waits for each path, with the scene that the path should hold; the other paths
hold it already. -/
structure Faithful (files : Table ScenePath PackedScene)
    (saveTasks : List (ScenePath × PackedScene)) (wishes : Wishes) : Prop where
  distinct : (saveTasks.map Prod.fst).Nodup
  waiting : ∀ save ∈ saveTasks, wishes.get? save.1 = some (some save.2)
  done : ∀ path wish, wishes.get? path = some wish → path ∉ saveTasks.map Prod.fst →
    files.get? path = wish

section Faithful

variable {files filesAfter : Table ScenePath PackedScene}
  {saveTasks : List (ScenePath × PackedScene)} {wishes : Wishes}

theorem Faithful.save (faithful : Faithful files saveTasks wishes) {path : ScenePath}
    (scene : PackedScene) (settled : path ∉ saveTasks.map Prod.fst) :
    Faithful files (saveTasks ++ [(path, scene)]) (wishes.insert path (some scene)) := by
  refine ⟨?_, ?_, ?_⟩
  · rw [List.map_append, List.nodup_append]
    refine ⟨faithful.distinct, by simp, ?_⟩
    intro other otherWaits last lastWaits same
    simp only [List.map_cons, List.map_nil, List.mem_singleton] at lastWaits
    exact settled (lastWaits ▸ same ▸ otherWaits)
  · intro save waits
    rcases List.mem_append.mp waits with old | new
    · have other : save.1 ≠ path := fun same => settled (same ▸ List.mem_map_of_mem old)
      rw [Table.get?_insert_of_ne _ other]
      exact faithful.waiting save old
    · rw [List.mem_singleton] at new
      rw [new, Table.get?_insert_self]
  · intro other wish wished notWaiting
    simp only [List.map_append, List.map_cons, List.map_nil, List.mem_append, List.mem_singleton,
      not_or] at notWaiting
    rw [Table.get?_insert_of_ne _ notWaiting.2] at wished
    exact faithful.done other wish wished notWaiting.1

theorem Faithful.saves (saves : List (ScenePath × PackedScene))
    (faithful : Faithful files saveTasks wishes)
    (settled : SettledOps (saveTasks.map Prod.fst)
      (saves.map fun save => FileOp.save save.1 save.2)) :
    Faithful files (saveTasks ++ saves)
      ((saves.map fun save => FileOp.save save.1 save.2).foldl FileOp.record wishes) := by
  induction saves generalizing saveTasks wishes with
  | nil => simpa using faithful
  | cons save rest ih =>
      simp only [List.map_cons, SettledOps] at settled
      have next := ih (faithful.save save.2 settled.1)
        (by simpa only [List.map_append, List.map_cons, List.map_nil] using settled.2)
      rw [List.append_assoc] at next
      exact next

theorem get?_foldl_delete (paths : List ScenePath) (wishes : Wishes) (path : ScenePath) :
    ((paths.map FileOp.delete).foldl FileOp.record wishes).get? path =
      if path ∈ paths then some none else wishes.get? path := by
  induction paths generalizing wishes with
  | nil => simp
  | cons other rest ih =>
      rw [List.map_cons, List.foldl_cons, ih, FileOp.record, Table.get?_insert]
      by_cases same : path = other <;> simp [same]

theorem settledOps_deletes {waiting : List ScenePath} {paths : List ScenePath} :
    SettledOps waiting (paths.map FileOp.delete) ↔ ∀ path ∈ paths, path ∉ waiting := by
  induction paths with
  | nil => simp [SettledOps]
  | cons path rest ih => simp [SettledOps, ih]

theorem Faithful.deletes (faithful : Faithful files saveTasks wishes) {paths : List ScenePath}
    (settled : ∀ path ∈ paths, path ∉ saveTasks.map Prod.fst)
    (gone : ∀ path ∈ paths, filesAfter.get? path = none)
    (kept : ∀ path, path ∉ paths → filesAfter.get? path = files.get? path) :
    Faithful filesAfter saveTasks ((paths.map FileOp.delete).foldl FileOp.record wishes) := by
  refine ⟨faithful.distinct, ?_, ?_⟩
  · intro save waits
    rw [get?_foldl_delete, if_neg fun listed => settled _ listed (List.mem_map_of_mem waits)]
    exact faithful.waiting save waits
  · intro path wish wished notWaiting
    rw [get?_foldl_delete] at wished
    split at wished
    case isTrue listed =>
      rw [gone path listed]
      exact Option.some.inj wished
    case isFalse unlisted =>
      rw [kept path unlisted]
      exact faithful.done path wish wished notWaiting

/-- Whichever save the pool runs, its path then holds what it should. -/
theorem Faithful.finish (faithful : Faithful files saveTasks wishes) {index : ℕ}
    {save : ScenePath × PackedScene} (runs : saveTasks[index]? = some save) :
    Faithful (files.insert save.1 save.2) (saveTasks.eraseIdx index) wishes := by
  have sublist : (saveTasks.eraseIdx index).Sublist saveTasks := List.eraseIdx_sublist _ _
  refine ⟨faithful.distinct.sublist (sublist.map Prod.fst),
    fun other waits => faithful.waiting other (sublist.subset waits), ?_⟩
  intro path wish wished notWaiting
  rw [Table.get?_insert]
  split
  case isTrue same =>
    subst same
    rw [faithful.waiting save (List.mem_of_getElem? runs), Option.some.injEq] at wished
    exact wished
  case isFalse distinct =>
    apply faithful.done path wish wished
    intro waits
    apply notWaiting
    rcases List.mem_map.mp waits with ⟨other, otherWaits, rfl⟩
    rcases List.mem_iff_getElem?.mp otherWaits with ⟨position, atPosition⟩
    apply List.mem_map_of_mem
    refine List.mem_eraseIdx_iff_getElem?.mpr ⟨position, ?_, atPosition⟩
    rintro rfl
    rw [runs, Option.some.injEq] at atPosition
    exact distinct (by rw [atPosition])

end Faithful

theorem Faithful.act {wishes : Wishes} (faithful : Faithful world.files world.saveTasks wishes)
    {action : Action} {next : World} (acted : world.act action = some next)
    (settled : SettledOps (world.saveTasks.map Prod.fst) (fileOps world next action)) :
    Faithful next.files next.saveTasks
      ((fileOps world next action).foldl FileOp.record wishes) := by
  by_cases isFrame : ∃ loader, action = .event (.process loader)
  · rcases isFrame with ⟨loader, rfl⟩
    rw [← Option.some.inj acted] at settled ⊢
    by_cases inside : world.manager.insideTree = true
    · have erases := erases_runRemovals world
      have same : SameDisk world.runRemovals (world.process loader) := sameDisk_process inside
      rw [same.1, same.2, erases.saves]
      have opsEq : fileOps world (world.process loader) (.event (.process loader)) =
          ((world.manager.registry.keys.filter
            (· ∉ world.runRemovals.manager.registry)).map world.manager.objectScenePath).map
              FileOp.delete := by
        simp only [fileOps, inside, if_true, List.map_map]
        rfl
      rw [opsEq] at settled ⊢
      refine faithful.deletes (settledOps_deletes.mp settled) ?_ ?_
      · intro path listed
        simp only [List.mem_map, List.mem_filter, decide_eq_true_eq] at listed
        rcases listed with ⟨uuid, ⟨here, absent⟩, rfl⟩
        exact erases.gone uuid here absent
      · intro path unlisted
        apply erases.kept
        rintro uuid here absent rfl
        apply unlisted
        simp only [List.mem_map, List.mem_filter, decide_eq_true_eq]
        exact ⟨uuid, ⟨here, absent⟩, rfl⟩
    · have still : world.process loader = world := by simp [process, inside]
      simp only [fileOps, inside, still]
      exact faithful
  by_cases isSave : ∃ index, action = .event (.asyncSave index)
  · rcases isSave with ⟨index, rfl⟩
    rcases Option.map_eq_some_iff.mp acted with ⟨save, runs, rfl⟩
    exact faithful.finish runs
  have queues := queues_act acted (not_exists.mp isFrame) (not_exists.mp isSave)
  rcases queues.2 with ⟨saves, savesEq⟩
  have opsEq : fileOps world next action = saves.map fun save => FileOp.save save.1 save.2 := by
    have dropped : next.saveTasks.drop world.saveTasks.length = saves := by
      rw [← savesEq, List.drop_left]
    simp only [fileOps]
    split
    · exact absurd ⟨_, rfl⟩ isSave
    · exact absurd ⟨_, rfl⟩ isFrame
    · rw [dropped]
  rw [opsEq] at settled ⊢
  rw [queues.1, ← savesEq]
  exact faithful.saves saves settled

def FaithfulState (state : World × Wishes) : Prop :=
  Faithful state.1.files state.1.saveTasks state.2

/-- In a run in which nothing is asked of a path while a save for it waits, once all saves have
finished every path holds the scene packed last for it, or no file when it was deleted later. -/
theorem lastSave_wins {db : StreamSqliteDB} {files : Table ScenePath PackedScene}
    {sceneCap nodeCap : ℕ} {uuidGenerator : ℕ → {uuid : Uuid // uuid ≠ Uuid.nil}}
    {wishes : Wishes}
    (reached : Reaches wishStep Settled (make db files sceneCap nodeCap uuidGenerator, ∅)
      (world, wishes))
    (finished : world.saveTasks = []) (path : ScenePath) (wish : Option PackedScene)
    (wished : wishes.get? path = some wish) : world.files.get? path = wish := by
  have faithful : FaithfulState (world, wishes) := by
    apply reached.invariant
    · exact ⟨List.nodup_nil, by simp [make], by simp⟩
    · rintro ⟨here, asked⟩ action next holds settled stepped
      rcases Option.map_eq_some_iff.mp stepped with ⟨after, acted, rfl⟩
      exact Faithful.act holds acted (settled after acted)
  exact faithful.done path wish wished (by simp [finished])

/-- An object is unloaded, loaded and unloaded again; the saves run in the given order. -/
def unloadedTwice (finishes : List Action) : List Action :=
  [.event (.create Uuid.nil Uuid.nil unitBox), .event (.enter 1), .unload 101] ++ finishes

/-- The first save runs before the second unload. -/
def savedBetween : World × Wishes :=
  runAll wishStep (unloadedTwice [.event (.asyncSave 0), .load eagerLoader 101, .unload 101,
    .event (.asyncSave 0)]) (blank, ∅)

theorem lastSave_savedBetween :
    (savedBetween.1.files.get? ⟨"", 101⟩).map PackedScene.capture = some 1 := by
  have reached : Reaches wishStep Settled (blank, ∅) savedBetween :=
    reaches_runAll (by decide +kernel) (by decide +kernel)
  have finished : savedBetween.1.saveTasks = [] := by decide +kernel
  have captured : (savedBetween.2.get? ⟨"", 101⟩).map (Option.map PackedScene.capture) =
      some (some 1) := by
    decide +kernel
  rcases Option.map_eq_some_iff.mp captured with ⟨wish, wished, wishEq⟩
  have held : savedBetween.1.files.get? ⟨"", 101⟩ = wish :=
    lastSave_wins reached finished ⟨"", 101⟩ wish wished
  rw [held, wishEq]

/-- Both saves wait together, and the pool runs the later one first. -/
theorem lastSave_overtaken :
    let final := runAll wishStep (unloadedTwice [.load eagerLoader 101, .unload 101,
      .event (.asyncSave 1), .event (.asyncSave 0)]) (blank, ∅)
    Reaches wishStep (fun _ _ => True) (blank, ∅) final ∧ final.1.saveTasks = [] ∧
    (final.2.get? ⟨"", 101⟩).map (Option.map PackedScene.capture) = some (some 1) ∧
    (final.1.files.get? ⟨"", 101⟩).map PackedScene.capture = some 0 := by
  refine ⟨reaches_runAll (by simp [unloadedTwice, Allowed]) (by decide +kernel), ?_⟩
  decide +kernel

end World

end GodotStream
