import GodotStream.ChildrenIndex
import GodotStream.Steady
import GodotStream.SubtreeRemoval
import GodotStream.Unloading

/-!
# Objects that are present

An exit records the uuid of the node in `object_removal_`, and the next frame removes what
is recorded then. A node that is attached with a recorded uuid at that time loses its entry,
so an entry under a recorded uuid, and an exit beside another node of the same uuid, are
what the runs here leave out.
-/

namespace GodotStream

open Storage Run

namespace ObjectDB

instance decidableForallLive (objectDb : ObjectDB) (holds : ObjectID → StreamObjectNode → Prop)
    [∀ id node, Decidable (holds id node)] :
    Decidable (∀ id node, objectDb.getInstance id = some node → holds id node) :=
  decidable_of_iff (∀ entry ∈ objectDb.nodes.entries, holds entry.1 entry.2)
    ⟨fun all id node found => all (id, node) (Table.get?_eq_some.mp found),
      fun all entry listed => all entry.1 entry.2 (Table.get?_eq_some.mpr listed)⟩

/-- Every child of the manager was one before, with the same uuid. -/
def Shrinks (before after : ObjectDB) : Prop :=
  ∀ id node, after.getInstance id = some node → node.mount = .manager →
    ∃ old, before.getInstance id = some old ∧ old.mount = .manager ∧ old.uuid = node.uuid

theorem Shrinks.refl (objectDb : ObjectDB) : Shrinks objectDb objectDb :=
  fun _ node found child => ⟨node, found, child, rfl⟩

theorem Shrinks.trans {before middle after : ObjectDB} (first : Shrinks before middle)
    (second : Shrinks middle after) : Shrinks before after := by
  intro id node found child
  rcases second id node found child with ⟨old, oldFound, oldChild, same⟩
  rcases first id old oldFound oldChild with ⟨older, olderFound, olderChild, olderSame⟩
  exact ⟨older, olderFound, olderChild, olderSame.trans same⟩

theorem shrinks_create (objectDb : ObjectDB) {made : StreamObjectNode}
    (detached : made.mount ≠ .manager) : Shrinks objectDb (objectDb.create made) := by
  intro id node found child
  rw [getInstance_create] at found
  split at found
  · rw [← Option.some.inj found] at child
    exact absurd child detached
  · exact ⟨node, found, child, rfl⟩

theorem shrinks_modify {objectDb : ObjectDB} {changed : ObjectID}
    {change : StreamObjectNode → StreamObjectNode}
    (same : ∀ node, objectDb.getInstance changed = some node → (change node).mount = .manager →
      node.mount = .manager ∧ node.uuid = (change node).uuid) :
    Shrinks objectDb (objectDb.modify changed change) := by
  intro id node found child
  rw [getInstance_modify] at found
  split at found
  case isTrue sameId =>
    subst sameId
    rcases Option.map_eq_some_iff.mp found with ⟨old, oldFound, rfl⟩
    exact ⟨old, oldFound, same old oldFound child⟩
  case isFalse => exact ⟨node, found, child, rfl⟩

/-- A change of a node that leaves its uuid and where it is mounted. -/
theorem shrinks_withNode {objectDb : ObjectDB} {changed : ObjectID} {old node : StreamObjectNode}
    (found : objectDb.getInstance changed = some old) (sameMount : node.mount = old.mount)
    (sameUuid : node.uuid = old.uuid) :
    Shrinks objectDb (objectDb.modify changed fun _ => node) := by
  apply shrinks_modify
  intro other otherFound child
  rw [found, Option.some.injEq] at otherFound
  subst otherFound
  exact ⟨sameMount ▸ child, sameUuid.symm⟩

theorem shrinks_free (objectDb : ObjectDB) (freed : ObjectID) :
    Shrinks objectDb (objectDb.free freed) := by
  intro id node found child
  rw [getInstance_free] at found
  split at found
  · simp at found
  · exact ⟨node, found, child, rfl⟩

/-- The same ids are children of the manager, with the same uuids. -/
def SameChildren (before after : ObjectDB) : Prop :=
  before.Shrinks after ∧ after.Shrinks before

theorem SameChildren.refl (objectDb : ObjectDB) : SameChildren objectDb objectDb :=
  ⟨Shrinks.refl objectDb, Shrinks.refl objectDb⟩

theorem sameChildren_create (objectDb : ObjectDB) {made : StreamObjectNode}
    (detached : made.mount ≠ .manager) : SameChildren objectDb (objectDb.create made) := by
  refine ⟨shrinks_create objectDb detached, ?_⟩
  intro id node found child
  have issued := (issued_of_getInstance found).2
  refine ⟨node, ?_, child, rfl⟩
  rw [getInstance_create, if_neg (Nat.ne_of_lt issued)]
  exact found

theorem sameChildren_modify {objectDb : ObjectDB} {changed : ObjectID}
    {change : StreamObjectNode → StreamObjectNode}
    (same : ∀ node, objectDb.getInstance changed = some node →
      (change node).mount = node.mount ∧ (change node).uuid = node.uuid) :
    SameChildren objectDb (objectDb.modify changed change) := by
  refine ⟨shrinks_modify ?_, ?_⟩
  · intro node found child
    rcases same node found with ⟨sameMount, sameUuid⟩
    exact ⟨sameMount ▸ child, sameUuid.symm⟩
  · intro id node found child
    by_cases own : id = changed
    · subst own
      rcases same node found with ⟨sameMount, sameUuid⟩
      refine ⟨change node, ?_, sameMount.trans child, sameUuid⟩
      simp [getInstance_modify, found]
    · refine ⟨node, ?_, child, rfl⟩
      rw [getInstance_modify, if_neg own]
      exact found

theorem sameChildren_acquire (cache : ObjectSceneCache) (objectDb : ObjectDB) (uuid : Uuid) :
    SameChildren objectDb (cache.acquire objectDb uuid).2.2 := by
  by_cases usable : ∃ id, cache.HoldsUsable objectDb uuid id
  · rcases usable with ⟨_, usable⟩
    rw [(ObjectSceneCache.acquire_of_usable usable).2]
    exact SameChildren.refl objectDb
  · rcases ObjectSceneCache.acquire_of_not_usable (not_exists.mp usable) with
      ⟨_, _, same⟩ | ⟨scene, _, _, made⟩
    · rw [same]
      exact SameChildren.refl objectDb
    · rw [made, PackedScene.instantiate]
      split
      · exact SameChildren.refl objectDb
      · exact sameChildren_create objectDb (by simp)

end ObjectDB

namespace World

variable {world : World}

/-- No child of the manager has the uuid. -/
def Unattached (world : World) (uuid : Uuid) : Prop :=
  ∀ id node, world.objectDb.getInstance id = some node → node.mount = .manager → node.uuid ≠ uuid

/-- No other child of the manager has the uuid. -/
def OnlyChild (world : World) (only : ObjectID) (uuid : Uuid) : Prop :=
  ∀ id node, world.objectDb.getInstance id = some node → node.mount = .manager →
    node.uuid = uuid → id = only

instance (world : World) (uuid : Uuid) : Decidable (world.Unattached uuid) :=
  ObjectDB.decidableForallLive world.objectDb fun _ node => node.mount = .manager → node.uuid ≠ uuid

instance (world : World) (only : ObjectID) (uuid : Uuid) : Decidable (world.OnlyChild only uuid) :=
  ObjectDB.decidableForallLive world.objectDb fun id node =>
    node.mount = .manager → node.uuid = uuid → id = only

theorem Unattached.of_shrinks {after : World} {uuid : Uuid} (unattached : world.Unattached uuid)
    (shrinks : world.objectDb.Shrinks after.objectDb) : after.Unattached uuid := by
  intro id node found child
  rcases shrinks id node found child with ⟨old, oldFound, oldChild, same⟩
  rw [← same]
  exact unattached id old oldFound oldChild

/-- Nobody enters under a recorded uuid or records the uuid of an attached node, and at a frame
nothing attached lies below a recorded uuid. -/
def Considerate (world : World) : Event → Prop
  | .enter id => ∀ node ∈ world.objectDb.getInstance id,
      world.entersAs node ∉ world.manager.objectRemoval
  | .exit id | .reparent id => ∀ node ∈ world.objectDb.getInstance id,
      node.queuedForDeletion = false → world.OnlyChild id node.uuid
  | .removeObject uuid => world.Unattached uuid
  | .process _ => ∀ removed ∈ world.manager.objectRemoval.keys,
      ∀ lower ∈ world.manager.collectDescendants removed,
        lower ≠ removed → world.Unattached lower
  | _ => True

instance decidableConsiderate (world : World) : ∀ event, Decidable (Considerate world event)
  | .enter _ | .exit _ | .reparent _ | .removeObject _ | .process _ => by
      simp only [Considerate]
      infer_instance
  | .create .. | .queueFree _ | .deleteQueued _ | .addObject _ | .updateObject .. | .aabbChanged ..
  | .boxChanged .. | .loadProbe .. | .unloadProbe _ | .workerStep | .flushCallbacks
  | .asyncSave _ => isTrue trivial

theorem getInstance_removeChild {id : ObjectID} {node : StreamObjectNode}
    (found : world.objectDb.getInstance id = some node) (other : ObjectID) :
    (world.removeChild id).objectDb.getInstance other =
      if other = id then some { node with mount := node.mount.detached }
      else world.objectDb.getInstance other := by
  simp only [removeChild, found]
  split
  case isTrue child =>
    have moved (start : World) (same : start.objectDb = world.objectDb) :
        (start.setMount id .orphan).objectDb.getInstance other =
          if other = id then some { node with mount := node.mount.detached }
          else world.objectDb.getInstance other := by
      simp only [setMount, same, ObjectDB.getInstance_modify, found, Option.map_some, child,
        Mount.detached]
    split
    · exact moved _ (objectDb_onObjectExited world id)
    · exact moved _ rfl
  case isFalse notChild =>
    have same : node.mount.detached = node.mount := by
      cases mount : node.mount with
      | manager => exact absurd mount notChild
      | orphan => rfl
      | elsewhere => rfl
    split
    case isTrue sameId => rw [sameId, found, same]
    case isFalse => rfl

theorem shrinks_removeChild (world : World) (id : ObjectID) :
    world.objectDb.Shrinks (world.removeChild id).objectDb := by
  cases found : world.objectDb.getInstance id with
  | none =>
      simp only [removeChild, found]
      exact ObjectDB.Shrinks.refl _
  | some node =>
      intro other live here child
      rw [getInstance_removeChild found] at here
      split at here
      · rw [← Option.some.inj here] at child
        exact absurd child (Mount.detached_ne_manager _)
      · exact ⟨live, here, child, rfl⟩

/-- Only a node that is not queued for deletion is recorded. -/
theorem mem_objectRemoval_of_removeChild {id : ObjectID} {node : StreamObjectNode} {uuid : Uuid}
    (found : world.objectDb.getInstance id = some node)
    (recorded : uuid ∈ (world.removeChild id).manager.objectRemoval) :
    uuid ∈ world.manager.objectRemoval ∨
      node.queuedForDeletion = false ∧ node.mount = .manager ∧ uuid = node.uuid := by
  simp only [removeChild, found] at recorded
  split at recorded
  case isFalse => exact Or.inl recorded
  case isTrue child =>
    split at recorded
    case isFalse => exact Or.inl recorded
    case isTrue =>
      simp only [onObjectExited, found, setMount] at recorded
      split at recorded
      · exact Or.inl recorded
      case isFalse removing =>
        simp only [not_or, Bool.not_eq_true] at removing
        simp only [StreamManager.removeObject] at recorded
        split at recorded
        · exact Or.inl recorded
        · rcases Table.mem_insert.mp recorded with own | before
          · exact Or.inr ⟨removing.2.1, child, own⟩
          · exact Or.inl before

/-- No attached node has a recorded uuid. -/
def Spares (world : World) : Prop :=
  ∀ uuid ∈ world.manager.objectRemoval, world.Unattached uuid

theorem Spares.of_shrinks {after : World} (spares : world.Spares)
    (shrinks : world.objectDb.Shrinks after.objectDb)
    (same : after.manager.objectRemoval = world.manager.objectRemoval) : after.Spares := by
  intro uuid recorded
  rw [same] at recorded
  exact (spares uuid recorded).of_shrinks shrinks

theorem Spares.enter (spares : world.Spares) (listening : world.listening = true) {id : ObjectID}
    {node : StreamObjectNode} (found : world.objectDb.getInstance id = some node)
    (considerate : world.entersAs node ∉ world.manager.objectRemoval) :
    ((world.setMount id .orphan).addChild id).Spares := by
  have here : (world.setMount id .orphan).objectDb.getInstance id =
      some { node with mount := .orphan } := by
    simp [setMount, ObjectDB.getInstance_modify, found]
  have ready : (world.setMount id .orphan).listening = true := listening
  have entered := entered_addChild ready here rfl
  intro uuid recorded other live otherFound child
  rw [entered.frame] at recorded
  rw [entered.nodes] at otherFound
  split at otherFound
  · rw [← Option.some.inj otherFound]
    rintro rfl
    exact considerate recorded
  case isFalse distinct =>
    simp only [setMount, ObjectDB.getInstance_modify, distinct, if_false] at otherFound
    exact spares uuid recorded other live otherFound child

theorem Spares.exitChild (spares : world.Spares) {id : ObjectID} {mount : Mount} {next : World}
    (moved : mount ≠ .manager)
    (considerate : ∀ node ∈ world.objectDb.getInstance id,
      node.queuedForDeletion = false → world.OnlyChild id node.uuid)
    (exited : world.exitChild id mount = some next) : next.Spares := by
  rcases exists_of_exitChild exited with ⟨node, found, _, rfl⟩
  intro uuid recorded other live here child
  simp only [setMount, ObjectDB.getInstance_modify, getInstance_removeChild found] at here
  split at here
  case isTrue =>
    rw [if_pos trivial, Option.map_some, Option.some.injEq] at here
    rw [← here] at child
    exact absurd child moved
  case isFalse distinct =>
    rcases mem_objectRemoval_of_removeChild found recorded with before | ⟨kept, _, rfl⟩
    · exact spares uuid before other live here child
    · intro same
      exact distinct (considerate node found kept other live here child same)

theorem Spares.deleteQueued (spares : world.Spares) {id : ObjectID} {node : StreamObjectNode}
    (found : world.objectDb.getInstance id = some node) (queued : node.queuedForDeletion = true) :
    Spares { world.removeChild id with objectDb := (world.removeChild id).objectDb.free id } := by
  have shrinks := (shrinks_removeChild world id).trans (ObjectDB.shrinks_free _ id)
  intro uuid recorded
  rcases mem_objectRemoval_of_removeChild found recorded with before | ⟨kept, _⟩
  · exact (spares uuid before).of_shrinks shrinks
  · rw [queued] at kept
    simp at kept

section Delivery

/-- During a delivery children are detached without being recorded. -/
structure Detaching (before after : World) : Prop where
  identified : after.Identified
  listening : after.listening = true
  shrinks : before.objectDb.Shrinks after.objectDb
  recorded : after.manager.objectRemoval = before.manager.objectRemoval

variable {before : World}

theorem Detaching.unloadCollected (detaching : Detaching before world) {objId : Uuid}
    (pending : objId ∈ world.manager.pendingRemoval) :
    Detaching before (world.unloadCollected objId) := by
  have identified := detaching.identified.unloadCollected objId
  rcases detaching.identified.unloadCollected_cases detaching.listening pending with
    same | ⟨data, node, registered, found, carries, _, _, unloaded⟩
  · rw [same] at identified ⊢
    exact ⟨identified, detaching.listening, detaching.shrinks, detaching.recorded⟩
  · have shrinks : world.objectDb.Shrinks (world.unloadCollected objId).objectDb := by
      intro other live here child
      by_cases sameId : other = data.nodeRoot
      · subst sameId
        rw [unloaded.detached, Option.some.injEq] at here
        rw [← here] at child
        exact absurd child (Mount.detached_ne_manager _)
      · exact ⟨live, unloaded.nodes other live sameId here, child, rfl⟩
    refine ⟨identified, ?_, detaching.shrinks.trans shrinks, ?_⟩
    · rw [unloaded.frame]
      exact detaching.listening
    · rw [unloaded.frame]
      exact detaching.recorded

theorem Detaching.onQueryResult (detaching : Detaching before world)
    {dbObjects : Table Uuid ObjectData}
    (rootless : ∀ uuid data, dbObjects.get? uuid = some data → data.nodeRoot = 0) :
    Detaching before (world.onQueryResult dbObjects) := by
  apply onQueryResult_rule detaching
  · rintro other pendingRemoval ⟨⟨registry, nodeCache, results⟩, listening, shrinks, recorded⟩
    exact ⟨⟨registry, nodeCache, results⟩, listening, shrinks, recorded⟩
  · exact fun other objId otherDetaching pending => otherDetaching.unloadCollected pending
  · rintro other uuid ⟨identified, listening, shrinks, recorded⟩ _
    exact ⟨identified.withManager (identified.registry.erase rfl) identified.nodeCache, listening,
      shrinks, recorded⟩
  · rintro other ⟨identified, listening, shrinks, recorded⟩
    refine ⟨identified.withManager (identified.registry.applyObjects rootless)
      (by simpa [StreamManager.CacheNamed] using identified.nodeCache), ?_, shrinks, ?_⟩
    · rcases StreamManager.exists_applyObjects other.manager dbObjects with ⟨_, _, applied⟩
      rw [applied]
      exact listening
    · rcases StreamManager.exists_applyObjects other.manager dbObjects with ⟨_, _, applied⟩
      rw [applied]
      exact recorded

theorem detaching_flushCallbacks (identified : world.Identified)
    (listening : world.listening = true) : Detaching world world.flushCallbacks := by
  apply flushCallbacks_rule ⟨identified, listening, ObjectDB.Shrinks.refl _, rfl⟩
  · intro worker running
    refine ⟨⟨identified.registry, identified.nodeCache, ?_⟩, listening,
      ObjectDB.Shrinks.refl _, rfl⟩
    intro other otherRunning dbObjects completed
    rw [← Option.some.inj otherRunning] at completed
    simp at completed
  · intro other worker dbObjects detaching running completed
    exact detaching.onQueryResult (identified.results worker running dbObjects completed)

end Delivery

/-- A frame carries out what is recorded. -/
theorem objectRemoval_process (insideTree : world.manager.insideTree = true) (loader : Loader) :
    (world.process loader).manager.objectRemoval = ∅ := by
  simp only [process, insideTree, Bool.not_true, Bool.false_eq_true, if_false]
  rw [(loads_streamScenes _ loader).frame]
  split
  · rfl
  · rw [queryProbes_frame, flushPendingDbOps_frame]
    rfl

theorem Spares.step (spares : world.Spares) (identified : world.Identified)
    {uuidGenerator : ℕ → {uuid : Uuid // uuid ≠ Uuid.nil}} (steady : world.Steady uuidGenerator)
    {event : Event} {next : World} (considerate : Considerate world event)
    (stepped : world.step event = some next) : next.Spares := by
  cases happens_of_step stepped with
  | create => exact spares.of_shrinks (ObjectDB.shrinks_create _ (by simp)) rfl
  | enter id node found => exact spares.enter steady.listening found (considerate node found)
  | exit id => exact spares.exitChild (by simp) considerate stepped
  | reparent id => exact spares.exitChild (by simp) considerate stepped
  | queueFree id =>
      exact spares.of_shrinks (ObjectDB.shrinks_modify fun _ _ child => ⟨child, rfl⟩) rfl
  | deleteQueued id node found queued => exact spares.deleteQueued found queued
  | addObject id node =>
      have same := (loads_addObject world world.objectDb world.generated id node).frame
      refine spares.of_shrinks ?_ ?_
      · exact ObjectDB.Shrinks.refl world.objectDb
      · rw [same]
  | removeObject uuid =>
      intro other recorded
      simp only [StreamManager.removeObject] at recorded
      split at recorded
      · exact spares other recorded
      · rcases Table.mem_insert.mp recorded with rfl | before
        · exact considerate
        · exact spares other before
  | updateObject id parentUuid node found =>
      apply spares.of_shrinks
      · exact ObjectDB.shrinks_withNode found rfl rfl
      · rcases StreamManager.updateObject_cases world.manager id { node with parentUuid } with
          ⟨_, same⟩ | ⟨_, _, _, same, _⟩ <;> simp only [same]
  | aabbChanged id aabb node found =>
      apply spares.of_shrinks
      · exact ObjectDB.shrinks_withNode found rfl rfl
      · rcases StreamManager.exists_onObjectAabbChanged world.manager { node with aabb } with
          ⟨_, same⟩
        simp only [same]
        split <;> rfl
  | boxChanged id aabb node found =>
      exact spares.of_shrinks (ObjectDB.shrinks_withNode found rfl rfl) rfl
  | process loader =>
      intro uuid recorded
      rw [objectRemoval_process steady.insideTree] at recorded
      exact absurd recorded (Table.not_mem_empty uuid)
  | flushCallbacks =>
      have detaching := detaching_flushCallbacks identified steady.listening
      exact spares.of_shrinks detaching.shrinks detaching.recorded
  | loadProbe | unloadProbe | workerStep | asyncSave => exact spares

/-- The object keeps its entry and its scene file, and its row is not marked for deletion. -/
structure KeepsObject (uuid : Uuid) (before after : World) : Prop where
  entry : after.manager.registry.get? uuid = before.manager.registry.get? uuid
  row : uuid ∈ after.manager.toRemove ↔ uuid ∈ before.manager.toRemove
  file : after.files.get? (before.manager.objectScenePath uuid) =
    before.files.get? (before.manager.objectScenePath uuid)

/-- What lies below no recorded uuid is kept. -/
theorem keepsObject_runRemovals {uuid : Uuid}
    (uncollected : ∀ removed ∈ world.manager.objectRemoval.keys,
      uuid ∉ world.manager.collectDescendants removed) :
    KeepsObject uuid world world.runRemovals := by
  let keeping (other : World) : Prop := KeepsObject uuid world other ∧
    other.manager.objectScenePath uuid = world.manager.objectScenePath uuid ∧
    ∀ parent child, child ∈ other.manager.childrenOf parent →
      child ∈ world.manager.childrenOf parent
  have start : keeping world := ⟨⟨rfl, Iff.rfl, rfl⟩, rfl, fun _ _ listed => listed⟩
  have kept : keeping world.runRemovals := by
    apply runRemovals_rule start
    · rintro other removed ⟨keeps, path, children⟩ recorded
      have deletes := deletes_removeObject other removed
      have spared : uuid ∉ other.manager.collectDescendants removed := by
        intro collected
        apply uncollected removed recorded
        rw [StreamManager.mem_collectDescendants] at collected ⊢
        exact Relation.ReflTransGen.mono children _ _ collected
      refine ⟨⟨?_, ?_, ?_⟩, ?_, ?_⟩
      · rw [deletes.registry, if_neg spared]
        exact keeps.entry
      · rw [deletes.removals, ← keeps.row]
        simp [spared]
      · rw [← path, deletes.files, if_neg fun both => spared both.1, path]
        exact keeps.file
      · rw [deletes.frame]
        exact path
      · exact fun parent child listed =>
          children parent child (mem_childrenOf_removeObject.1 listed)
    · rintro other ⟨⟨entry, row, file⟩, path, children⟩
      exact ⟨⟨entry, row, file⟩, path, children⟩
  exact kept.1

/-- In a considerate run, whenever a frame carries out the recorded removals no attached node has a
recorded uuid, and every attached node keeps its entry, its row and its scene file. -/
theorem present_neverDeleted {db : StreamSqliteDB} {files : Table ScenePath PackedScene}
    {sceneCap nodeCap : ℕ} {uuidGenerator : ℕ → {uuid : Uuid // uuid ≠ Uuid.nil}}
    (reached : Reaches step Considerate (make db files sceneCap nodeCap uuidGenerator) world)
    {loader : Loader} (considerate : Considerate world (.process loader)) :
    (∀ uuid ∈ world.manager.objectRemoval, world.Unattached uuid) ∧
    ∀ id node, world.objectDb.getInstance id = some node → node.mount = .manager →
      KeepsObject node.uuid world world.runRemovals := by
  have spares : world.Spares := by
    let holds (other : World) : Prop :=
      other.Spares ∧ other.Identified ∧ other.Steady uuidGenerator
    have initially : holds (make db files sceneCap nodeCap uuidGenerator) :=
      ⟨fun uuid recorded => absurd recorded (Table.not_mem_empty uuid),
        identified_make db files sceneCap nodeCap uuidGenerator,
        steady_make db files sceneCap nodeCap uuidGenerator⟩
    have invariant : holds world := by
      apply reached.invariant initially
      rintro state event next ⟨spares, identified, steady⟩ allowed stepped
      exact ⟨spares.step identified steady allowed stepped, identified.step stepped,
        steady.step stepped⟩
    exact invariant.1
  refine ⟨spares, ?_⟩
  intro id node found child
  apply keepsObject_runRemovals
  intro removed recorded collected
  by_cases same : node.uuid = removed
  · exact spares removed recorded id node found child same
  · exact considerate removed recorded node.uuid collected same id node found child rfl

/-- A node leaves for another place, and another one stays. -/
def oneLeft : World :=
  runAll step [.create Uuid.nil Uuid.nil unitBox, .enter 1, .create Uuid.nil Uuid.nil unitBox,
    .enter 2, .reparent 1] blank

theorem present_neverDeleted_oneLeft :
    KeepsObject 102 oneLeft oneLeft.runRemovals := by
  have reached : Reaches step Considerate (make .create ∅ 2 2 counting) oneLeft :=
    reaches_runAll (by decide +kernel) (by decide +kernel)
  have considerate : Considerate oneLeft (.process eagerLoader) := by decide +kernel
  have found : oneLeft.objectDb.getInstance 2 =
      some { uuid := 102, parentUuid := Uuid.nil, aabb := unitBox, mount := .manager } := by
    decide +kernel
  exact (present_neverDeleted reached considerate).2 2 _ found rfl

/-- A node leaves and comes back before the frame, which removes its entry. -/
theorem present_deleted :
    let world := runAll step [.create Uuid.nil Uuid.nil unitBox, .enter 1, .exit 1, .enter 1] blank
    Reaches step (fun _ _ => True) (make .create ∅ 2 2 counting) world ∧
    101 ∈ world.manager.objectRemoval ∧ ¬ world.Unattached 101 ∧
    101 ∈ world.manager.registry ∧ 101 ∉ world.runRemovals.manager.registry ∧
    101 ∈ world.runRemovals.manager.toRemove := by
  intro world
  exact ⟨reaches_runAll (by decide +kernel) (by decide +kernel), by decide +kernel⟩

end World

end GodotStream
