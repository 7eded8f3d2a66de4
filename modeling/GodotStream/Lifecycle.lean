import GodotStream.Binding
import GodotStream.Presence
import GodotStream.Steady

/-!
# Entering and leaving the tree

The manager connects its child signals once, when it is constructed, and disconnects them
when it leaves the tree. The engine announces the manager itself before its children when
they enter together, and the children first when they leave; a child announces itself by
the signals of the manager.

`set_process` follows the tree, as `_process` does nothing outside, and is left out.
-/

namespace GodotStream

open Storage Run

namespace World

/-- `child_entered_tree` is emitted for a child. -/
def childEntered (world : World) (id : ObjectID) : World :=
  if world.listening then world.onObjectEntered id else world

/-- `child_exiting_tree` is emitted for a child. -/
def childExited (world : World) (id : ObjectID) : World :=
  if world.listening then world.onObjectExited id else world

def _exitTree (world : World) : World :=
  let manager := { world.manager with
    connected := false
    objectRemoval := ∅
    dirtyAabb := ∅
    toUpsertUuids := ∅
    loadQueue := []
    loadedQueue := [] }
  ({ world with manager }).flushPendingDbOps

/-- The manager leaves the tree, after its children. -/
def leaveTree (world : World) (children : List ObjectID) : World :=
  let world := (children.foldl childExited world)._exitTree
  { world with manager := { world.manager with insideTree := false } }

/-- The children of the manager. -/
def childIds (world : World) : List ObjectID :=
  (world.objectDb.nodes.entries.filter fun entry => entry.2.mount = .manager).map Prod.fst

end World

/-- The world, and the children that have still to announce that they have entered. -/
structure Stage where
  world : World
  entering : List ObjectID

inductive Move where
  | act (action : World.Action)
  /-- The manager enters the tree with its children, in the order in which they stand. -/
  | enterTree (children : List ObjectID)
  /-- The next child announces itself. -/
  | announce
  /-- The manager leaves the tree with its children, in the reverse order. -/
  | exitTree (children : List ObjectID)
  /-- `queue_free` of the manager. -/
  | queueFree

namespace Stage

def step (stage : Stage) : Move → Option Stage
  | .act action =>
      if stage.entering = [] then (stage.world.act action).map fun world => { stage with world }
      else none
  | .enterTree children =>
      if !stage.world.manager.insideTree && children.isPerm stage.world.childIds then
        some { world := { stage.world with
                 manager := { stage.world.manager with insideTree := true } }
               entering := children }
      else none
  | .announce =>
      match stage.entering with
      | [] => none
      | id :: entering => some { world := stage.world.childEntered id, entering }
  | .exitTree children =>
      if stage.entering = [] ∧ stage.world.manager.insideTree ∧
          children.isPerm stage.world.childIds then
        some { stage with world := stage.world.leaveTree children }
      else none
  | .queueFree =>
      some { stage with
        world := { stage.world with
          manager := { stage.world.manager with queuedForDeletion := true } } }

end Stage

namespace World

variable {world : World}

/-- A step leaves the manager where it is in the tree, and names its children. -/
structure StaysInTree (before after : World) : Prop where
  insideTree : after.manager.insideTree = before.manager.insideTree
  connected : after.manager.connected = before.manager.connected
  queuedForDeletion : after.manager.queuedForDeletion = before.manager.queuedForDeletion
  pendingRemoval : ∀ uuid ∈ after.manager.pendingRemoval, uuid ∈ before.manager.pendingRemoval
  named : before.listening = true → before.Unattached Uuid.nil → after.Unattached Uuid.nil

theorem StaysInTree.listening {before after : World} (stays : StaysInTree before after) :
    after.listening = before.listening := by
  rw [World.listening, World.listening, stays.insideTree, stays.connected]

theorem StaysInTree.trans {before middle after : World} (first : StaysInTree before middle)
    (second : StaysInTree middle after) : StaysInTree before after where
  insideTree := second.insideTree.trans first.insideTree
  connected := second.connected.trans first.connected
  queuedForDeletion := second.queuedForDeletion.trans first.queuedForDeletion
  pendingRemoval := fun uuid pending =>
    first.pendingRemoval uuid (second.pendingRemoval uuid pending)
  named := fun listening named =>
    second.named (first.listening.trans listening) (first.named listening named)

theorem SameSetting.staysInTree {before after : World} (same : SameSetting before after)
    (shrinks : before.objectDb.Shrinks after.objectDb) : StaysInTree before after where
  insideTree := same.insideTree
  connected := same.connected
  queuedForDeletion := same.queuedForDeletion
  pendingRemoval := same.pendingRemoval
  named := fun _ named => named.of_shrinks shrinks

theorem StaysInTree.refl (world : World) : StaysInTree world world :=
  (SameSetting.refl world).staysInTree (ObjectDB.Shrinks.refl _)

/-- Only the nodes change, and no node becomes a child. -/
theorem staysInTree_of_objectDb {objectDb : ObjectDB}
    (shrinks : world.objectDb.Shrinks objectDb) : StaysInTree world { world with objectDb } :=
  ⟨rfl, rfl, rfl, fun _ pending => pending, fun _ named => named.of_shrinks shrinks⟩

theorem staysInTree_addChild (world : World) (id : ObjectID) :
    StaysInTree world (world.addChild id) := by
  have same := (loads_addChild world id).sameSetting
  refine ⟨same.insideTree, same.connected, same.queuedForDeletion, same.pendingRemoval, ?_⟩
  intro listening named
  by_cases enters : ∃ node, world.objectDb.getInstance id = some node ∧ node.mount = .orphan
  · rcases enters with ⟨node, found, orphan⟩
    have entered := entered_addChild listening found orphan
    intro other live here child
    rw [entered.nodes] at here
    split at here
    · rw [← Option.some.inj here]
      exact world.entersAs_ne_nil node
    · exact named other live here child
  · rw [addChild_of_mounted fun node found orphan => enters ⟨node, found, orphan⟩]
    exact named

theorem staysInTree_removeChild (world : World) (id : ObjectID) :
    StaysInTree world (world.removeChild id) :=
  (sameSetting_removeChild world id).staysInTree (shrinks_removeChild world id)

section Handlers

theorem shrinks_release (world : World) (uuid : Uuid) (id : ObjectID) :
    world.objectDb.Shrinks (world.release uuid id).objectDb := by
  rcases ObjectSceneCache.objectDb_release world.manager.cache world.objectDb uuid id with
    same | ⟨_, _, _, _, freed⟩
  · simp only [World.release, same]
    exact ObjectDB.Shrinks.refl _
  · simp only [World.release, freed]
    exact ObjectDB.shrinks_free _ _

theorem staysInTree_unloadCollected (world : World) (objId : Uuid) :
    StaysInTree world (world.unloadCollected objId) := by
  have touched : StaysInTree world (world.touchEntry objId) :=
    ⟨rfl, rfl, rfl, fun _ pending => pending, fun _ named => named⟩
  simp only [unloadCollected]
  split
  · exact touched
  · have detached := touched.trans (staysInTree_removeChild (world.touchEntry objId)
      ((world.touchEntry objId).manager.nodeRootOf objId))
    apply detached.trans
    exact ⟨rfl, rfl, rfl, fun _ pending => pending,
      fun _ named => named.of_shrinks (shrinks_release _ _ _)⟩

theorem staysInTree_unloadObject (world : World) (uuid : Uuid) :
    StaysInTree world (world.unloadObject uuid) := by
  have same := sameSetting_unloadObject world uuid
  refine ⟨same.insideTree, same.connected, same.queuedForDeletion, same.pendingRemoval, ?_⟩
  intro listening named
  let naming (other : World) : Prop := other.listening = true ∧ other.Unattached Uuid.nil
  have unloaded : naming (world.unloadObject uuid) := by
    apply unloadObject_rule (show naming world from ⟨listening, named⟩)
    · exact fun _ _ before => before
    · intro other objId before _ _
      have stays := staysInTree_unloadCollected other objId
      exact ⟨stays.listening.trans before.1, stays.named before.1 before.2⟩
  exact unloaded.2

theorem staysInTree_onQueryResult (world : World) (dbObjects : Table Uuid ObjectData) :
    StaysInTree world (world.onQueryResult dbObjects) := by
  have unloaded :
      StaysInTree world ((world.manager.toUnload dbObjects).foldl unloadStale world) := by
    apply List.foldlRecOn (motive := StaysInTree world) _ _ (StaysInTree.refl world)
    intro other stays uuid _
    exact stays.trans ((staysInTree_unloadObject other uuid).trans
      ⟨rfl, rfl, rfl, fun _ pending => pending, fun _ named => named⟩)
  apply unloaded.trans
  rcases StreamManager.exists_applyObjects
    ((world.manager.toUnload dbObjects).foldl unloadStale world).manager dbObjects with
    ⟨_, _, applied⟩
  simp only [onQueryResult, applied]
  exact ⟨rfl, rfl, rfl, fun _ pending => pending, fun _ named => named⟩

theorem staysInTree_flushCallbacks (world : World) :
    StaysInTree world world.flushCallbacks := by
  apply flushCallbacks_rule (StaysInTree.refl world)
  · exact fun _ _ => ⟨rfl, rfl, rfl, fun _ pending => pending, fun _ named => named⟩
  · exact fun other worker dbObjects stays _ _ =>
      stays.trans (staysInTree_onQueryResult other dbObjects)

theorem staysInTree_loadObjectScene (world : World) (loader : Loader) (uuid : Uuid) :
    StaysInTree world (world.loadObjectScene loader uuid) := by
  have acquired : StaysInTree world (world.acquired uuid) :=
    ⟨rfl, rfl, rfl, fun _ pending => pending, fun _ named => named.of_shrinks
      (ObjectDB.sameChildren_acquire _ _ _).1⟩
  apply loadObjectScene_rule (StaysInTree.refl world) acquired
  · apply acquired.trans
    simp only [World.requestScene]
    split
    · exact ⟨rfl, rfl, rfl, fun _ pending => pending, fun _ named => named⟩
    · exact ⟨rfl, rfl, rfl, fun _ pending => pending, fun _ named => named⟩
  · exact fun id => acquired.trans (staysInTree_addChild _ id)

theorem staysInTree_process (world : World) (loader : Loader) :
    StaysInTree world (world.process loader) := by
  have removed : StaysInTree world world.runRemovals := by
    rw [(sparesEntry_runRemovals Uuid.nil world).frame]
    exact ⟨rfl, rfl, rfl, fun _ pending => pending, fun _ named => named⟩
  have queried (other : World) : StaysInTree other other.flushPendingDbOps.queryProbes := by
    rw [queryProbes_frame, flushPendingDbOps_frame]
    exact ⟨rfl, rfl, rfl, fun _ pending => pending, fun _ named => named⟩
  have streamed (other : World) : StaysInTree other (other.streamScenes loader) := by
    apply streamScenes_rule (StaysInTree.refl other)
    · exact fun inner stays => stays.trans
        ⟨rfl, rfl, rfl, fun _ pending => pending, fun _ named => named⟩
    · exact fun inner loadQueue loadedQueue stays => stays.trans
        ⟨rfl, rfl, rfl, fun _ pending => pending, fun _ named => named⟩
    · exact fun inner uuid stays => stays.trans (staysInTree_loadObjectScene inner loader uuid)
  simp only [World.process]
  split
  · exact StaysInTree.refl world
  · split
    · exact removed.trans (streamed _)
    · exact (removed.trans (queried _)).trans (streamed _)

end Handlers

section Events

theorem staysInTree_exitChild {id : ObjectID} {mount : Mount} (away : mount ≠ .manager)
    {next : World} (exited : world.exitChild id mount = some next) : StaysInTree world next := by
  rcases exists_of_exitChild exited with ⟨_, _, _, rfl⟩
  apply (staysInTree_removeChild world id).trans
  exact staysInTree_of_objectDb (ObjectDB.shrinks_modify fun _ _ child => absurd child away)

/-- A change of a node that leaves its uuid and where it is mounted. -/
theorem staysInTree_withNode {id : ObjectID} {old node : StreamObjectNode}
    (found : world.objectDb.getInstance id = some old)
    (same : node.mount = old.mount ∧ node.uuid = old.uuid) :
    StaysInTree world { world with objectDb := world.objectDb.modify id fun _ => node } := by
  exact staysInTree_of_objectDb (ObjectDB.shrinks_withNode found same.1 same.2)

theorem staysInTree_step {event : Event} {next : World} (stepped : world.step event = some next) :
    StaysInTree world next := by
  cases happens_of_step stepped with
  | create uuid parentUuid aabb =>
      exact staysInTree_of_objectDb (ObjectDB.shrinks_create _ (by simp))
  | enter id =>
      have orphaned : StaysInTree world (world.setMount id .orphan) :=
        staysInTree_of_objectDb (ObjectDB.shrinks_modify fun _ _ child => absurd child (by simp))
      exact orphaned.trans (staysInTree_addChild _ id)
  | exit id => exact staysInTree_exitChild (by simp) stepped
  | reparent id => exact staysInTree_exitChild (by simp) stepped
  | queueFree id =>
      exact staysInTree_of_objectDb (ObjectDB.shrinks_modify fun _ _ child => ⟨child, rfl⟩)
  | deleteQueued id =>
      apply (staysInTree_removeChild world id).trans
      exact staysInTree_of_objectDb (ObjectDB.shrinks_free _ _)
  | addObject id node =>
      have loads : Loads world { world with manager := world.manager.addObject id node } :=
        loads_addObject _ _ _ _ _
      exact loads.sameSetting.staysInTree (ObjectDB.Shrinks.refl _)
  | removeObject uuid =>
      simp only [StreamManager.removeObject]
      split <;> exact ⟨rfl, rfl, rfl, fun _ pending => pending, fun _ named => named⟩
  | updateObject id parentUuid node found =>
      have changed : StaysInTree world { world with
          objectDb := world.objectDb.modify id fun _ => { node with parentUuid } } :=
        staysInTree_withNode found ⟨rfl, rfl⟩
      apply changed.trans
      rcases StreamManager.updateObject_cases world.manager id { node with parentUuid } with
        ⟨_, same⟩ | ⟨_, _, _, same, _⟩
      · rw [same]
        exact ⟨rfl, rfl, rfl, fun _ pending => pending, fun _ named => named⟩
      · rw [same]
        exact ⟨rfl, rfl, rfl, fun _ pending => pending, fun _ named => named⟩
  | aabbChanged id aabb node found =>
      have changed : StaysInTree world { world with
          objectDb := world.objectDb.modify id fun _ => { node with aabb } } :=
        staysInTree_withNode found ⟨rfl, rfl⟩
      apply changed.trans
      rcases StreamManager.exists_onObjectAabbChanged world.manager { node with aabb } with
        ⟨_, same⟩
      rw [same]
      split <;> exact ⟨rfl, rfl, rfl, fun _ pending => pending, fun _ named => named⟩
  | boxChanged id aabb node found => exact staysInTree_withNode found ⟨rfl, rfl⟩
  | process loader => exact staysInTree_process world loader
  | flushCallbacks => exact staysInTree_flushCallbacks world
  | loadProbe | unloadProbe | workerStep | asyncSave =>
      exact ⟨rfl, rfl, rfl, fun _ pending => pending, fun _ named => named⟩

theorem staysInTree_act {action : Action} {next : World} (acted : world.act action = some next) :
    StaysInTree world next := by
  cases action with
  | event event => exact staysInTree_step acted
  | result dbObjects =>
      rw [← Option.some.inj acted]
      exact staysInTree_onQueryResult world dbObjects
  | load loader uuid =>
      rw [← Option.some.inj acted]
      exact staysInTree_loadObjectScene world loader uuid
  | update loader =>
      rw [← Option.some.inj acted]
      exact ⟨rfl, rfl, rfl, fun _ pending => pending, fun _ named => named⟩
  | unload uuid =>
      rw [← Option.some.inj acted]
      exact staysInTree_unloadObject world uuid

end Events

theorem getInstance_onObjectEntered {id : ObjectID} {node : StreamObjectNode}
    (found : world.objectDb.getInstance id = some node) (other : ObjectID) :
    (world.onObjectEntered id).objectDb.getInstance other =
      if other = id then some { node with uuid := world.entersAs node }
      else world.objectDb.getInstance other := by
  simp only [onObjectEntered, found, entersAs]
  split
  · simp only [ObjectDB.getInstance_modify, found, Option.map_some]
  · split
    case isTrue own => rw [own, found]
    case isFalse => rfl

theorem nodeRootOf_onObjectEntered {id : ObjectID} {node : StreamObjectNode}
    (found : world.objectDb.getInstance id = some node) :
    (world.onObjectEntered id).manager.nodeRootOf (world.entersAs node) = id := by
  have nonNil := world.entersAs_ne_nil node
  simp only [entersAs] at nonNil ⊢
  simp only [onObjectEntered, found]
  split
  case isTrue isNil =>
    simp only [isNil, if_true] at nonNil
    simp only [StreamManager.addObject, nonNil, if_false, StreamManager.nodeRootOf,
      StreamManager.registry_insertChild, Table.get?_insert_self, Option.getD_some]
  case isFalse =>
    simp only [StreamManager.nodeRootOf, StreamManager.setNodeRoot, Table.get?_modify, if_true,
      Option.getD_some]

/-- The child has a uuid, and the entry of the uuid names it. -/
def Bound (world : World) (id : ObjectID) : Prop :=
  ∃ node, world.objectDb.getInstance id = some node ∧ node.uuid ≠ Uuid.nil ∧
    world.manager.nodeRootOf node.uuid = id

theorem bound_onObjectEntered {id : ObjectID} {node : StreamObjectNode}
    (found : world.objectDb.getInstance id = some node) : (world.onObjectEntered id).Bound id :=
  ⟨{ node with uuid := world.entersAs node },
    (getInstance_onObjectEntered found id).trans (if_pos rfl), world.entersAs_ne_nil node,
    nodeRootOf_onObjectEntered found⟩

theorem bound_addChild (listening : world.listening = true) {id : ObjectID}
    {node : StreamObjectNode} (found : world.objectDb.getInstance id = some node)
    (orphan : node.mount = .orphan) : (world.addChild id).Bound id := by
  have entered := entered_addChild listening found orphan
  rcases entered.registry with ⟨parentUuid, registry⟩
  refine ⟨{ node with mount := .manager, uuid := world.entersAs node },
    (entered.nodes id).trans (if_pos rfl), world.entersAs_ne_nil node, ?_⟩
  rw [StreamManager.nodeRootOf, registry, if_pos rfl, Option.getD_some]

/-- What a load attaches is bound. -/
theorem bound_of_attaches (listening : world.listening = true) {loader : Loader} {uuid : Uuid}
    {id : ObjectID} {node : StreamObjectNode}
    (attaches : Attaches world (world.loadObjectScene loader uuid) id node) :
    (world.loadObjectScene loader uuid).Bound id := by
  let binds (after : World) : Prop := ∀ node, Attaches world after id node → after.Bound id
  have heard : (world.acquired uuid).listening = true := listening
  have loaded : binds (world.loadObjectScene loader uuid) := by
    apply loadObjectScene_rule
    · rintro node ⟨found, child, new⟩
      exact absurd child (new node found)
    · exact fun node attached => absurd attached (not_attaches_of_acquired rfl id node)
    · intro node attached
      have nodes : ((world.acquired uuid).requestScene loader uuid).objectDb =
          (world.acquired uuid).objectDb := by
        simp only [World.requestScene]
        split
        · rfl
        · rfl
      exact absurd attached (not_attaches_of_acquired nodes id node)
    · intro other node attached
      by_cases enters : ∃ made, (world.acquired uuid).objectDb.getInstance other = some made ∧
          made.mount = .orphan
      · rcases enters with ⟨made, found, orphan⟩
        by_cases own : id = other
        · rw [own]
          exact bound_addChild heard found orphan
        · have here := attached.found
          rw [(entered_addChild heard found orphan).nodes, if_neg own] at here
          rcases getInstance_acquired here with before | free
          · exact absurd attached.child (attached.new node before)
          · rw [attached.child] at free
            simp at free
      · rw [addChild_of_mounted fun made found orphan => enters ⟨made, found, orphan⟩] at attached
        exact absurd attached (not_attaches_of_acquired rfl id node)
  exact loaded node attaches

/-- A child that leaves by itself is recorded. -/
theorem recorded_removeChild (listening : world.listening = true) {id : ObjectID}
    {node : StreamObjectNode} (found : world.objectDb.getInstance id = some node)
    (child : node.mount = .manager) (nonNil : node.uuid ≠ Uuid.nil)
    (notPending : node.uuid ∉ world.manager.pendingRemoval)
    (notQueued : node.queuedForDeletion = false ∧ world.manager.queuedForDeletion = false) :
    node.uuid ∈ (world.removeChild id).manager.objectRemoval := by
  have leaves : ¬ (node.uuid ∈ world.manager.pendingRemoval ∨ node.queuedForDeletion = true ∨
      world.manager.queuedForDeletion = true) := by
    simp [notPending, notQueued]
  simp only [removeChild, found, child, if_true, listening, onObjectExited, leaves, if_false,
    StreamManager.removeObject, nonNil, setMount]
  exact Table.mem_insert.mpr (Or.inl rfl)

/-- The children that leave with the manager are saved or recorded. -/
theorem exists_foldl_childExited (world : World) (children : List ObjectID) :
    ∃ saveTasks captures objectRemoval dirtyAabb, children.foldl childExited world =
      { world with
        saveTasks
        captures
        manager := { world.manager with objectRemoval, dirtyAabb } } := by
  apply List.foldlRecOn (motive := fun other : World =>
    ∃ saveTasks captures objectRemoval dirtyAabb, other =
      { world with
        saveTasks
        captures
        manager := { world.manager with objectRemoval, dirtyAabb } }) _ _ ⟨_, _, _, _, rfl⟩
  rintro _ ⟨saveTasks, captures, objectRemoval, dirtyAabb, rfl⟩ id _
  simp only [childExited]
  split
  · rcases exists_onObjectExited { world with
        saveTasks
        captures
        manager := { world.manager with objectRemoval, dirtyAabb } } id with ⟨_, _, _, _, same⟩
    rw [same]
    exact ⟨_, _, _, _, rfl⟩
  · exact ⟨_, _, _, _, rfl⟩

theorem pendingRemoval_leaveTree (world : World) (children : List ObjectID) :
    (world.leaveTree children).manager.pendingRemoval = world.manager.pendingRemoval := by
  rcases exists_foldl_childExited world children with ⟨_, _, _, _, same⟩
  simp only [leaveTree, _exitTree, same]
  rw [flushPendingDbOps_frame]

theorem mem_childIds {id : ObjectID} : id ∈ world.childIds ↔
    ∃ node, world.objectDb.getInstance id = some node ∧ node.mount = .manager := by
  simp only [childIds, List.mem_map, List.mem_filter, decide_eq_true_eq, ObjectDB.getInstance,
    Table.get?_eq_some]
  constructor
  · rintro ⟨⟨_, node⟩, ⟨listed, child⟩, rfl⟩
    exact ⟨node, listed, child⟩
  · rintro ⟨node, listed, child⟩
    exact ⟨(id, node), ⟨listed, child⟩, rfl⟩

end World

namespace Stage

open World

variable {stage : Stage}

/-- Every child that enters while the manager is inside the tree is bound, and every child that is
removed there, and is not on its way to be deleted, is recorded. -/
structure Notices (stage : Stage) : Prop where
  entered : stage.world.manager.insideTree = true → stage.entering = [] →
    ∀ id next, stage.world.step (.enter id) = some next → next.Bound id
  loaded : stage.world.manager.insideTree = true → stage.entering = [] →
    ∀ loader uuid id node, Attaches stage.world (stage.world.loadObjectScene loader uuid) id node →
      (stage.world.loadObjectScene loader uuid).Bound id
  announced : ∀ id entering node, stage.entering = id :: entering →
    stage.world.objectDb.getInstance id = some node → (stage.world.childEntered id).Bound id
  removed : stage.world.manager.insideTree = true → stage.entering = [] →
    ∀ id node mount next, stage.world.objectDb.getInstance id = some node →
      node.queuedForDeletion = false ∧ stage.world.manager.queuedForDeletion = false →
      stage.world.exitChild id mount = some next → node.uuid ∈ next.manager.objectRemoval

/-- The manager enters the tree only while its signals are connected: once it has left, it stays
outside. -/
def Settles (stage : Stage) : Move → Prop
  | .enterTree _ => stage.world.manager.connected = true
  | _ => True

instance decidableSettles (stage : Stage) : ∀ move, Decidable (Settles stage move)
  | .enterTree _ => inferInstanceAs (Decidable (_ = true))
  | .act _ | .announce | .exitTree _ | .queueFree => isTrue trivial

/-- Inside the tree the signals are connected, and a child without a uuid has still to announce
itself. -/
structure Attentive (stage : Stage) : Prop where
  pendingRemoval : ∀ uuid, uuid ∉ stage.world.manager.pendingRemoval
  connected : stage.world.manager.insideTree = true → stage.world.manager.connected = true
  outside : stage.world.manager.insideTree = false → stage.entering = []
  named : stage.world.manager.insideTree = true → ∀ id node,
    stage.world.objectDb.getInstance id = some node → node.mount = .manager →
    node.uuid = Uuid.nil → id ∈ stage.entering

theorem Attentive.listening (attentive : stage.Attentive)
    (inside : stage.world.manager.insideTree = true) : stage.world.listening = true := by
  rw [World.listening, inside, attentive.connected inside]
  rfl

theorem Attentive.act (attentive : stage.Attentive) (silent : stage.entering = [])
    {action : Action} {world : World} (acted : stage.world.act action = some world) :
    Attentive { stage with world } := by
  have stays := staysInTree_act acted
  refine ⟨fun uuid pending => attentive.pendingRemoval uuid (stays.pendingRemoval uuid pending),
    ?_, fun _ => silent, ?_⟩
  · intro inside
    rw [stays.connected]
    exact attentive.connected (stays.insideTree.symm.trans inside)
  · intro inside id node found child isNil
    have before := stays.insideTree.symm.trans inside
    have named : stage.world.Unattached Uuid.nil := by
      intro other live here otherChild without
      have waits := attentive.named before other live here otherChild without
      rw [silent] at waits
      exact absurd waits List.not_mem_nil
    exact absurd isNil (stays.named (attentive.listening before) named id node found child)

theorem Attentive.announce (attentive : stage.Attentive) {id : ObjectID}
    {entering : List ObjectID} (next : stage.entering = id :: entering) :
    Attentive { world := stage.world.childEntered id, entering } := by
  have inside : stage.world.manager.insideTree = true := by
    by_contra outside
    rw [Bool.not_eq_true] at outside
    rw [attentive.outside outside] at next
    simp at next
  have enters : stage.world.childEntered id = stage.world.onObjectEntered id :=
    if_pos (attentive.listening inside)
  have frame := (loads_onObjectEntered stage.world id).frame
  rw [enters]
  refine ⟨?_, ?_, ?_, ?_⟩
  · rw [frame]
    exact attentive.pendingRemoval
  · rw [frame]
    exact attentive.connected
  · rw [frame]
    exact fun outside => absurd (inside.symm.trans outside) (by simp)
  · intro _ other live here child isNil
    have waits : other ≠ id ∧ stage.world.objectDb.getInstance other = some live := by
      cases found : stage.world.objectDb.getInstance id with
      | none =>
          simp only [onObjectEntered, found] at here
          refine ⟨?_, here⟩
          rintro rfl
          rw [found] at here
          simp at here
      | some node =>
          rw [getInstance_onObjectEntered found] at here
          split at here
          · rw [← Option.some.inj here] at isNil
            exact absurd isNil (stage.world.entersAs_ne_nil node)
          case isFalse distinct => exact ⟨distinct, here⟩
    have listed := attentive.named inside other live waits.2 child isNil
    rw [next] at listed
    exact (List.mem_cons.mp listed).resolve_left waits.1

theorem Attentive.step (attentive : stage.Attentive) {move : Move} {next : Stage}
    (settles : Settles stage move) (stepped : stage.step move = some next) : next.Attentive := by
  cases move with
  | act action =>
      simp only [Stage.step] at stepped
      split at stepped
      case isTrue silent =>
        rcases Option.map_eq_some_iff.mp stepped with ⟨world, acted, rfl⟩
        exact attentive.act silent acted
      · simp at stepped
  | enterTree children =>
      simp only [Stage.step] at stepped
      split at stepped
      case isTrue enters =>
        rw [← Option.some.inj stepped]
        simp only [Bool.and_eq_true, List.isPerm_iff] at enters
        refine ⟨attentive.pendingRemoval, fun _ => settles, fun outside => by simp at outside, ?_⟩
        intro _ id node found child _
        exact enters.2.mem_iff.mpr (mem_childIds.mpr ⟨node, found, child⟩)
      · simp at stepped
  | announce =>
      simp only [Stage.step] at stepped
      split at stepped
      · simp at stepped
      case h_2 id entering waiting =>
        rw [← Option.some.inj stepped]
        exact attentive.announce waiting
  | exitTree children =>
      simp only [Stage.step] at stepped
      split at stepped
      case isTrue leaves =>
        rw [← Option.some.inj stepped]
        refine ⟨?_, fun inside => ?_, fun _ => leaves.1, fun inside => ?_⟩
        · intro uuid
          rw [pendingRemoval_leaveTree]
          exact attentive.pendingRemoval uuid
        · simp [leaveTree] at inside
        · simp [leaveTree] at inside
      · simp at stepped
  | queueFree =>
      rw [← Option.some.inj stepped]
      exact ⟨attentive.pendingRemoval, attentive.connected, attentive.outside, attentive.named⟩

theorem Attentive.notices (attentive : stage.Attentive) : stage.Notices where
  entered := by
    intro inside _ id next entered
    cases happens_of_step entered with
    | enter id node found =>
        have orphaned : (stage.world.setMount id .orphan).objectDb.getInstance id =
            some { node with mount := .orphan } := by
          simp [setMount, ObjectDB.getInstance_modify, found]
        have listening : (stage.world.setMount id .orphan).listening = true :=
          attentive.listening inside
        exact bound_addChild listening orphaned rfl
  loaded := fun inside _ _ _ _ _ attaches =>
    bound_of_attaches (attentive.listening inside) attaches
  announced := by
    intro id entering node next found
    have inside : stage.world.manager.insideTree = true := by
      by_contra outside
      rw [Bool.not_eq_true] at outside
      rw [attentive.outside outside] at next
      simp at next
    have enters : stage.world.childEntered id = stage.world.onObjectEntered id :=
      if_pos (attentive.listening inside)
    rw [enters]
    exact bound_onObjectEntered found
  removed := by
    intro inside silent id node mount next found notQueued exited
    simp only [exitChild, found] at exited
    split at exited
    case isTrue child =>
      rw [← Option.some.inj exited]
      have nonNil : node.uuid ≠ Uuid.nil := by
        intro isNil
        have waits := attentive.named inside id node found child isNil
        rw [silent] at waits
        exact absurd waits List.not_mem_nil
      exact recorded_removeChild (attentive.listening inside) found child nonNil
        (attentive.pendingRemoval node.uuid) notQueued
    · simp at exited

/-- A manager that has been constructed and is not inside the tree yet. -/
def make (db : StreamSqliteDB) (files : Table ScenePath PackedScene) (sceneCap nodeCap : ℕ)
    (uuidGenerator : ℕ → {uuid : Uuid // uuid ≠ Uuid.nil}) : Stage :=
  let world := World.make db files sceneCap nodeCap uuidGenerator
  { world := { world with manager := { world.manager with insideTree := false } }
    entering := [] }

/-- Until the manager enters the tree a second time it notices its children. -/
theorem notices_of_reaches {db : StreamSqliteDB} {files : Table ScenePath PackedScene}
    {sceneCap nodeCap : ℕ} {uuidGenerator : ℕ → {uuid : Uuid // uuid ≠ Uuid.nil}}
    (reached : Reaches Stage.step Settles (make db files sceneCap nodeCap uuidGenerator) stage) :
    stage.Notices := by
  have attentive : stage.Attentive := by
    apply reached.invariant
    · exact ⟨Table.not_mem_empty, fun inside => absurd inside (by simp [make]), fun _ => rfl,
        fun inside => absurd inside (by simp [make])⟩
    · exact fun _ _ _ before settles stepped => before.step settles stepped
  exact attentive.notices

def unentered : Stage :=
  make .create ∅ 2 2 counting

/-- The manager enters the tree, and a child enters. -/
def firstVisit : List Move :=
  [.enterTree [], .act (.event (.create Uuid.nil Uuid.nil World.unitBox)), .act (.event (.enter 1))]

theorem notices_firstVisit : (runAll Stage.step firstVisit unentered).Notices :=
  notices_of_reaches (reaches_runAll (by decide +kernel) (by decide +kernel))

/-- The manager leaves with its child and enters again, and another node is made. -/
def secondVisit : List Move :=
  firstVisit ++ [.exitTree [1], .enterTree [1], .announce,
    .act (.event (.create Uuid.nil Uuid.nil World.unitBox))]

/-- The second node enters without getting a uuid, and the first one leaves without a trace. -/
theorem unnoticed_secondVisit :
    let stage := runAll Stage.step secondVisit unentered
    Reaches Stage.step (fun _ _ => True) unentered stage ∧
      stage.world.manager.insideTree = true ∧
      (∃ next node, stage.world.step (.enter 2) = some next ∧
        next.objectDb.getInstance 2 = some node ∧ node.mount = .manager ∧
        node.uuid = Uuid.nil) ∧
      (∃ next node, stage.world.objectDb.getInstance 1 = some node ∧ node.uuid = 101 ∧
        stage.world.step (.exit 1) = some next ∧ 101 ∉ next.manager.objectRemoval) ∧
      ¬ stage.Notices := by
  intro stage
  have entered : stage.world.step (.enter 2) = some (runAll World.step [.enter 2] stage.world) :=
    step_eq_runAll (by decide +kernel)
  have unnamed : (runAll World.step [.enter 2] stage.world).objectDb.getInstance 2 =
      some { uuid := Uuid.nil, parentUuid := Uuid.nil, aabb := unitBox, mount := .manager } := by
    decide +kernel
  refine ⟨reaches_runAll (by decide +kernel) (by decide +kernel), by decide +kernel,
    ⟨_, _, entered, unnamed, rfl, rfl⟩,
    ⟨_, { uuid := 101, parentUuid := Uuid.nil, aabb := unitBox, mount := .manager },
      by decide +kernel, rfl, step_eq_runAll (by decide +kernel), by decide +kernel⟩, ?_⟩
  intro notices
  rcases notices.entered (by decide +kernel) (by decide +kernel) 2 _ entered with
    ⟨node, found, nonNil, _⟩
  rw [unnamed, Option.some.injEq] at found
  rw [← found] at nonNil
  exact nonNil rfl

end Stage

end GodotStream
