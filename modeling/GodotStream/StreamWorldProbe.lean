import GodotStream.Events

/-!
# Probes

Model of `stream_world_probe.cpp` in the scene around it. The probe finds its manager by
a path, keeps a pointer to the manager that it found last, and registers there. A change
of visibility inside the tree reaches the probe later, through a deferred call, once
`_ready` has connected the signal.
-/

namespace GodotStream

open Storage Run

namespace StreamManager

def onLoadProbe (manager : StreamManager) (probe : ObjectID) : StreamManager :=
  { manager with registeredProbes := manager.registeredProbes.insert probe () }

def onUnloadProbe (manager : StreamManager) (probe : ObjectID) : StreamManager :=
  { manager with registeredProbes := manager.registeredProbes.erase probe }

end StreamManager

structure StreamWorldProbe where
  id : ObjectID
  streamManagerPath : String
  streamManager : Option ObjectID

/-- A probe, what the engine knows about it, and the managers of the scene. -/
structure ProbeScene where
  probe : StreamWorldProbe
  insideTree : Bool
  visibleInTree : Bool
  /-- The signal of a visibility change reaches the probe. -/
  connected : Bool
  /-- Deferred calls of `_on_visibility_changed`. -/
  notifications : ℕ
  /-- The manager that a path leads to from where the probe is. -/
  managerAt : String → Option ObjectID
  managers : ObjectID → StreamManager

namespace ProbeScene

/-- Change one manager. -/
def withManager (scene : ProbeScene) (id : ObjectID) (change : StreamManager → StreamManager) :
    ProbeScene :=
  { scene with
    managers := fun other =>
      if other = id then change (scene.managers id) else scene.managers other }

/-- What a path of the probe leads to now. -/
def managerFor (scene : ProbeScene) (path : String) : Option ObjectID :=
  if path = "" || !scene.insideTree then none else scene.managerAt path

def manager (scene : ProbeScene) : Option ObjectID :=
  scene.managerFor scene.probe.streamManagerPath

def resolveAndCacheManager (scene : ProbeScene) : ProbeScene :=
  { scene with probe := { scene.probe with streamManager := scene.manager } }

/-- `stream_manager_->on_load_probe(this)`, skipped without a manager. -/
def load (scene : ProbeScene) : ProbeScene :=
  match scene.probe.streamManager with
  | none => scene
  | some id => scene.withManager id fun manager => manager.onLoadProbe scene.probe.id

def unload (scene : ProbeScene) : ProbeScene :=
  match scene.probe.streamManager with
  | none => scene
  | some id => scene.withManager id fun manager => manager.onUnloadProbe scene.probe.id

def _ready (scene : ProbeScene) : ProbeScene :=
  ({ scene with connected := true }).resolveAndCacheManager.load

def _enterTree (scene : ProbeScene) : ProbeScene :=
  if scene.visibleInTree then scene.resolveAndCacheManager.load else scene

def _exitTree (scene : ProbeScene) : ProbeScene :=
  let scene := scene.unload
  { scene with probe := { scene.probe with streamManager := none } }

def _onVisibilityChanged (scene : ProbeScene) : ProbeScene :=
  if !scene.insideTree then scene
  else
    let scene := scene.resolveAndCacheManager
    if scene.visibleInTree then scene.load else scene.unload

def setStreamManagerPath (scene : ProbeScene) (path : String) : ProbeScene :=
  let scene := { scene with probe := { scene.probe with streamManagerPath := path } }
  let scene := scene.resolveAndCacheManager
  if scene.visibleInTree && scene.insideTree then scene.load else scene

end ProbeScene

inductive ProbeEvent where
  /-- The probe enters the tree at a place from which the paths lead to these managers. -/
  | enterTree (visibleInTree : Bool) (managerAt : String → Option ObjectID)
  | ready
  /-- The probe is shown or hidden inside the tree. -/
  | setVisible (visibleInTree : Bool)
  /-- A deferred call of `_on_visibility_changed` runs. -/
  | visibilityChanged
  | setStreamManagerPath (path : String)
  | exitTree

namespace ProbeScene

def step (scene : ProbeScene) : ProbeEvent → Option ProbeScene
  | .enterTree visibleInTree managerAt =>
      if scene.insideTree then none
      else some ({ scene with insideTree := true, visibleInTree, managerAt })._enterTree
  | .ready => if scene.insideTree then some scene._ready else none
  | .setVisible visibleInTree =>
      if scene.insideTree then
        some { scene with
          visibleInTree
          notifications :=
            if scene.connected && visibleInTree != scene.visibleInTree then scene.notifications + 1
            else scene.notifications }
      else none
  | .visibilityChanged =>
      match scene.notifications with
      | 0 => none
      | notifications + 1 => some ({ scene with notifications })._onVisibilityChanged
  | .setStreamManagerPath path => some (scene.setStreamManagerPath path)
  | .exitTree =>
      if scene.insideTree then some { scene._exitTree with insideTree := false } else none

/-- A new probe among managers that do not know it. -/
def make (id : ObjectID) (managers : ObjectID → StreamManager) : ProbeScene :=
  { probe := { id, streamManagerPath := "", streamManager := none }
    insideTree := false
    visibleInTree := false
    connected := false
    notifications := 0
    managerAt := fun _ => none
    managers }

/-- The manager lists the probe. -/
def Registered (scene : ProbeScene) (id : ObjectID) : Prop :=
  scene.probe.id ∈ (scene.managers id).registeredProbes

instance (scene : ProbeScene) (id : ObjectID) : Decidable (scene.Registered id) :=
  inferInstanceAs (Decidable (_ ∈ _))

/-- The probe may get ready only while it is visible or has no manager, must not be shown or hidden
before it is ready, unless it has no manager, and may get another path only while it is registered
with no other manager than the one there. -/
def Watched (scene : ProbeScene) : ProbeEvent → Prop
  | .ready => scene.visibleInTree = true ∨ scene.manager = none
  | .setVisible _ => scene.connected = true ∨ scene.manager = none
  | .setStreamManagerPath path => ∀ id, scene.Registered id → scene.managerFor path = some id
  | _ => True

variable {scene : ProbeScene}

section Registration

theorem registered_withManager {id other : ObjectID} {change : StreamManager → StreamManager} :
    (scene.withManager id change).Registered other ↔
      if other = id then scene.probe.id ∈ (change (scene.managers id)).registeredProbes
      else scene.Registered other := by
  simp only [Registered, withManager]
  split
  · exact Iff.rfl
  · exact Iff.rfl

/-- A load registers the probe with the manager that it points to. -/
theorem registered_load {other : ObjectID} :
    scene.load.Registered other ↔
      scene.probe.streamManager = some other ∨ scene.Registered other := by
  simp only [load]
  split
  case h_1 absent => simp [absent]
  case h_2 id found =>
    rw [registered_withManager, found, Option.some.injEq]
    simp only [StreamManager.onLoadProbe, Table.mem_insert, true_or]
    split
    case isTrue own => simp [own]
    case isFalse distinct => simp [Ne.symm distinct]

/-- An unload deregisters the probe there, and nowhere else. -/
theorem registered_unload {other : ObjectID} :
    scene.unload.Registered other ↔
      scene.probe.streamManager ≠ some other ∧ scene.Registered other := by
  simp only [unload]
  split
  case h_1 absent => simp [absent]
  case h_2 id found =>
    rw [registered_withManager, found, ne_eq, Option.some.injEq]
    simp only [StreamManager.onUnloadProbe, Table.mem_erase]
    split
    case isTrue own => simp [own]
    case isFalse distinct => simp [Ne.symm distinct]

theorem load_frame (scene : ProbeScene) :
    scene.load = { scene with managers := scene.load.managers } := by
  simp only [load]
  split
  · rfl
  · rfl

theorem unload_frame (scene : ProbeScene) :
    scene.unload = { scene with managers := scene.unload.managers } := by
  simp only [unload]
  split
  · rfl
  · rfl

end Registration

/-- The probe is registered at most where its pointer and its path lead, and without pending
notifications it is registered there when it is visible. -/
structure Coherent (scene : ProbeScene) : Prop where
  cached : ∀ id, scene.Registered id →
    scene.probe.streamManager = some id ∧ scene.manager = some id
  shown : scene.notifications = 0 → scene.visibleInTree = true →
    ∀ id, scene.manager = some id → scene.Registered id
  hidden : scene.notifications = 0 → scene.visibleInTree = false →
    ∀ id, ¬ scene.Registered id

section Steps

/-- Without a manager the probe is registered nowhere. -/
theorem Coherent.unregistered (coherent : scene.Coherent) (absent : scene.manager = none)
    (id : ObjectID) : ¬ scene.Registered id := by
  intro registered
  rw [(coherent.cached id registered).2] at absent
  simp at absent

/-- A visible probe that resolves its path and loads is registered where the path leads. -/
theorem coherent_load (only : ∀ id, scene.Registered id → scene.manager = some id)
    (visible : scene.visibleInTree = true ∨ scene.manager = none) :
    scene.resolveAndCacheManager.load.Coherent := by
  have registered (id : ObjectID) : scene.resolveAndCacheManager.load.Registered id ↔
      scene.manager = some id := by
    rw [registered_load]
    constructor
    · rintro (found | before)
      · exact found
      · exact only id before
    · exact Or.inl
  have same : scene.resolveAndCacheManager.load.manager = scene.manager := by
    rw [load_frame]
    rfl
  have pointer : scene.resolveAndCacheManager.load.probe.streamManager = scene.manager := by
    rw [load_frame]
    rfl
  have seen : scene.resolveAndCacheManager.load.visibleInTree = scene.visibleInTree := by
    rw [load_frame]
    rfl
  refine ⟨?_, ?_, ?_⟩
  · intro id here
    rw [pointer, same]
    exact ⟨(registered id).mp here, (registered id).mp here⟩
  · intro _ _ id found
    rw [same] at found
    exact (registered id).mpr found
  · intro _ invisible id here
    have found := (registered id).mp here
    rw [seen] at invisible
    rcases visible with isVisible | absent
    · rw [isVisible] at invisible
      simp at invisible
    · rw [absent] at found
      simp at found

/-- A hidden probe that resolves its path and unloads is registered nowhere. -/
theorem coherent_unload (only : ∀ id, scene.Registered id → scene.manager = some id)
    (invisible : scene.visibleInTree = false) :
    scene.resolveAndCacheManager.unload.Coherent := by
  have unregistered (id : ObjectID) : ¬ scene.resolveAndCacheManager.unload.Registered id := by
    rw [registered_unload]
    rintro ⟨elsewhere, before⟩
    exact elsewhere (only id before)
  have seen : scene.resolveAndCacheManager.unload.visibleInTree = false := by
    rw [unload_frame]
    exact invisible
  refine ⟨fun id here => absurd here (unregistered id), ?_, fun _ _ => unregistered⟩
  intro _ visible
  rw [seen] at visible
  simp at visible

theorem Coherent.only (coherent : scene.Coherent) (id : ObjectID)
    (registered : scene.Registered id) : scene.manager = some id :=
  (coherent.cached id registered).2

theorem Coherent.enterTree (coherent : scene.Coherent) (outside : scene.insideTree = false)
    (visibleInTree : Bool) (managerAt : String → Option ObjectID) :
    ({ scene with insideTree := true, visibleInTree, managerAt })._enterTree.Coherent := by
  have unregistered (id : ObjectID) : ¬ scene.Registered id := by
    apply coherent.unregistered
    simp [manager, managerFor, outside]
  simp only [_enterTree]
  split
  case isTrue visible =>
    apply coherent_load
    · exact fun id registered => absurd registered (unregistered id)
    · exact Or.inl visible
  case isFalse invisible =>
    refine ⟨fun id registered => absurd registered (unregistered id), ?_,
      fun _ _ => unregistered⟩
    exact fun _ visible => absurd visible invisible

/-- Without a pending notification nothing has changed that the probe would hear of. -/
theorem eq_of_settled {visibleInTree : Bool} (connected : scene.connected = true)
    (settled : (if scene.connected && visibleInTree != scene.visibleInTree then
      scene.notifications + 1 else scene.notifications) = 0) :
    visibleInTree = scene.visibleInTree ∧ scene.notifications = 0 := by
  by_cases same : visibleInTree = scene.visibleInTree
  · simp only [same, bne_self_eq_false, Bool.and_false] at settled
    exact ⟨same, settled⟩
  · simp [connected, same] at settled

theorem Coherent.setVisible (coherent : scene.Coherent) (visibleInTree : Bool)
    (watched : scene.connected = true ∨ scene.manager = none) :
    Coherent { scene with
      visibleInTree
      notifications :=
        if scene.connected && visibleInTree != scene.visibleInTree then scene.notifications + 1
        else scene.notifications } := by
  refine ⟨coherent.cached, ?_, ?_⟩
  · intro settled visible id found
    rcases watched with connected | absent
    · rcases eq_of_settled connected settled with ⟨same, before⟩
      exact coherent.shown before (same.symm.trans visible) id found
    · exact absurd (absent.symm.trans found) (by simp)
  · intro settled invisible id registered
    rcases watched with connected | absent
    · rcases eq_of_settled connected settled with ⟨same, before⟩
      exact coherent.hidden before (same.symm.trans invisible) id registered
    · exact coherent.unregistered absent id registered

theorem Coherent.visibilityChanged (coherent : scene.Coherent) (notifications : ℕ) :
    ({ scene with notifications })._onVisibilityChanged.Coherent := by
  simp only [_onVisibilityChanged]
  split
  case isTrue outside =>
    have unregistered (id : ObjectID) : ¬ scene.Registered id := by
      apply coherent.unregistered
      simp only [Bool.not_eq_true'] at outside
      simp [manager, managerFor, outside]
    refine ⟨fun id registered => absurd registered (unregistered id), ?_,
      fun _ _ => unregistered⟩
    intro _ _ id found
    simp only [Bool.not_eq_true'] at outside
    simp [manager, managerFor, outside] at found
  case isFalse =>
    split
    case isTrue visible => exact coherent_load coherent.only (Or.inl visible)
    case isFalse invisible =>
      rw [Bool.not_eq_true] at invisible
      exact coherent_unload coherent.only invisible

theorem Coherent.setStreamManagerPath (coherent : scene.Coherent) {path : String}
    (watched : ∀ id, scene.Registered id → scene.managerFor path = some id) :
    (scene.setStreamManagerPath path).Coherent := by
  let moved : ProbeScene :=
    { scene with probe := { scene.probe with streamManagerPath := path } }
  have only : ∀ id, moved.Registered id → moved.manager = some id := watched
  simp only [ProbeScene.setStreamManagerPath]
  split
  case isTrue shown =>
    rw [Bool.and_eq_true] at shown
    exact coherent_load only (Or.inl shown.1)
  case isFalse unseen =>
    refine ⟨fun id registered => ⟨only id registered, only id registered⟩, ?_,
      fun settled invisible => coherent.hidden settled invisible⟩
    -- a visible probe outside the tree has no manager
    intro _ visible id found
    rw [Bool.and_eq_true, not_and, Bool.not_eq_true] at unseen
    have outside : scene.insideTree = false := unseen visible
    change moved.manager = some id at found
    simp [manager, managerFor, moved, outside] at found

theorem Coherent.exitTree (coherent : scene.Coherent) :
    Coherent { scene._exitTree with insideTree := false } := by
  have unregistered (id : ObjectID) : ¬ scene.unload.Registered id := by
    rw [registered_unload]
    rintro ⟨elsewhere, before⟩
    exact elsewhere (coherent.cached id before).1
  have gone (id : ObjectID) :
      ¬ Registered { scene._exitTree with insideTree := false } id := unregistered id
  refine ⟨fun id registered => absurd registered (gone id), ?_, fun _ _ => gone⟩
  intro _ _ id found
  simp [manager, managerFor] at found

theorem Coherent.step (coherent : scene.Coherent) {event : ProbeEvent} {next : ProbeScene}
    (watched : scene.Watched event) (stepped : scene.step event = some next) : next.Coherent := by
  cases event with
  | enterTree visibleInTree managerAt =>
      simp only [ProbeScene.step] at stepped
      split at stepped
      · simp at stepped
      case isFalse outside =>
        rw [← Option.some.inj stepped]
        exact coherent.enterTree (by simpa using outside) visibleInTree managerAt
  | ready =>
      simp only [ProbeScene.step] at stepped
      split at stepped
      · rw [← Option.some.inj stepped]
        exact coherent_load coherent.only watched
      · simp at stepped
  | setVisible visibleInTree =>
      simp only [ProbeScene.step] at stepped
      split at stepped
      · rw [← Option.some.inj stepped]
        exact coherent.setVisible visibleInTree watched
      · simp at stepped
  | visibilityChanged =>
      simp only [ProbeScene.step] at stepped
      split at stepped
      · simp at stepped
      case h_2 notifications _ =>
        rw [← Option.some.inj stepped]
        exact coherent.visibilityChanged notifications
  | setStreamManagerPath path =>
      rw [← Option.some.inj stepped]
      exact coherent.setStreamManagerPath watched
  | exitTree =>
      simp only [ProbeScene.step] at stepped
      split at stepped
      · rw [← Option.some.inj stepped]
        exact coherent.exitTree
      · simp at stepped

end Steps

theorem coherent_make {id : ObjectID} {managers : ObjectID → StreamManager}
    (unknown : ∀ manager, id ∉ (managers manager).registeredProbes) :
    (make id managers).Coherent := by
  refine ⟨fun other registered => absurd registered (unknown other), ?_,
    fun _ _ other => unknown other⟩
  intro _ visible
  simp [make] at visible

/-- With no notification pending, a probe is registered with a manager if and only if it is visible
inside the tree and its path leads there. -/
theorem registered_iff {id : ObjectID} {managers : ObjectID → StreamManager}
    (unknown : ∀ manager, id ∉ (managers manager).registeredProbes)
    (reached : Reaches step Watched (make id managers) scene) (settled : scene.notifications = 0)
    (other : ObjectID) :
    scene.Registered other ↔
      scene.insideTree = true ∧ scene.visibleInTree = true ∧ scene.manager = some other := by
  have coherent : scene.Coherent :=
    reached.invariant (coherent_make unknown)
      fun _ _ _ before watched stepped => before.step watched stepped
  constructor
  · intro registered
    have found := coherent.only other registered
    refine ⟨?_, ?_, found⟩
    · by_contra outside
      simp [manager, managerFor, outside] at found
    · by_contra invisible
      exact coherent.hidden settled (by simpa using invisible) other registered
  · rintro ⟨_, visible, found⟩
    exact coherent.shown settled visible other found

/-- Two managers, and a probe that knows neither. -/
def twoManagers : ProbeScene :=
  make 1 fun _ => .make "" 16 32

/-- Where the two managers are found. -/
def places (path : String) : Option ObjectID :=
  if path = "first" then some 7 else if path = "second" then some 8 else none

def shownEvents : List ProbeEvent :=
  [.setStreamManagerPath "first", .enterTree true places, .ready]

theorem registered_shown :
    (runAll step shownEvents twoManagers).Registered 7 ↔
      (runAll step shownEvents twoManagers).insideTree = true ∧
        (runAll step shownEvents twoManagers).visibleInTree = true ∧
        (runAll step shownEvents twoManagers).manager = some 7 := by
  have unknown (manager : ObjectID) : 1 ∉ (StreamManager.make "" 16 32).registeredProbes := by
    simp [StreamManager.make]
  have pathWatched : twoManagers.Watched (.setStreamManagerPath "first") :=
    fun id registered => absurd registered (unknown id)
  have pathSet : Reaches step Watched twoManagers (twoManagers.setStreamManagerPath "first") :=
    Reaches.refl.tail pathWatched rfl
  have enterWatched : (twoManagers.setStreamManagerPath "first").Watched
      (.enterTree true places) := trivial
  have reached : Reaches step Watched twoManagers (runAll step shownEvents twoManagers) :=
    (pathSet.tail enterWatched rfl).tail
      (show Watched _ .ready from Or.inl rfl) rfl
  exact registered_iff unknown reached rfl 7

/-- A probe that gets ready while it is hidden, one that gets the path of another manager, and one
whose path is cleared before it leaves the tree. -/
theorem registered_astray :
    let hidden := runAll step
      [.setStreamManagerPath "first", .enterTree false places, .ready] twoManagers
    let moved := runAll step (shownEvents ++ [.setStreamManagerPath "second"]) twoManagers
    let left := runAll step (shownEvents ++ [.setStreamManagerPath "", .exitTree]) twoManagers
    (Reaches step (fun _ _ => True) twoManagers hidden ∧ hidden.notifications = 0 ∧
        hidden.Registered 7 ∧ hidden.visibleInTree = false) ∧
      (Reaches step (fun _ _ => True) twoManagers moved ∧ moved.notifications = 0 ∧
        moved.Registered 7 ∧ moved.manager = some 8) ∧
      Reaches step (fun _ _ => True) twoManagers left ∧ left.notifications = 0 ∧
        left.Registered 7 ∧ left.insideTree = false := by
  refine ⟨⟨reaches_runAll ?_ (by decide), by decide, by decide, by decide⟩,
    ⟨reaches_runAll ?_ (by decide), by decide, by decide, by decide⟩,
    reaches_runAll ?_ (by decide), by decide, by decide, by decide⟩
  · decide
  · decide
  · decide

end ProbeScene

end GodotStream
