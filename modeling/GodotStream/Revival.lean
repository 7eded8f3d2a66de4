import GodotStream.Bijection
import GodotStream.LoadQueues
import GodotStream.OutOfRange

/-!
# Objects that come back

After a removal nothing remembers the uuid. A result that the database thread computed from
a row that was still there registers the object again when it is delivered, as any object
that is not registered yet. An unload does so too, if the children index still lists the
object under a former parent.
-/

namespace GodotStream

open Storage Run

def Callback.result : Callback → Option (Table Uuid ObjectData)
  | .nothing => none
  | .onQueryResult dbObjects => some dbObjects

namespace World

variable {world : World} {uuid : Uuid}

/-- The results that wait for their delivery, oldest first. -/
def waitingResults (world : World) : List (Table Uuid ObjectData) :=
  match world.dbWorker with
  | none => []
  | some worker => worker.completedCallbacks.filterMap Callback.result

/-- An unload of the delivery visits the object. -/
def Visits (world : World) (dbObjects : Table Uuid ObjectData) (uuid : Uuid) : Prop :=
  ∃ stale ∈ world.manager.toUnload dbObjects,
    stale ≠ Uuid.nil ∧ uuid ∈ world.manager.collectDescendants stale

instance (world : World) (dbObjects : Table Uuid ObjectData) (uuid : Uuid) :
    Decidable (world.Visits dbObjects uuid) :=
  inferInstanceAs (Decidable (∃ stale ∈ world.manager.toUnload dbObjects, _))

section Delivery

theorem exists_flushCallbacks (world : World) :
    ∃ dbWorker, world.flushCallbacks =
      world.waitingResults.foldl onQueryResult { world with dbWorker } := by
  have folded (callbacks : List Callback) (start : World) : callbacks.foldl runCallback start =
      (callbacks.filterMap Callback.result).foldl onQueryResult start := by
    induction callbacks generalizing start with
    | nil => rfl
    | cons callback rest ih =>
        rw [List.foldl_cons, ih]
        cases callback with
        | nothing => rfl
        | onQueryResult => rfl
  cases running : world.dbWorker with
  | none =>
      refine ⟨none, ?_⟩
      simp only [flushCallbacks, waitingResults, running, List.foldl_nil]
      rw [← running]
  | some worker =>
      refine ⟨some { worker with completedCallbacks := [] }, ?_⟩
      simp only [flushCallbacks, waitingResults, running, folded]

/-- A delivery registers an unregistered object if and only if it is in the result or visited. -/
theorem mem_registry_onQueryResult_of_absent (absent : uuid ∉ world.manager.registry)
    (dbObjects : Table Uuid ObjectData) :
    uuid ∈ (world.onQueryResult dbObjects).manager.registry ↔
      uuid ∈ dbObjects ∨ world.Visits dbObjects uuid := by
  have spared : uuid ∉ world.manager.toUnload dbObjects := by
    intro stale
    rcases StreamManager.mem_toUnload.mp stale with ⟨_, found, _⟩
    exact absent (Table.mem_of_get? found)
  by_cases outside : uuid ∈ dbObjects
  · rcases Table.mem_iff_get?.mp outside with ⟨row, listed⟩
    rw [or_iff_left_of_imp fun _ => outside, iff_true_right outside, Table.mem_iff_get?]
    simp only [onQueryResult, StreamManager.get?_applyObjects, listed]
    split
    · exact ⟨_, rfl⟩
    · exact ⟨_, rfl⟩
  · rw [mem_registry_onQueryResult outside, or_iff_right fun both => absent both.1,
      or_iff_right outside]
    constructor
    · rintro ⟨before, stale, later, split, nonNil, collected, _⟩
      exact ⟨stale, by rw [split]; exact List.mem_append_right _ List.mem_cons_self, nonNil,
        collected⟩
    · rintro ⟨stale, listed, nonNil, collected⟩
      rcases List.append_of_mem listed with ⟨before, later, split⟩
      refine ⟨before, stale, later, split, nonNil, collected, ?_, ?_⟩
      · exact fun same => spared (same ▸ listed)
      · exact fun here => spared (by
          rw [split]
          exact List.mem_append_right _ (List.mem_cons_of_mem _ here))

/-- Where the index mirrors the registry, no unload visits an unregistered object. -/
theorem not_visits_of_mirrors (mirrors : world.manager.Mirrors)
    (absent : uuid ∉ world.manager.registry) (dbObjects : Table Uuid ObjectData) :
    ¬ world.Visits dbObjects uuid := by
  rintro ⟨stale, listed, _, collected⟩
  rw [StreamManager.mem_collectDescendants] at collected
  rcases Relation.ReflTransGen.cases_tail collected with same | ⟨parent, _, child⟩
  · rcases StreamManager.mem_toUnload.mp listed with ⟨_, found, _⟩
    exact absent (same ▸ Table.mem_of_get? found)
  · rcases (mirrors parent uuid).mp child with ⟨_, _, found, _⟩
    exact absent (Table.mem_of_get? found)

/-- A registered object without a node outlives a delivery and is left without one. -/
theorem registered_onQueryResult (registered : uuid ∈ world.manager.registry)
    (rootless : Rootless uuid world) (dbObjects : Table Uuid ObjectData) :
    uuid ∈ (world.onQueryResult dbObjects).manager.registry := by
  by_cases outside : uuid ∈ dbObjects
  · rcases Table.mem_iff_get?.mp outside with ⟨row, listed⟩
    rw [Table.mem_iff_get?]
    simp only [onQueryResult, StreamManager.get?_applyObjects, listed]
    split
    · exact ⟨_, rfl⟩
    · exact ⟨_, rfl⟩
  · apply (mem_registry_onQueryResult outside).mpr
    refine Or.inl ⟨registered, ?_⟩
    intro stale
    rcases StreamManager.mem_toUnload.mp stale with ⟨data, found, _, rooted⟩
    exact rooted (rootless data found)

theorem Rootless.onQueryResult (rootless : Rootless uuid world) {dbObjects : Table Uuid ObjectData}
    (rows : ∀ data, dbObjects.get? uuid = some data → data.nodeRoot = 0) :
    Rootless uuid (world.onQueryResult dbObjects) := by
  have unloaded : Rootless uuid
      ((world.manager.toUnload dbObjects).foldl World.unloadStale world) :=
    rootless_foldl_unloadStale (Or.inr rootless)
  intro data found
  simp only [World.onQueryResult, StreamManager.get?_applyObjects] at found
  split at found
  · exact unloaded data found
  case h_2 row listed =>
    split at found
    · rw [← Option.some.inj found]
      exact rows row listed
    case h_2 here present =>
      rw [← Option.some.inj found]
      exact unloaded here present

/-- One of the results holds the object, or the first one makes an unload visit it. -/
def Revives (world : World) (results : List (Table Uuid ObjectData)) (uuid : Uuid) : Prop :=
  (∃ dbObjects ∈ results, uuid ∈ dbObjects) ∨
    ∃ dbObjects ∈ results.head?, world.Visits dbObjects uuid

instance (world : World) (results : List (Table Uuid ObjectData)) (uuid : Uuid) :
    Decidable (world.Revives results uuid) :=
  inferInstanceAs (Decidable (_ ∨ _))

/-- After a delivery that does not bring the object back, the next ones find a rebuilt index. -/
theorem revives_cons {dbObjects : Table Uuid ObjectData} {rest : List (Table Uuid ObjectData)}
    (absent : uuid ∉ world.manager.registry)
    (still : uuid ∉ (world.onQueryResult dbObjects).manager.registry) :
    (world.onQueryResult dbObjects).Revives rest uuid ↔
      world.Revives (dbObjects :: rest) uuid := by
  have mirrors := StreamManager.mirrors_applyObjects
    ((world.manager.toUnload dbObjects).foldl unloadStale world).manager dbObjects
  have unvisited (other : Table Uuid ObjectData) :
      ¬ (world.onQueryResult dbObjects).Visits other uuid :=
    not_visits_of_mirrors mirrors still other
  rw [mem_registry_onQueryResult_of_absent absent, not_or] at still
  constructor
  · rintro (⟨other, listed, here⟩ | ⟨other, _, visited⟩)
    · exact Or.inl ⟨other, List.mem_cons_of_mem _ listed, here⟩
    · exact absurd visited (unvisited other)
  · rintro (⟨other, listed, here⟩ | ⟨other, isFirst, visited⟩)
    · rcases List.mem_cons.mp listed with rfl | later
      · exact absurd here still.1
      · exact Or.inl ⟨other, later, here⟩
    · rw [List.head?_cons, Option.mem_some_iff] at isFirst
      exact absurd (isFirst ▸ visited) still.2

/-- Deliveries one after the other register an unregistered object exactly if one of them holds it
or the first one visits it. -/
theorem mem_registry_deliveries (absent : uuid ∉ world.manager.registry)
    {results : List (Table Uuid ObjectData)}
    (rows : ∀ dbObjects ∈ results, ∀ data, dbObjects.get? uuid = some data → data.nodeRoot = 0) :
    uuid ∈ (results.foldl onQueryResult world).manager.registry ↔ world.Revives results uuid := by
  have stays {start : World} (registered : uuid ∈ start.manager.registry)
      (rootless : Rootless uuid start) {later : List (Table Uuid ObjectData)}
      (laterRows : ∀ dbObjects ∈ later, ∀ data, dbObjects.get? uuid = some data →
        data.nodeRoot = 0) : uuid ∈ (later.foldl onQueryResult start).manager.registry := by
    have both : uuid ∈ (later.foldl onQueryResult start).manager.registry ∧
        Rootless uuid (later.foldl onQueryResult start) := by
      apply List.foldlRecOn (motive := fun other : World =>
        uuid ∈ other.manager.registry ∧ Rootless uuid other) _ _ ⟨registered, rootless⟩
      rintro other ⟨here, free⟩ dbObjects listed
      exact ⟨registered_onQueryResult here free dbObjects,
        free.onQueryResult (laterRows dbObjects listed)⟩
    exact both.1
  induction results generalizing world with
  | nil => simp [Revives, absent]
  | cons dbObjects rest ih =>
      have rootless : Rootless uuid world := fun data found =>
        absurd (Table.mem_of_get? found) absent
      have restRows := fun other listed => rows other (List.mem_cons_of_mem dbObjects listed)
      have first := mem_registry_onQueryResult_of_absent absent dbObjects
      rw [List.foldl_cons]
      by_cases registered : uuid ∈ (world.onQueryResult dbObjects).manager.registry
      · refine iff_of_true (stays registered (rootless.onQueryResult
          (rows dbObjects List.mem_cons_self)) restRows) ?_
        rcases first.mp registered with listed | visited
        · exact Or.inl ⟨dbObjects, List.mem_cons_self, listed⟩
        · exact Or.inr ⟨dbObjects, rfl, visited⟩
      · exact (ih registered restRows).trans (revives_cons absent registered)

/-- Deliveries that do not bring the object back do not queue it. -/
theorem count_queued_deliveries (absent : uuid ∉ world.manager.registry)
    {results : List (Table Uuid ObjectData)} (unrevived : ¬ world.Revives results uuid) :
    (results.foldl onQueryResult world).queued.count uuid ≤ world.queued.count uuid := by
  induction results generalizing world with
  | nil => exact Nat.le_refl _
  | cons dbObjects rest ih =>
      have still : uuid ∉ (world.onQueryResult dbObjects).manager.registry := by
        rw [mem_registry_onQueryResult_of_absent absent]
        rintro (listed | visited)
        · exact unrevived (Or.inl ⟨dbObjects, List.mem_cons_self, listed⟩)
        · exact unrevived (Or.inr ⟨dbObjects, rfl, visited⟩)
      rcases exists_queued_onQueryResult world dbObjects with ⟨roots, queued, _, registered⟩
      have unqueued : roots.count uuid = 0 := by
        apply List.count_eq_zero.mpr
        exact fun listed => still (Table.mem_def.mpr (registered listed))
      rw [List.foldl_cons]
      apply (ih still (mt (revives_cons absent still).mp unrevived)).trans
      rw [queued.count_eq, List.count_append]
      omega

/-- A round of deliveries registers an unregistered object if and only if it revives it. -/
theorem mem_registry_flushCallbacks (identified : world.Identified)
    (absent : uuid ∉ world.manager.registry) :
    uuid ∈ world.flushCallbacks.manager.registry ↔ world.Revives world.waitingResults uuid := by
  have rows : ∀ dbObjects ∈ world.waitingResults, ∀ data, dbObjects.get? uuid = some data →
      data.nodeRoot = 0 := by
    intro dbObjects waiting data found
    simp only [waitingResults] at waiting
    split at waiting
    · simp at waiting
    case h_2 worker running =>
      rcases List.mem_filterMap.mp waiting with ⟨callback, completed, isResult⟩
      cases callback with
      | nothing => simp [Callback.result] at isResult
      | onQueryResult other =>
          rw [Callback.result, Option.some.injEq] at isResult
          subst isResult
          exact identified.results worker running other completed uuid data found
  rcases exists_flushCallbacks world with ⟨dbWorker, flushed⟩
  have unregistered : uuid ∉ ({ world with dbWorker } : World).manager.registry := absent
  rw [flushed]
  exact mem_registry_deliveries unregistered rows

end Delivery

/-- An object is not registered anew, and no other node is attached with its uuid. -/
structure Apart (uuid : Uuid) (before after : World) : Prop where
  registered : uuid ∈ after.manager.registry → uuid ∈ before.manager.registry
  attached : ∀ id node, after.objectDb.getInstance id = some node → node.mount = .manager →
    node.uuid = uuid → ∃ old, before.objectDb.getInstance id = some old ∧
      old.mount = .manager ∧ old.uuid = uuid

theorem Apart.refl (uuid : Uuid) (world : World) : Apart uuid world world :=
  ⟨id, fun _ node found child carries => ⟨node, found, child, carries⟩⟩

theorem Apart.trans {before middle after : World} (first : Apart uuid before middle)
    (second : Apart uuid middle after) : Apart uuid before after := by
  refine ⟨fun here => first.registered (second.registered here), ?_⟩
  intro id node found child carries
  rcases second.attached id node found child carries with ⟨old, oldFound, oldChild, same⟩
  exact first.attached id old oldFound oldChild same

theorem Apart.of_shrinks {after : World}
    (registered : uuid ∈ after.manager.registry → uuid ∈ world.manager.registry)
    (shrinks : world.objectDb.Shrinks after.objectDb) : Apart uuid world after := by
  refine ⟨registered, ?_⟩
  intro id node found child carries
  rcases shrinks id node found child with ⟨old, oldFound, oldChild, same⟩
  exact ⟨old, oldFound, oldChild, same.trans carries⟩

theorem Apart.of_same {after : World} (registry : after.manager.registry = world.manager.registry)
    (shrinks : world.objectDb.Shrinks after.objectDb) : Apart uuid world after :=
  Apart.of_shrinks (fun here => registry ▸ here) shrinks

section Loading

/-- A node that enters under another uuid. -/
theorem apart_addChild (listening : world.listening = true) {id : ObjectID}
    (other : ∀ node, world.objectDb.getInstance id = some node → world.entersAs node ≠ uuid) :
    Apart uuid world (world.addChild id) := by
  by_cases enters : ∃ node, world.objectDb.getInstance id = some node ∧ node.mount = .orphan
  · rcases enters with ⟨node, found, orphan⟩
    have distinct := other node found
    have entered := entered_addChild listening found orphan
    rcases entered.registry with ⟨parentUuid, registry⟩
    constructor
    · rw [Table.mem_iff_get?, Table.mem_iff_get?, registry, if_neg distinct.symm]
      exact fun here => here
    · intro live node' here child carries
      rw [entered.nodes] at here
      split at here
      · rw [← Option.some.inj here] at carries
        exact absurd carries distinct
      · exact ⟨node', here, child, carries⟩
  · rw [addChild_of_mounted fun node found orphan => enters ⟨node, found, orphan⟩]
    exact Apart.refl uuid world

theorem apart_loadObjectScene (identified : world.Identified)
    (scenes : world.StoresScenes MakesOwn) (listening : world.listening = true)
    (absent : uuid ∉ world.manager.registry) (loader : Loader) (other : Uuid) :
    Apart uuid world (world.loadObjectScene loader other) := by
  have acquired : Apart uuid world (world.acquired other) :=
    Apart.of_same rfl (ObjectDB.sameChildren_acquire _ _ _).1
  rcases identified.load_cases scenes loader other with
    same | ⟨⟨data, registered, _⟩, left | asked | ⟨id, node, found, enters, _, mounted⟩⟩
  · rw [same]
    exact Apart.refl uuid world
  · rw [left]
    exact acquired
  · rw [asked]
    apply acquired.trans
    simp only [requestScene]
    split
    · exact Apart.of_same rfl (ObjectDB.Shrinks.refl _)
    · exact Apart.of_same rfl (ObjectDB.Shrinks.refl _)
  · rw [mounted]
    apply acquired.trans
    apply apart_addChild (show (world.acquired other).listening = true from listening)
    intro entering here
    rw [found, Option.some.injEq] at here
    rw [← here, enters]
    rintro rfl
    exact absent (Table.mem_of_get? registered)

theorem apart_streamScenes (identified : world.Identified) (scenes : world.StoresScenes MakesOwn)
    (listening : world.listening = true) (absent : uuid ∉ world.manager.registry)
    (loader : Loader) : Apart uuid world (world.streamScenes loader) := by
  let holds (other : World) : Prop := Apart uuid world other ∧ other.Identified ∧
    other.StoresScenes MakesOwn ∧ other.listening = true
  have streamed : holds (world.streamScenes loader) := by
    apply streamScenes_rule (show holds world from
      ⟨Apart.refl uuid world, identified, scenes, listening⟩)
    · rintro other ⟨apart, otherIdentified, otherScenes, otherListening⟩
      exact ⟨⟨apart.registered, apart.attached⟩, otherIdentified.withCache (by simp),
        otherScenes.updateCache loader, otherListening⟩
    · rintro other loadQueue loadedQueue ⟨apart, otherIdentified, otherScenes, otherListening⟩
      exact ⟨⟨apart.registered, apart.attached⟩,
        ⟨otherIdentified.registry, otherIdentified.nodeCache, otherIdentified.results⟩,
        otherScenes.withManager otherScenes.cache, otherListening⟩
    · rintro other loaded ⟨apart, otherIdentified, otherScenes, otherListening⟩
      have otherAbsent := fun here => absent (apart.registered here)
      refine ⟨apart.trans (apart_loadObjectScene otherIdentified otherScenes otherListening
        otherAbsent loader loaded), otherIdentified.loadObjectScene loader loaded,
        otherScenes.loadObjectScene loader loaded, ?_⟩
      rw [(loads_loadObjectScene other loader loaded).frame]
      exact otherListening
  exact streamed.1

/-- The loads of a frame bring nothing back that is gone after its removals. -/
theorem apart_afterRemovals (identified : world.Identified) (scenes : world.StoresScenes MakesOwn)
    (listening : world.listening = true) (absent : uuid ∉ world.runRemovals.manager.registry)
    (loader : Loader) : Apart uuid world.runRemovals (world.process loader) := by
  have insideTree : world.manager.insideTree = true := (Bool.and_eq_true_iff.mp listening).1
  have listens : world.runRemovals.listening = true := by
    rw [(sparesEntry_runRemovals uuid world).frame]
    exact listening
  simp only [process, insideTree, Bool.not_true, Bool.false_eq_true, if_false]
  split
  · exact apart_streamScenes identified.runRemovals scenes.runRemovals listens absent loader
  · have flushed : Apart uuid world.runRemovals
        world.runRemovals.flushPendingDbOps.queryProbes := by
      rw [queryProbes_frame, flushPendingDbOps_frame]
      exact Apart.of_same rfl (ObjectDB.Shrinks.refl _)
    apply flushed.trans
    apply apart_streamScenes identified.runRemovals.flushPendingDbOps.queryProbes
      scenes.runRemovals.flushPendingDbOps.queryProbes
    · rw [queryProbes_frame, flushPendingDbOps_frame]
      exact listens
    · exact fun here => absent (flushed.registered here)

theorem apart_runRemovals (uuid : Uuid) (world : World) : Apart uuid world world.runRemovals := by
  have spares := sparesEntry_runRemovals uuid world
  apply Apart.of_shrinks spares.registered
  rw [spares.frame]
  exact ObjectDB.Shrinks.refl _

end Loading

section Runs

/-- No node with the uuid enters or is added, and no delivery brings the object back. -/
def KeepsAway (uuid : Uuid) (world : World) : Event → Prop
  | .enter id => ∀ node ∈ world.objectDb.getInstance id, world.entersAs node ≠ uuid
  | .addObject id => ∀ node ∈ world.objectDb.getInstance id, node.uuid ≠ uuid
  | .flushCallbacks => ¬ world.Revives world.waitingResults uuid
  | _ => True

instance decidableKeepsAway (uuid : Uuid) (world : World) :
    ∀ event, Decidable (KeepsAway uuid world event)
  | .enter _ | .addObject _ => by
      simp only [KeepsAway]
      infer_instance
  | .flushCallbacks => inferInstanceAs (Decidable (¬ _))
  | .create .. | .exit _ | .reparent _ | .queueFree _ | .deleteQueued _ | .removeObject _
  | .updateObject .. | .aabbChanged .. | .boxChanged .. | .loadProbe .. | .unloadProbe _
  | .process _ | .workerStep | .asyncSave _ => isTrue trivial

theorem apart_exitChild {id : ObjectID} {mount : Mount} {next : World}
    (detached : mount ≠ .manager) (exited : world.exitChild id mount = some next) :
    Apart uuid world next := by
  rcases exists_of_exitChild exited with ⟨_, _, _, rfl⟩
  apply Apart.of_shrinks
  · rcases exists_removeChild world id with ⟨_, _, _, _, _, same⟩
    rw [same]
    exact fun here => here
  · apply (shrinks_removeChild world id).trans
    apply ObjectDB.shrinks_modify
    exact fun _ _ child => absurd child detached

theorem apart_step {uuidGenerator : ℕ → {uuid : Uuid // uuid ≠ Uuid.nil}}
    (identified : world.Identified) (scenes : world.StoresScenes MakesOwn)
    (steady : world.Steady uuidGenerator) (absent : uuid ∉ world.manager.registry) {event : Event}
    {next : World} (keeps : KeepsAway uuid world event) (stepped : world.step event = some next) :
    Apart uuid world next := by
  cases happens_of_step stepped with
  | create newUuid parentUuid aabb =>
      refine Apart.of_same rfl ?_
      exact ObjectDB.shrinks_create _ (by simp)
  | enter id node found =>
      have freed : Apart uuid world (world.setMount id .orphan) := by
        refine Apart.of_same rfl ?_
        apply ObjectDB.shrinks_modify
        simp
      apply freed.trans
      apply apart_addChild (show (world.setMount id .orphan).listening = true from
        steady.listening)
      intro entering here
      simp only [setMount, ObjectDB.getInstance_modify, if_true, found, Option.map_some,
        Option.some.injEq] at here
      rw [← here]
      exact keeps node found
  | exit id => exact apart_exitChild (by simp) stepped
  | reparent id => exact apart_exitChild (by simp) stepped
  | queueFree id =>
      refine Apart.of_same rfl ?_
      apply ObjectDB.shrinks_modify
      exact fun _ _ child => ⟨child, rfl⟩
  | deleteQueued id =>
      apply Apart.of_shrinks
      · rcases exists_removeChild world id with ⟨_, _, _, _, _, same⟩
        rw [same]
        exact fun here => here
      · exact (shrinks_removeChild world id).trans (ObjectDB.shrinks_free _ id)
  | addObject id node found =>
      refine Apart.of_shrinks ?_ (ObjectDB.Shrinks.refl _)
      by_cases isNil : node.uuid = Uuid.nil
      · simp only [StreamManager.addObject, isNil, if_true]
        exact fun here => here
      · rcases StreamManager.exists_addObject world.manager id node isNil with ⟨_, registers⟩
        rw [registers]
        intro here
        exact (Table.mem_insert.mp here).resolve_left (keeps node found).symm
  | removeObject removed =>
      refine Apart.of_shrinks ?_ (ObjectDB.Shrinks.refl _)
      simp only [StreamManager.removeObject]
      split
      · exact fun here => here
      · exact fun here => here
  | updateObject id parentUuid node found =>
      apply Apart.of_shrinks
      · rcases StreamManager.updateObject_cases world.manager id { node with parentUuid } with
          ⟨_, same⟩ | ⟨registered, registry, _, same, entries⟩
        · rw [same]
          exact fun here => here
        · rw [same, Table.mem_iff_get?, Table.mem_iff_get?, entries]
          split
          case isTrue own => exact absurd (own ▸ registered) absent
          case isFalse => exact fun here => here
      · exact ObjectDB.shrinks_withNode found rfl rfl
  | aabbChanged id aabb node found =>
      apply Apart.of_shrinks
      · rcases StreamManager.exists_onObjectAabbChanged world.manager { node with aabb } with
          ⟨_, same⟩
        simp only [same]
        split
        · exact fun here => here
        · exact fun here => here
      · exact ObjectDB.shrinks_withNode found rfl rfl
  | boxChanged id aabb node found =>
      exact Apart.of_shrinks (fun here => here) (ObjectDB.shrinks_withNode found rfl rfl)
  | process loader =>
      have removed := apart_runRemovals uuid world
      exact removed.trans (apart_afterRemovals identified scenes steady.listening
        (fun here => absent (removed.registered here)) loader)
  | flushCallbacks =>
      apply Apart.of_shrinks
      · intro here
        exact absurd ((mem_registry_flushCallbacks identified absent).mp here) keeps
      · exact (detaching_flushCallbacks identified steady.listening).shrinks
  | loadProbe | unloadProbe | workerStep | asyncSave =>
      exact Apart.of_same rfl (ObjectDB.Shrinks.refl _)

theorem count_queued_step (absent : uuid ∉ world.manager.registry) {event : Event} {next : World}
    (keeps : KeepsAway uuid world event) (stepped : world.step event = some next) :
    next.queued.count uuid ≤ world.queued.count uuid := by
  by_cases delivers : event = .flushCallbacks
  · subst delivers
    rw [← Option.some.inj stepped]
    rcases exists_flushCallbacks world with ⟨dbWorker, flushed⟩
    have unregistered : uuid ∉ ({ world with dbWorker } : World).manager.registry := absent
    rw [flushed]
    exact count_queued_deliveries unregistered keeps
  · exact (subperm_step stepped delivers).count_le uuid

/-- The object is not registered, waits no more often than before, and no other node is attached
with its uuid. -/
structure StaysAway (uuid : Uuid) (before after : World) : Prop where
  unregistered : uuid ∉ after.manager.registry
  queued : after.queued.count uuid ≤ before.queued.count uuid
  attached : ∀ id node, after.objectDb.getInstance id = some node → node.mount = .manager →
    node.uuid = uuid → ∃ old, before.objectDb.getInstance id = some old ∧
      old.mount = .manager ∧ old.uuid = uuid

theorem staysAway_step {uuidGenerator : ℕ → {uuid : Uuid // uuid ≠ Uuid.nil}}
    (identified : world.Identified) (scenes : world.StoresScenes MakesOwn)
    (steady : world.Steady uuidGenerator) (absent : uuid ∉ world.manager.registry) {event : Event}
    {next : World} (keeps : KeepsAway uuid world event) (stepped : world.step event = some next) :
    StaysAway uuid world next := by
  have apart := apart_step identified scenes steady absent keeps stepped
  exact ⟨fun here => absent (apart.registered here), count_queued_step absent keeps stepped,
    apart.attached⟩

/-- The next frame removes the object: it is recorded, or it is registered below one that is. -/
def RemovesNext (world : World) (uuid : Uuid) : Prop :=
  uuid ∈ world.manager.objectRemoval ∨ uuid ∈ world.runRemovals.manager.toRemove

theorem RemovesNext.unregistered (removes : world.RemovesNext uuid)
    (nothingRemoved : world.manager.toRemove = ∅) :
    uuid ∉ world.runRemovals.manager.registry := by
  rcases removes with recorded | marked
  · exact not_mem_registry_foldl_removeObject recorded world
  · let onlyOne (other : World) : Prop :=
      uuid ∈ other.manager.toRemove → uuid ∉ other.manager.registry
    have start : onlyOne world := by
      intro here
      rw [nothingRemoved] at here
      exact absurd here (Table.not_mem_empty uuid)
    have removed : onlyOne world.runRemovals := by
      apply runRemovals_rule start
      · intro other root otherOnly _ here registered
        have deletes := deletes_removeObject other root
        rw [deletes.mem_registry] at registered
        rcases (deletes.removals uuid).mp here with ⟨collected, _⟩ | before
        · exact registered.1 collected
        · exact otherOnly before registered.2
      · exact fun _ otherOnly => otherOnly
    exact removed marked

/-- From the frame on that removes an object, it stays away in every run in which no node with its
uuid enters or is added and no delivered result holds it, nor does the first one of a round make an
unload visit it. -/
theorem removed_staysAway {db : StreamSqliteDB} {files : Table ScenePath PackedScene}
    {sceneCap nodeCap : ℕ} {uuidGenerator : ℕ → {uuid : Uuid // uuid ≠ Uuid.nil}}
    (ownScenes : ∀ path scene, files.get? path = some scene → MakesOwn path.uuid scene)
    {before middle final : World} {loader : Loader}
    (began : Reaches step (fun _ _ => True) (make db files sceneCap nodeCap uuidGenerator) before)
    (removes : before.RemovesNext uuid)
    (earlier : Reaches step (KeepsAway uuid) (before.process loader) middle)
    (later : Reaches step (KeepsAway uuid) middle final) :
    StaysAway uuid before (before.process loader) ∧ StaysAway uuid middle final := by
  let sound (state : World) : Prop :=
    state.Identified ∧ state.StoresScenes MakesOwn ∧ state.Steady uuidGenerator
  have soundStep (state : World) (event : Event) (next : World) (holds : sound state)
      (stepped : state.step event = some next) : sound next :=
    ⟨holds.1.step stepped, holds.2.1.step makesOwn_packed stepped, holds.2.2.step stepped⟩
  have start : sound before := by
    apply began.invariant
    · exact ⟨identified_make db files sceneCap nodeCap uuidGenerator, storesScenes_make ownScenes,
        steady_make db files sceneCap nodeCap uuidGenerator⟩
    · exact fun state event next holds _ stepped => soundStep state event next holds stepped
  have processed : before.step (.process loader) = some (before.process loader) := rfl
  have gone := removes.unregistered start.2.2.toRemove
  have afterRemovals := apart_afterRemovals start.1 start.2.1 start.2.2.listening gone loader
  have frame : StaysAway uuid before (before.process loader) :=
    ⟨fun here => gone (afterRemovals.registered here),
      (subperm_process before loader).count_le uuid,
      ((apart_runRemovals uuid before).trans afterRemovals).attached⟩
  have between : sound middle ∧ uuid ∉ middle.manager.registry := by
    apply earlier.invariant
    · exact ⟨soundStep _ _ _ start processed, frame.unregistered⟩
    · rintro state event next ⟨holds, absent⟩ keeps stepped
      exact ⟨soundStep state event next holds stepped,
        (staysAway_step holds.1 holds.2.1 holds.2.2 absent keeps stepped).unregistered⟩
  refine ⟨frame, ?_⟩
  have run : sound final ∧ StaysAway uuid middle final := by
    apply later.invariant
    · exact ⟨between.1, between.2, Nat.le_refl _, fun _ node found child carries =>
        ⟨node, found, child, carries⟩⟩
    · rintro state event next ⟨holds, stays⟩ keeps stepped
      have one := staysAway_step holds.1 holds.2.1 holds.2.2 stays.unregistered keeps stepped
      refine ⟨soundStep state event next holds stepped, one.unregistered,
        one.queued.trans stays.queued, ?_⟩
      intro id node found child carries
      rcases one.attached id node found child carries with ⟨old, oldFound, oldChild, same⟩
      exact stays.attached id old oldFound oldChild same
  exact run.2

/-- An object that leaves after the results with it have been delivered. -/
def leftInTime : World :=
  runAll step (untilDelivered ++ [.exit 1]) (enteredBeside unitBox)

/-- Its row is deleted before the next query runs. -/
def queriedAfter : List Event :=
  .workerStep :: List.replicate 4 (.process eagerLoader) ++ [.workerStep, .flushCallbacks]

theorem removed_staysAway_leftInTime :
    let start := leftInTime.process eagerLoader
    StaysAway 101 leftInTime start ∧ StaysAway 101 start (runAll step queriedAfter start) := by
  intro start
  have ownScenes : ∀ path scene, (∅ : Table ScenePath PackedScene).get? path = some scene →
      MakesOwn path.uuid scene := by simp
  have entered : Reaches step (fun _ _ => True) (make .create ∅ 2 2 counting)
      (enteredBeside unitBox) :=
    reaches_runAll (by decide +kernel) (by decide +kernel)
  have left : Reaches step (fun _ _ => True) (enteredBeside unitBox) leftInTime :=
    reaches_runAll (by decide +kernel) (by decide +kernel)
  have later : Reaches step (KeepsAway 101) start (runAll step queriedAfter start) :=
    reaches_runAll (by decide +kernel) (by decide +kernel)
  exact removed_staysAway ownScenes (entered.trans left) (Or.inl (by decide +kernel))
    Reaches.refl later

/-- An object that leaves while a query is still waiting. -/
def leftTooEarly : World :=
  runAll step [.exit 1] (enteredBeside unitBox)

/-- Two nodes of one object are added below different parents, and the object is removed. -/
def addedTwice : World :=
  runAll step [.loadProbe 50 unitBox, .create 7 Uuid.nil unitBox, .create 5 7 unitBox,
    .create 5 8 unitBox, .enter 1, .addObject 2, .addObject 3, .removeObject 5] blank

def untilVisited : List Event :=
  List.replicate 3 (.process eagerLoader) ++
    [.workerStep, .workerStep, .workerStep, .flushCallbacks]

/-- Frames, steps of the database thread and deliveries. -/
def OnlyServes (_ : World) : Event → Prop
  | .process _ | .workerStep | .flushCallbacks => True
  | _ => False

instance decidableOnlyServes (world : World) : ∀ event, Decidable (OnlyServes world event)
  | .process _ | .workerStep | .flushCallbacks => isTrue trivial
  | .create .. | .enter _ | .exit _ | .reparent _ | .queueFree _ | .deleteQueued _ | .addObject _
  | .removeObject _ | .updateObject .. | .aabbChanged .. | .boxChanged .. | .loadProbe ..
  | .unloadProbe _ | .asyncSave _ => isFalse id

/-- A late result registers and queues the one object again, and the unload of its former parent
does so with the other. -/
theorem removed_comesBack :
    let early := leftTooEarly.process eagerLoader
    let twice := addedTwice.process eagerLoader
    Reaches step (fun _ _ => True) (make .create ∅ 2 2 counting) leftTooEarly ∧
    Reaches step (fun _ _ => True) (make .create ∅ 2 2 counting) addedTwice ∧
    leftTooEarly.RemovesNext 101 ∧ 101 ∉ early.manager.registry ∧
    addedTwice.RemovesNext 5 ∧ 5 ∉ twice.manager.registry ∧
    Reaches step OnlyServes early (runAll step untilDelivered early) ∧
    Reaches step OnlyServes twice (runAll step untilVisited twice) ∧
    101 ∈ (runAll step untilDelivered early).manager.registry ∧
    (runAll step untilDelivered early).manager.loadQueue = [101] ∧
    5 ∈ (runAll step untilVisited twice).manager.registry ∧
    (runAll step untilVisited twice).manager.loadQueue = [5] := by
  intro early twice
  have entered : Reaches step (fun _ _ => True) (make .create ∅ 2 2 counting)
      (enteredBeside unitBox) :=
    reaches_runAll (by decide +kernel) (by decide +kernel)
  refine ⟨entered.trans (reaches_runAll (by decide +kernel) (by decide +kernel)),
    reaches_runAll (by decide +kernel) (by decide +kernel), Or.inl (by decide +kernel),
    by decide +kernel, Or.inl (by decide +kernel), by decide +kernel,
    reaches_runAll (by decide +kernel) (by decide +kernel),
    reaches_runAll (by decide +kernel) (by decide +kernel), ?_⟩
  decide +kernel

end Runs

end World

end GodotStream
