import GodotStream.Handlers
import GodotStream.Unloading

/-!
# Failing queries

A statement that cannot be made, or that fails at a step, ends the row loop of
`query_objects` like the end of the rows does, so the manager receives a map that is
empty or cut short and handles it as a complete answer.
-/

namespace GodotStream

open Storage Run

/-- How a query may fail. -/
inductive QueryFailure where
  | notOpened
  | notPrepared
  /-- A step fails after other steps have returned these rows. -/
  | stepFailed (read : List (Uuid × ObjectRow))

namespace QueryFailure

/-- The rows that the loop has seen. -/
def readRows : QueryFailure → List (Uuid × ObjectRow)
  | .notOpened => []
  | .notPrepared => []
  | .stepFailed read => read

/-- The map that `query_objects` returns. -/
def result (failure : QueryFailure) : Table Uuid ObjectData :=
  failure.readRows.foldl (fun result entry =>
    result.insert entry.1 { parentUuid := readNullableUuid entry.2.parentUuid }) ∅

/-- The rows that a query on `db` answers with. -/
def answerRows (db : StreamSqliteDB) (aabbs : List AABB) : List (Uuid × ObjectRow) :=
  db.objects.rows.entries.filter fun entry =>
    (db.tileOf entry.2).any fun tile =>
      aabbs.any fun aabb => StreamSqliteDB.overlapsBound tile (bindAabb aabb)

/-- Failing only after the last row is the same as not failing. -/
theorem result_answerRows (db : StreamSqliteDB) {aabbs : List AABB} (nonempty : aabbs ≠ []) :
    (stepFailed (answerRows db aabbs)).result = db.queryObjectsAny aabbs := by
  simp only [StreamSqliteDB.queryObjectsAny, List.isEmpty_iff, nonempty, if_false]
  rfl

end QueryFailure

namespace World

variable {world : World}

/-- The registry, the nodes and the pending sets are the same. -/
structure Undisturbed (before after : World) : Prop where
  registry : ∀ uuid, after.manager.registry.get? uuid = before.manager.registry.get? uuid
  nodes : ∀ id, after.objectDb.getInstance id = before.objectDb.getInstance id
  objectRemoval : after.manager.objectRemoval = before.manager.objectRemoval
  pendingRemoval : after.manager.pendingRemoval = before.manager.pendingRemoval
  toUpsertUuids : after.manager.toUpsertUuids = before.manager.toUpsertUuids
  toRemove : after.manager.toRemove = before.manager.toRemove
  dirtyAabb : after.manager.dirtyAabb = before.manager.dirtyAabb

/-- The registry knows no node of the object. -/
def Rootless (uuid : Uuid) (world : World) : Prop :=
  ∀ data, world.manager.registry.get? uuid = some data → data.nodeRoot = 0

/-- Unloading never gives an object a node. -/
theorem Rootless.unloadCollected {uuid : Uuid} (rootless : Rootless uuid world) (objId : Uuid) :
    Rootless uuid (world.unloadCollected objId) := by
  rcases exists_unloadCollected world objId with
    ⟨objectDb, saveTasks, captures, registry, cache, objectRemoval, dirtyAabb, same, entries⟩
  rw [same]
  intro data found
  rcases entries uuid with still | detached
  · exact rootless data (still.symm.trans found)
  · rw [show registry.get? uuid = some data from found, Option.some.injEq] at detached
    rw [detached]

theorem Rootless.unloadStale {uuid : Uuid} (rootless : Rootless uuid world) (other : Uuid) :
    Rootless uuid (world.unloadStale other) := by
  have unloaded : Rootless uuid (world.unloadObject other) :=
    unloadObject_rule rootless (fun _ _ holds => holds)
      (fun _ objId holds _ _ => holds.unloadCollected objId)
  intro data found
  simp only [World.unloadStale, StreamManager.eraseRegistryEntry, Table.get?_erase] at found
  split at found
  · simp at found
  · exact unloaded data found

/-- Every object that is unloaded has lost its node in the end. -/
theorem rootless_foldl_unloadStale {stale : List Uuid} {uuid : Uuid}
    (listed : uuid ∈ stale ∨ Rootless uuid world) :
    Rootless uuid (stale.foldl World.unloadStale world) := by
  induction stale generalizing world with
  | nil => exact listed.resolve_left (List.not_mem_nil)
  | cons other rest ih =>
      apply ih
      rcases listed with listed | rootless
      · rcases List.mem_cons.mp listed with rfl | later
        · right
          intro data found
          simp [World.unloadStale, StreamManager.eraseRegistryEntry] at found
        · exact Or.inl later
      · exact Or.inr (rootless.unloadStale other)

/-- A result disturbs nothing exactly when it lists every object with a node and only registered
objects with the parents they have. -/
theorem undisturbed_onQueryResult_iff (world : World) (dbObjects : Table Uuid ObjectData) :
    Undisturbed world (world.onQueryResult dbObjects) ↔
      (∀ uuid data, world.manager.registry.get? uuid = some data → data.nodeRoot ≠ 0 →
        uuid ∈ dbObjects) ∧
      ∀ uuid row, dbObjects.get? uuid = some row →
        ∃ data, world.manager.registry.get? uuid = some data ∧
          data.parentUuid = row.parentUuid := by
  constructor
  · intro same
    have complete : ∀ uuid data, world.manager.registry.get? uuid = some data →
        data.nodeRoot ≠ 0 → uuid ∈ dbObjects := by
      intro uuid data found rooted
      by_contra missing
      have stale := StreamManager.mem_toUnload.mpr ⟨data, found, missing, rooted⟩
      have rootless : Rootless uuid
          ((world.manager.toUnload dbObjects).foldl World.unloadStale world) :=
        rootless_foldl_unloadStale (Or.inl stale)
      apply rooted
      apply rootless data
      have kept := same.registry uuid
      simp only [onQueryResult, StreamManager.get?_applyObjects,
        Table.get?_eq_none.mpr missing] at kept
      rw [kept, found]
    refine ⟨complete, ?_⟩
    have nothingStale : world.manager.toUnload dbObjects = [] := by
      apply List.eq_nil_iff_forall_not_mem.mpr
      intro uuid stale
      rcases StreamManager.mem_toUnload.mp stale with ⟨data, found, missing, rooted⟩
      exact missing (complete uuid data found rooted)
    intro uuid row listed
    have kept := same.registry uuid
    simp only [onQueryResult, nothingStale, List.foldl_nil, StreamManager.get?_applyObjects,
      listed] at kept
    cases found : world.manager.registry.get? uuid with
    | none => simp [found] at kept
    | some data =>
        simp only [found, Option.some.injEq] at kept
        exact ⟨data, rfl, by rw [← kept]⟩
  · rintro ⟨complete, agreeing⟩
    have nothingStale : world.manager.toUnload dbObjects = [] := by
      apply List.eq_nil_iff_forall_not_mem.mpr
      intro uuid stale
      rcases StreamManager.mem_toUnload.mp stale with ⟨data, found, missing, rooted⟩
      exact missing (complete uuid data found rooted)
    rcases StreamManager.exists_applyObjects world.manager dbObjects with
      ⟨childrenMap, loadQueue, applied⟩
    have merged : world.onQueryResult dbObjects =
        { world with manager := world.manager.applyObjects dbObjects } := by
      simp only [onQueryResult, nothingStale, List.foldl_nil]
    rw [merged]
    refine ⟨?_, fun _ => rfl, ?_, ?_, ?_, ?_, ?_⟩
    · intro uuid
      rw [StreamManager.get?_applyObjects]
      cases listed : dbObjects.get? uuid with
      | none => rfl
      | some row =>
          rcases agreeing uuid row listed with ⟨data, found, parentEq⟩
          simp only [found, ← parentEq]
    all_goals rw [applied]

/-- The outcome of a failed query disturbs nothing exactly when the rows read before the failure
name every object with a node, and only registered objects with the parents they have. -/
theorem failedQuery_undisturbed_iff (world : World) (failure : QueryFailure) :
    Undisturbed world (world.runCallback (.onQueryResult failure.result)) ↔
      (∀ uuid data, world.manager.registry.get? uuid = some data → data.nodeRoot ≠ 0 →
        uuid ∈ failure.result) ∧
      ∀ uuid row, failure.result.get? uuid = some row →
        ∃ data, world.manager.registry.get? uuid = some data ∧
          data.parentUuid = row.parentUuid :=
  undisturbed_onQueryResult_iff world failure.result

/-- An object enters, and its row is written. -/
def storedObject : World :=
  runAll step [.create Uuid.nil Uuid.nil unitBox, .enter 1, .process eagerLoader, .workerStep,
    .workerStep] blank

/-- The database is busy when the first row is asked for: the object is unloaded. -/
theorem failedQuery_unloads :
    Reaches step (fun _ _ => True) blank storedObject ∧
    (storedObject.objectDb.getInstance 1).any (·.mount = .manager) = true ∧
    101 ∈ storedObject.manager.registry ∧
    (∀ worker ∈ storedObject.dbWorker, 101 ∈ worker.db.objects.rows) ∧
    let after := storedObject.runCallback (.onQueryResult (QueryFailure.stepFailed []).result)
    101 ∉ after.manager.registry ∧
    (after.objectDb.getInstance 1).any (·.mount = .manager) = false ∧
    ¬ Undisturbed storedObject after := by
  refine ⟨reaches_runAll (by simp [Allowed]) (by decide +kernel), by decide +kernel,
    by decide +kernel, by decide +kernel, by decide +kernel, by decide +kernel, ?_⟩
  intro same
  have kept := same.registry 101
  revert kept
  decide +kernel

end World

end GodotStream
