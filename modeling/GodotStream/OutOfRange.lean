import GodotStream.Binding
import GodotStream.QueryFailure

/-!
# What a result leaves out of range

A delivery unloads and erases the registered objects with a node that are not in the
result, one after the other. Each unload visits everything that the children index lists
below the object, and `operator[]` makes an entry for what is not registered, also for an
object that an earlier round has erased.
-/

namespace GodotStream

open Storage Run

namespace World

variable {world : World}

/-- The delivery queues nothing that is out of range, and leaves no entry without a node there. -/
structure StaysInRange (before after : World) (dbObjects : Table Uuid ObjectData) : Prop where
  pushed : ∃ uuids, after.manager.loadQueue = before.manager.loadQueue ++ uuids ∧
    ∀ uuid ∈ uuids, uuid ∈ dbObjects
  rooted : ∀ uuid data, uuid ∉ dbObjects → after.manager.registry.get? uuid = some data →
    data.nodeRoot ≠ 0

section Unloading

/-- An unload registers what it visits. -/
theorem mem_registry_unloadCollected (world : World) (objId uuid : Uuid) :
    uuid ∈ (world.unloadCollected objId).manager.registry ↔
      uuid = objId ∨ uuid ∈ world.manager.registry := by
  have touched : uuid ∈ (world.touchEntry objId).manager.registry ↔
      uuid = objId ∨ uuid ∈ world.manager.registry := by
    simp only [touchEntry, Table.mem_iff_get?, Table.get?_touch]
    by_cases same : uuid = objId
    · simp [same]
    · simp [same]
  simp only [unloadCollected]
  split
  · exact touched
  · rcases exists_removeChild (world.touchEntry objId)
      ((world.touchEntry objId).manager.nodeRootOf objId) with ⟨_, _, _, _, _, same⟩
    rw [same]
    simp only [release, StreamManager.setNodeRoot, Table.mem_modify, touched]
    tauto

theorem childrenMap_unloadCollected (world : World) (objId : Uuid) :
    (world.unloadCollected objId).manager.childrenMap = world.manager.childrenMap := by
  rcases exists_unloadCollected world objId with ⟨_, _, _, _, _, _, _, same, _⟩
  rw [same]

theorem loadQueue_unloadCollected (world : World) (objId : Uuid) :
    (world.unloadCollected objId).manager.loadQueue = world.manager.loadQueue := by
  rcases exists_unloadCollected world objId with ⟨_, _, _, _, _, _, _, same, _⟩
  rw [same]

theorem mem_registry_foldl_unloadCollected (ids : List Uuid) (world : World) (uuid : Uuid) :
    uuid ∈ (ids.foldl unloadCollected world).manager.registry ↔
      uuid ∈ ids ∨ uuid ∈ world.manager.registry := by
  induction ids generalizing world with
  | nil => simp
  | cons id rest ih =>
      rw [List.foldl_cons, ih, mem_registry_unloadCollected, List.mem_cons]
      tauto

/-- An unload of a registered object registers everything that is listed below it. -/
theorem mem_registry_unloadObject {stale : Uuid} (registered : stale ∈ world.manager.registry)
    (uuid : Uuid) : uuid ∈ (world.unloadObject stale).manager.registry ↔
      stale ≠ Uuid.nil ∧ uuid ∈ world.manager.collectDescendants stale ∨
        uuid ∈ world.manager.registry := by
  simp only [unloadObject]
  split
  case isTrue refused =>
    have isNil : stale = Uuid.nil := by
      rcases refused with isNil | unregistered
      · exact isNil
      · exact absurd registered unregistered
    simp [isNil]
  case isFalse unloads =>
    rw [not_or] at unloads
    rw [mem_registry_foldl_unloadCollected]
    simp [unloads.1]

theorem frame_unloadStale (world : World) (stale : Uuid) :
    (world.unloadStale stale).manager.childrenMap = world.manager.childrenMap ∧
      (world.unloadStale stale).manager.loadQueue = world.manager.loadQueue := by
  let same (other : World) : Prop :=
    other.manager.childrenMap = world.manager.childrenMap ∧
      other.manager.loadQueue = world.manager.loadQueue
  have unloaded : same (world.unloadObject stale) := by
    apply unloadObject_rule (show same world from ⟨rfl, rfl⟩)
    · exact fun _ _ frame => frame
    · intro other objId frame _ _
      exact ⟨(childrenMap_unloadCollected other objId).trans frame.1,
        (loadQueue_unloadCollected other objId).trans frame.2⟩
  exact unloaded

theorem mem_registry_unloadStale_iff {stale : Uuid} (registered : stale ∈ world.manager.registry)
    (uuid : Uuid) : uuid ∈ (world.unloadStale stale).manager.registry ↔
      uuid ≠ stale ∧ (stale ≠ Uuid.nil ∧ uuid ∈ world.manager.collectDescendants stale ∨
        uuid ∈ world.manager.registry) := by
  simp only [unloadStale, StreamManager.eraseRegistryEntry, Table.mem_erase]
  rw [mem_registry_unloadObject registered]

/-- Some unload visits the object, and it is not erased from then on. -/
def VisitedLast (world : World) (staleObjects : List Uuid) (uuid : Uuid) : Prop :=
  ∃ before stale later, staleObjects = before ++ stale :: later ∧ stale ≠ Uuid.nil ∧
    uuid ∈ world.manager.collectDescendants stale ∧ uuid ≠ stale ∧ uuid ∉ later

theorem visitedLast_cons {stale : Uuid} {rest : List Uuid} {uuid : Uuid} :
    world.VisitedLast (stale :: rest) uuid ↔
      stale ≠ Uuid.nil ∧ uuid ∈ world.manager.collectDescendants stale ∧ uuid ≠ stale ∧
          uuid ∉ rest ∨
        world.VisitedLast rest uuid := by
  constructor
  · rintro ⟨before, visited, later, split, nonNil, collected, other, spared⟩
    cases before with
    | nil =>
        rw [List.nil_append, List.cons.injEq] at split
        rw [split.1, split.2]
        exact Or.inl ⟨nonNil, collected, other, spared⟩
    | cons first before =>
        rw [List.cons_append, List.cons.injEq] at split
        exact Or.inr ⟨before, visited, later, split.2, nonNil, collected, other, spared⟩
  · rintro (⟨nonNil, collected, other, spared⟩ | visited)
    · exact ⟨[], stale, rest, rfl, nonNil, collected, other, spared⟩
    · rcases visited with ⟨before, visited, later, split, visitedLast⟩
      exact ⟨stale :: before, visited, later, by rw [split, List.cons_append], visitedLast⟩

theorem VisitedLast.congr {other : World} {staleObjects : List Uuid} {uuid : Uuid}
    (same : other.manager.childrenMap = world.manager.childrenMap) :
    other.VisitedLast staleObjects uuid ↔ world.VisitedLast staleObjects uuid := by
  simp only [VisitedLast, StreamManager.collectDescendants_congr same]

/-- What is registered after the unloads: what was neither stale nor visited before its end. -/
theorem mem_registry_foldl_unloadStale {staleObjects : List Uuid} (distinct : staleObjects.Nodup)
    (registered : ∀ stale ∈ staleObjects, stale ∈ world.manager.registry) (uuid : Uuid) :
    uuid ∈ (staleObjects.foldl unloadStale world).manager.registry ↔
      uuid ∈ world.manager.registry ∧ uuid ∉ staleObjects ∨
        world.VisitedLast staleObjects uuid := by
  induction staleObjects generalizing world with
  | nil => simp [VisitedLast]
  | cons stale rest ih =>
      rcases List.nodup_cons.mp distinct with ⟨once, distinctRest⟩
      have here := mem_registry_unloadStale_iff (registered stale List.mem_cons_self)
      have stillRegistered : ∀ later ∈ rest,
          later ∈ (world.unloadStale stale).manager.registry := by
        intro later listed
        have other : later ≠ stale := fun same => once (same ▸ listed)
        exact (here later).mpr ⟨other, Or.inr (registered later (List.mem_cons_of_mem _ listed))⟩
      rw [List.foldl_cons, ih distinctRest stillRegistered, here uuid,
        VisitedLast.congr (frame_unloadStale world stale).1, visitedLast_cons, List.mem_cons]
      tauto

end Unloading

section Delivery

theorem toUnload_nodup (manager : StreamManager) (dbObjects : Table Uuid ObjectData) :
    (manager.toUnload dbObjects).Nodup :=
  manager.registry.distinct.sublist (List.filter_sublist.map Prod.fst)

/-- What is registered out of range after a delivery. -/
theorem mem_registry_onQueryResult {dbObjects : Table Uuid ObjectData} {uuid : Uuid}
    (outside : uuid ∉ dbObjects) :
    uuid ∈ (world.onQueryResult dbObjects).manager.registry ↔
      uuid ∈ world.manager.registry ∧ uuid ∉ world.manager.toUnload dbObjects ∨
        world.VisitedLast (world.manager.toUnload dbObjects) uuid := by
  have registered : ∀ stale ∈ world.manager.toUnload dbObjects,
      stale ∈ world.manager.registry := by
    intro stale listed
    rcases StreamManager.mem_toUnload.mp listed with ⟨data, found, _⟩
    exact Table.mem_of_get? found
  rw [← mem_registry_foldl_unloadStale (toUnload_nodup world.manager dbObjects) registered]
  simp only [Table.mem_iff_get?, onQueryResult, StreamManager.get?_applyObjects,
    Table.get?_eq_none.mpr outside]

/-- What a delivery leaves out of range has no node. -/
theorem rootless_onQueryResult {dbObjects : Table Uuid ObjectData} {uuid : Uuid}
    (outside : uuid ∉ dbObjects) : Rootless uuid (world.onQueryResult dbObjects) := by
  have unloaded : Rootless uuid
      ((world.manager.toUnload dbObjects).foldl unloadStale world) := by
    apply rootless_foldl_unloadStale
    by_cases stale : uuid ∈ world.manager.toUnload dbObjects
    · exact Or.inl stale
    · right
      intro data found
      by_contra rooted
      exact stale (StreamManager.mem_toUnload.mpr ⟨data, found, outside, rooted⟩)
  intro data found
  simp only [onQueryResult, StreamManager.get?_applyObjects,
    Table.get?_eq_none.mpr outside] at found
  exact unloaded data found

/-- The delivery stays in range if and only if nothing is registered outside in the end. -/
theorem staysInRange_iff_registered (world : World) (dbObjects : Table Uuid ObjectData) :
    StaysInRange world (world.onQueryResult dbObjects) dbObjects ↔
      ∀ uuid ∉ dbObjects, uuid ∉ (world.onQueryResult dbObjects).manager.registry := by
  constructor
  · intro stays uuid outside registered
    rcases Table.mem_iff_get?.mp registered with ⟨data, found⟩
    exact stays.rooted uuid data outside found (rootless_onQueryResult outside data found)
  · intro unregistered
    have rooted : ∀ uuid data, uuid ∉ dbObjects →
        (world.onQueryResult dbObjects).manager.registry.get? uuid = some data →
        data.nodeRoot ≠ 0 := by
      intro uuid data outside found
      exact absurd (Table.mem_of_get? found) (unregistered uuid outside)
    refine ⟨?_, rooted⟩
    let unloaded := (world.manager.toUnload dbObjects).foldl unloadStale world
    have queue : unloaded.manager.loadQueue = world.manager.loadQueue := by
      apply List.foldlRecOn (motive := fun other : World =>
        other.manager.loadQueue = world.manager.loadQueue) _ _ rfl
      intro other same stale _
      exact (frame_unloadStale other stale).2.trans same
    rcases StreamManager.exists_loadQueue_applyObjects unloaded.manager dbObjects with
      ⟨roots, queued, _, isRoot⟩
    refine ⟨roots, queued.trans (by rw [queue]), ?_⟩
    intro uuid listed
    by_contra outside
    rcases (isRoot uuid).mp listed with ⟨data, found, _, rootless⟩
    exact rooted uuid data outside found rootless

/-- A delivery stays in range if and only if every object out of range has a node, and each unload
visits only objects that are in the result or are erased in its round or a later one. -/
theorem staysInRange_iff (world : World) (dbObjects : Table Uuid ObjectData) :
    StaysInRange world (world.onQueryResult dbObjects) dbObjects ↔
      (∀ uuid data, uuid ∉ dbObjects → world.manager.registry.get? uuid = some data →
        data.nodeRoot ≠ 0) ∧
      ∀ before stale later, world.manager.toUnload dbObjects = before ++ stale :: later →
        stale ≠ Uuid.nil → ∀ uuid ∈ world.manager.collectDescendants stale,
          uuid ∉ dbObjects → uuid = stale ∨ uuid ∈ later := by
  rw [staysInRange_iff_registered]
  constructor
  · intro unregistered
    constructor
    · intro uuid data outside found
      have stale : uuid ∈ world.manager.toUnload dbObjects := by
        by_contra spared
        exact unregistered uuid outside ((mem_registry_onQueryResult outside).mpr
          (Or.inl ⟨Table.mem_of_get? found, spared⟩))
      rcases StreamManager.mem_toUnload.mp stale with ⟨same, here, _, rooted⟩
      rw [found, Option.some.injEq] at here
      rw [here]
      exact rooted
    · intro before stale later split nonNil uuid collected outside
      by_contra escapes
      rw [not_or] at escapes
      exact unregistered uuid outside ((mem_registry_onQueryResult outside).mpr
        (Or.inr ⟨before, stale, later, split, nonNil, collected, escapes.1, escapes.2⟩))
  · rintro ⟨rooted, visits⟩ uuid outside registered
    rcases (mem_registry_onQueryResult outside).mp registered with
      ⟨here, spared⟩ | ⟨before, stale, later, split, nonNil, collected, other, escapes⟩
    · rcases Table.mem_iff_get?.mp here with ⟨data, found⟩
      exact spared (StreamManager.mem_toUnload.mpr
        ⟨data, found, outside, rooted uuid data outside found⟩)
    · exact (visits before stale later split nonNil uuid collected outside).elim other escapes

/-- An object that is still being loaded when it goes out of range. -/
def stillLoading : World :=
  runAll act [.result rootRow, .load eagerLoader 1] blank

/-- A child that enters before its parent. -/
def childFirst : World :=
  runAll step [.create 2 1 unitBox, .create 1 Uuid.nil unitBox, .enter 1, .enter 2,
    .addObject 1] blank

/-- The first object is queued again; the entry of the child is made anew, as a root, and queued. -/
theorem queued_out_of_range :
    Reaches act (fun _ _ => True) blank stillLoading ∧
      Reaches step (fun _ _ => True) blank childFirst ∧
      ¬ StaysInRange stillLoading (stillLoading.onQueryResult ∅) ∅ ∧
      ¬ StaysInRange childFirst (childFirst.onQueryResult ∅) ∅ ∧
      (stillLoading.onQueryResult ∅).manager.loadQueue = [1, 1] ∧
      (childFirst.onQueryResult ∅).manager.loadQueue = [2] := by
  refine ⟨reaches_runAll (by decide +kernel) (by decide +kernel),
    reaches_runAll (by decide +kernel) (by decide +kernel), ?_, ?_, by decide +kernel,
    by decide +kernel⟩
  · intro stays
    have left : (stillLoading.onQueryResult ∅).manager.registry.get? 1 =
        some { parentUuid := Uuid.nil, nodeRoot := 0 } := by decide +kernel
    exact stays.rooted 1 _ (Table.not_mem_empty 1) left rfl
  · intro stays
    have left : (childFirst.onQueryResult ∅).manager.registry.get? 2 =
        some { parentUuid := Uuid.nil, nodeRoot := 0 } := by decide +kernel
    exact stays.rooted 2 _ (Table.not_mem_empty 2) left rfl

end Delivery

end World

end GodotStream
