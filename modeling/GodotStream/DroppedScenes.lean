import GodotStream.SceneLoads

/-!
# Dropped scenes

`remove_scene` takes a scene out of the cache, but a load of it that is in flight goes on.
A ledger beside the operations holds the uuids whose scene was dropped and neither stored
nor requested since, and the uuids whose load was in flight when their scene was dropped.
The dropped scenes stay away exactly as long as no such load comes back with a scene.
-/

namespace GodotStream

open Storage ObjectSceneCache

namespace ObjectSceneCache

theorem mem_sceneCalls_update {cache : ObjectSceneCache}
    {status : LoadingEntry → ThreadLoadStatus} {uuid : Uuid} {scene : PackedScene} :
    CacheCall.put uuid scene ∈ cache.sceneCalls (.update status) ↔
      ∃ entry ∈ cache.loadingRequests, entry.uuid = uuid ∧ status entry = .loaded (some scene) := by
  rw [sceneCalls, List.mem_filterMap]
  apply exists_congr
  intro entry
  apply and_congr_right
  intro _
  rw [loadedCall]
  split
  case h_1 loaded answered => simp [answered]
  case h_2 other =>
    constructor
    · intro call
      cases call
    · rintro ⟨_, answered⟩
      exact (other scene answered).elim

theorem peek_freeAllNode (cache : ObjectSceneCache) (objectDb : ObjectDB) (uuid : Uuid) :
    (cache.freeAllNode objectDb).1.sceneCache.peek uuid = none := by
  rw [Option.eq_none_iff_forall_ne_some]
  intro scene held
  have cleared : cache.sceneCache.clearWithCallback.1.values = [] :=
    (FixedSizedCache.clearRounds_spec le_rfl).1
  have listed := FixedSizedCache.values_perm_of_peek held
  rw [show (cache.freeAllNode objectDb).1.sceneCache.values = [] from cleared] at listed
  cases List.nil_perm.mp listed

end ObjectSceneCache

/-- A scene cache with the uuids that were dropped and neither stored nor requested since, and those
whose pending request is older than the drop. -/
structure DropLedger where
  cache : ObjectSceneCache
  dropped : Finset Uuid
  stale : Finset Uuid

namespace DropLedger

variable {ledger : DropLedger}

def make (sceneCap nodeCap : ℕ) : DropLedger :=
  { cache := .make sceneCap nodeCap
    dropped := ∅
    stale := ∅ }

/-- One operation; a stale request stays so until it leaves the list. -/
def step (ledger : DropLedger) (operation : ObjectSceneCache.Operation) : DropLedger :=
  let cache := ledger.cache.perform operation
  match operation with
  | .removeScene uuid =>
      { cache
        dropped := insert uuid ledger.dropped
        stale := if uuid ∈ cache.pendingUuids then insert uuid ledger.stale else ledger.stale }
  | .storeScene uuid _ | .requestScene uuid _ _ =>
      { ledger with cache, dropped := ledger.dropped.erase uuid }
  | .update _ =>
      { ledger with cache, stale := ledger.stale.filter fun uuid => uuid ∈ cache.pendingUuids }
  | .getScene _ | .release .. | .acquire .. | .freeAllNode _ => { ledger with cache }

@[simp]
theorem cache_step (ledger : DropLedger) (operation : ObjectSceneCache.Operation) :
    (ledger.step operation).cache = ledger.cache.perform operation := by
  cases operation <;> rfl

/-- The dropped scenes are not found. -/
def Final (ledger : DropLedger) : Prop :=
  ∀ uuid ∈ ledger.dropped, (ledger.cache.getScene uuid).1 = none

theorem final_iff :
    ledger.Final ↔ ∀ uuid ∈ ledger.dropped, ledger.cache.sceneCache.peek uuid = none := by
  simp only [Final, getScene_fst]

/-- An update stores what a stale request has loaded. -/
def PutsBack (ledger : DropLedger) (operation : ObjectSceneCache.Operation) : Prop :=
  ∃ status, operation = .update status ∧ ∃ uuid ∈ ledger.stale, ∃ scene,
    CacheCall.put uuid scene ∈ ledger.cache.sceneCalls operation

/-- No stale request is answered with a scene. -/
def StaleUnloaded (ledger : DropLedger) (operation : ObjectSceneCache.Operation) : Prop :=
  ∀ status, operation = .update status → ∀ entry ∈ ledger.cache.loadingRequests,
    entry.uuid ∈ ledger.stale → ∀ scene, status entry ≠ .loaded (some scene)

/-- The dropped scenes are not found, and their pending requests are stale. -/
structure Sound (ledger : DropLedger) : Prop where
  final : ledger.Final
  stale : ∀ uuid ∈ ledger.dropped, uuid ∈ ledger.cache.pendingUuids → uuid ∈ ledger.stale

theorem Sound.away (sound : ledger.Sound) {uuid : Uuid} (dropped : uuid ∈ ledger.dropped) :
    ledger.cache.sceneCache.peek uuid = none :=
  final_iff.mp sound.final uuid dropped

theorem not_putsBack_iff {operation : ObjectSceneCache.Operation} :
    ¬ ledger.PutsBack operation ↔ ledger.StaleUnloaded operation := by
  constructor
  · rintro kept status rfl entry listed isStale scene answered
    exact kept ⟨status, rfl, entry.uuid, isStale, scene,
      mem_sceneCalls_update.mpr ⟨entry, listed, rfl, answered⟩⟩
  · rintro unloaded ⟨status, rfl, uuid, isStale, scene, called⟩
    rcases mem_sceneCalls_update.mp called with ⟨entry, listed, rfl, answered⟩
    exact unloaded status rfl entry listed isStale scene answered

section Steps

/-- What neither caches nor requests anything keeps the dropped scenes away. -/
theorem Sound.withCache (sound : ledger.Sound) {cache : ObjectSceneCache}
    (uncached : ∀ uuid, ledger.cache.sceneCache.peek uuid = none →
      cache.sceneCache.peek uuid = none)
    (requests : cache.loadingRequests = ledger.cache.loadingRequests) :
    Sound { ledger with cache } := by
  refine ⟨final_iff.mpr ?_, ?_⟩
  · intro uuid dropped
    exact uncached uuid (sound.away dropped)
  · intro uuid dropped pending
    rw [pendingUuids, requests] at pending
    exact sound.stale uuid dropped pending

theorem Sound.removeScene (sound : ledger.Sound) (uuid : Uuid) :
    (ledger.step (.removeScene uuid)).Sound := by
  refine ⟨final_iff.mpr ?_, ?_⟩
  · intro other dropped
    simp only [cache_step, perform, ObjectSceneCache.removeScene, FixedSizedCache.peek_remove,
      ite_eq_left_iff]
    intro others
    rcases Finset.mem_insert.mp dropped with same | before
    · exact absurd same others
    · exact sound.away before
  · intro other dropped pending
    rw [cache_step] at pending
    simp only [step]
    rcases Finset.mem_insert.mp dropped with rfl | before
    · rw [if_pos pending]
      exact Finset.mem_insert_self _ _
    · have isStale := sound.stale other before pending
      split
      · exact Finset.mem_insert_of_mem isStale
      · exact isStale

theorem Sound.storeScene (sound : ledger.Sound) (uuid : Uuid) (scene : PackedScene) :
    (ledger.step (.storeScene uuid scene)).Sound := by
  refine ⟨final_iff.mpr ?_, ?_⟩
  · intro other dropped
    rcases Finset.mem_erase.mp dropped with ⟨others, before⟩
    have away := sound.away before
    rw [Option.eq_none_iff_forall_ne_some]
    intro found held
    rw [FixedSizedCache.peek_put_of_ne others held] at away
    cases away
  · intro other dropped pending
    exact sound.stale other (Finset.mem_of_mem_erase dropped) pending

theorem Sound.requestScene (sound : ledger.Sound) (uuid : Uuid) (path : ScenePath)
    (accepts : Bool) : (ledger.step (.requestScene uuid path accepts)).Sound := by
  refine ⟨final_iff.mpr ?_, ?_⟩
  · intro other dropped
    rw [cache_step, perform, peek_requestScene]
    exact sound.away (Finset.mem_of_mem_erase dropped)
  · intro other dropped pending
    rcases Finset.mem_erase.mp dropped with ⟨others, before⟩
    rcases List.mem_map.mp pending with ⟨entry, listed, rfl⟩
    rcases mem_loadingRequests_of_requestScene listed with earlier | rfl
    · exact sound.stale _ before (List.mem_map_of_mem earlier)
    · exact absurd rfl others

theorem Sound.update (sound : ledger.Sound) {status : LoadingEntry → ThreadLoadStatus}
    (unloaded : ledger.StaleUnloaded (.update status)) :
    (ledger.step (.update status)).Sound := by
  refine ⟨final_iff.mpr ?_, ?_⟩
  · intro uuid dropped
    have away := sound.away dropped
    rw [Option.eq_none_iff_forall_ne_some]
    intro scene held
    rcases peek_of_update held with before | ⟨entry, listed, rfl, answered⟩
    · rw [before] at away
      cases away
    · have isStale := sound.stale _ dropped (List.mem_map_of_mem listed)
      exact unloaded status rfl entry listed isStale scene answered
  · intro uuid dropped pending
    rcases List.mem_map.mp pending with ⟨entry, listed, rfl⟩
    have before := List.mem_map_of_mem (f := LoadingEntry.uuid)
      (mem_loadingRequests_of_update listed)
    exact Finset.mem_filter.mpr ⟨sound.stale _ dropped before, pending⟩

theorem Sound.step (sound : ledger.Sound) {operation : ObjectSceneCache.Operation}
    (unloaded : ledger.StaleUnloaded operation) : (ledger.step operation).Sound := by
  cases operation with
  | removeScene uuid => exact sound.removeScene uuid
  | storeScene uuid scene => exact sound.storeScene uuid scene
  | requestScene uuid path accepts => exact sound.requestScene uuid path accepts
  | update status => exact sound.update unloaded
  | getScene uuid =>
      refine sound.withCache ?_ rfl
      intro other away
      rwa [perform, peek_getScene]
  | release objectDb uuid id =>
      refine sound.withCache ?_ ?_
      · intro other away
        rwa [perform, release_fst]
      · rw [perform, release_fst]
  | acquire objectDb uuid =>
      refine sound.withCache ?_ (loadingRequests_acquire ledger.cache objectDb uuid)
      intro other away
      rwa [perform, (acquire_caches ledger.cache objectDb uuid).2]
  | freeAllNode objectDb =>
      exact sound.withCache (fun uuid _ => peek_freeAllNode ledger.cache objectDb uuid) rfl

end Steps

section Runs

/-- The ledger after a list of operations on a new cache. -/
def after (sceneCap nodeCap : ℕ) (operations : List ObjectSceneCache.Operation) : DropLedger :=
  operations.foldl step (make sceneCap nodeCap)

theorem cache_after (sceneCap nodeCap : ℕ) (operations : List ObjectSceneCache.Operation) :
    (after sceneCap nodeCap operations).cache = runFrom sceneCap nodeCap operations := by
  have run (ledger : DropLedger) :
      (operations.foldl step ledger).cache = operations.foldl perform ledger.cache := by
    induction operations generalizing ledger with
    | nil => rfl
    | cons operation rest ih => rw [List.foldl_cons, ih, cache_step, List.foldl_cons]
  exact run _

theorem sound_make (sceneCap nodeCap : ℕ) : (make sceneCap nodeCap).Sound := by
  refine ⟨?_, ?_⟩
  · intro uuid dropped
    cases Finset.notMem_empty uuid dropped
  · intro uuid dropped
    cases Finset.notMem_empty uuid dropped

/-- For every sequence of operations and all answers of the loader: the dropped scenes are not found
in any state on the way and no stale request is stored, if and only if no stale request is ever
answered with a scene. -/
theorem drops_final_iff (sceneCap nodeCap : ℕ) (operations : List ObjectSceneCache.Operation) :
    ((∀ before, before <+: operations → (after sceneCap nodeCap before).Final) ∧
      ∀ before operation, before ++ [operation] <+: operations →
        ¬ (after sceneCap nodeCap before).PutsBack operation) ↔
    ∀ before operation, before ++ [operation] <+: operations →
      (after sceneCap nodeCap before).StaleUnloaded operation := by
  constructor
  · intro final before operation isPrefix
    exact not_putsBack_iff.mp (final.2 before operation isPrefix)
  · intro unloaded
    have sound (before : List ObjectSceneCache.Operation) (isPrefix : before <+: operations) :
        (after sceneCap nodeCap before).Sound := by
      induction before using List.reverseRecOn with
      | nil => exact sound_make sceneCap nodeCap
      | append_singleton before operation ih =>
          have shorter : before <+: operations :=
            (List.prefix_append before [operation]).trans isPrefix
          rw [after, List.foldl_append]
          exact (ih shorter).step (unloaded before operation isPrefix)
    refine ⟨fun before isPrefix => (sound before isPrefix).final, ?_⟩
    intro before operation isPrefix
    exact not_putsBack_iff.mpr (unloaded before operation isPrefix)

/-- A load that comes back after the removal puts the old scene into the cache again. -/
theorem not_final_of_late_load :
    let oldScene : PackedScene := ⟨some ⟨7, Uuid.nil, default⟩, 1⟩
    let operations := [.requestScene 7 ⟨"scenes/", 7⟩ true, .removeScene 7,
      .update fun _ => .loaded (some oldScene)]
    ¬ (after 4 4 operations).Final ∧
      ((runFrom 4 4 operations).getScene 7).1 = some oldScene := by
  intro oldScene operations
  refine ⟨?_, by decide +kernel⟩
  intro final
  exact absurd (final 7 (by decide +kernel)) (by decide +kernel)

end Runs

end DropLedger

end GodotStream
