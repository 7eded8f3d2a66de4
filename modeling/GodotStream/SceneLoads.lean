import GodotStream.SceneCacheRefinement
import GodotStream.StoredScenes

/-!
# The loads in flight

The loading set is to hold exactly the uuids of the pending requests, each of them
pending once and none of them marked as damaged. Every operation keeps this, so the
loader is asked for a scene only while that scene is neither cached nor on its way. An
update accounts for every finished request if and only if each one came with a scene
or failed.
-/

namespace GodotStream

open Storage

/-- A request with this answer stays in the list. -/
def ThreadLoadStatus.stays : ThreadLoadStatus → Bool
  | .inProgress | .invalidResource => true
  | .failed | .loaded _ => false

def ThreadLoadStatus.isInProgress : ThreadLoadStatus → Bool
  | .inProgress => true
  | .invalidResource | .failed | .loaded _ => false

/-- The load has ended, and not with a scene. -/
def ThreadLoadStatus.endedWithoutScene : ThreadLoadStatus → Bool
  | .invalidResource | .failed | .loaded none => true
  | .inProgress | .loaded (some _) => false

namespace ObjectSceneCache

variable {cache : ObjectSceneCache}

/-- The uuids of the pending requests, oldest first. -/
def pendingUuids (cache : ObjectSceneCache) : List Uuid :=
  cache.loadingRequests.map LoadingEntry.uuid

/-- The loading set holds the uuids of the pending requests, which are distinct; none of them is
marked as damaged. -/
structure LoadsOnce (cache : ObjectSceneCache) : Prop where
  marked : ∀ uuid, uuid ∈ cache.loadingSet ↔ uuid ∈ cache.pendingUuids
  once : cache.pendingUuids.Nodup
  intact : ∀ uuid ∈ cache.pendingUuids, uuid ∉ cache.removeLoadingSet

section Update

variable (status : LoadingEntry → ThreadLoadStatus)

theorem loadingRequests_foldl_pollRequest (entries : List LoadingEntry)
    (cache : ObjectSceneCache) :
    (entries.foldl (pollRequest status) cache).loadingRequests =
      cache.loadingRequests ++ entries.filter fun entry => (status entry).stays := by
  induction entries generalizing cache with
  | nil => simp
  | cons entry rest ih =>
      rw [List.foldl_cons, ih, List.filter_cons, pollRequest]
      cases status entry with
      | loaded scene => cases scene <;> rfl
      | failed => rfl
      | invalidResource | inProgress => simp [ThreadLoadStatus.stays]

theorem mem_loadingSet_foldl_pollRequest (entries : List LoadingEntry)
    (cache : ObjectSceneCache) (uuid : Uuid) :
    uuid ∈ (entries.foldl (pollRequest status) cache).loadingSet ↔
      uuid ∈ cache.loadingSet ∧
        ∀ entry ∈ entries, (status entry).stays = false → entry.uuid ≠ uuid := by
  induction entries generalizing cache with
  | nil => simp
  | cons entry rest ih =>
      have polled : uuid ∈ (pollRequest status cache entry).loadingSet ↔
          uuid ∈ cache.loadingSet ∧ ((status entry).stays = false → entry.uuid ≠ uuid) := by
        rw [pollRequest]
        cases status entry with
        | loaded scene =>
            cases scene <;> simp [storeScene, ThreadLoadStatus.stays, eq_comm, and_comm]
        | failed => simp [ThreadLoadStatus.stays, eq_comm, and_comm]
        | invalidResource | inProgress => simp [ThreadLoadStatus.stays]
      rw [List.foldl_cons, ih, polled, List.forall_mem_cons, and_assoc]

theorem mem_removeLoadingSet_foldl_pollRequest (entries : List LoadingEntry)
    (cache : ObjectSceneCache) (uuid : Uuid) :
    uuid ∈ (entries.foldl (pollRequest status) cache).removeLoadingSet ↔
      uuid ∈ cache.removeLoadingSet ∨
        ∃ entry ∈ entries, status entry = .failed ∧ entry.uuid = uuid := by
  induction entries generalizing cache with
  | nil => simp
  | cons entry rest ih =>
      have polled : uuid ∈ (pollRequest status cache entry).removeLoadingSet ↔
          uuid ∈ cache.removeLoadingSet ∨ status entry = .failed ∧ entry.uuid = uuid := by
        rw [pollRequest]
        cases status entry with
        | loaded scene => cases scene <;> simp [storeScene]
        | failed => simp [eq_comm, or_comm]
        | invalidResource | inProgress => simp
      rw [List.foldl_cons, ih, polled, or_assoc]
      simp only [List.mem_cons, exists_eq_or_imp]

theorem loadingRequests_update (cache : ObjectSceneCache) :
    (cache.update status).loadingRequests =
      cache.loadingRequests.filter fun entry => (status entry).stays := by
  rw [update, loadingRequests_foldl_pollRequest, List.nil_append]

theorem mem_loadingSet_update {uuid : Uuid} :
    uuid ∈ (cache.update status).loadingSet ↔ uuid ∈ cache.loadingSet ∧
      ∀ entry ∈ cache.loadingRequests, (status entry).stays = false → entry.uuid ≠ uuid := by
  rw [update, mem_loadingSet_foldl_pollRequest]

theorem mem_removeLoadingSet_update {uuid : Uuid} :
    uuid ∈ (cache.update status).removeLoadingSet ↔ uuid ∈ cache.removeLoadingSet ∨
      ∃ entry ∈ cache.loadingRequests, status entry = .failed ∧ entry.uuid = uuid := by
  rw [update, mem_removeLoadingSet_foldl_pollRequest]

/-- A uuid is pending once. -/
theorem LoadsOnce.entry_eq (loads : cache.LoadsOnce) {first second : LoadingEntry}
    (firstListed : first ∈ cache.loadingRequests) (secondListed : second ∈ cache.loadingRequests)
    (sameUuid : first.uuid = second.uuid) : first = second :=
  List.inj_on_of_nodup_map loads.once firstListed secondListed sameUuid

theorem mem_pendingUuids_update {uuid : Uuid} :
    uuid ∈ (cache.update status).pendingUuids ↔
      ∃ entry ∈ cache.loadingRequests, (status entry).stays = true ∧ entry.uuid = uuid := by
  simp [pendingUuids, loadingRequests_update, and_assoc]

theorem LoadsOnce.update (loads : cache.LoadsOnce) : (cache.update status).LoadsOnce := by
  refine ⟨?_, ?_, ?_⟩
  · intro uuid
    rw [mem_loadingSet_update, mem_pendingUuids_update, loads.marked]
    constructor
    · rintro ⟨pending, unfinished⟩
      rcases List.mem_map.mp pending with ⟨entry, listed, rfl⟩
      refine ⟨entry, listed, ?_, rfl⟩
      by_contra finished
      exact unfinished entry listed (Bool.eq_false_of_not_eq_true finished) rfl
    · rintro ⟨entry, listed, stays, rfl⟩
      refine ⟨List.mem_map_of_mem listed, ?_⟩
      intro other otherListed finished sameUuid
      rw [loads.entry_eq otherListed listed sameUuid, stays] at finished
      cases finished
  · rw [pendingUuids, loadingRequests_update]
    exact loads.once.sublist (List.filter_sublist.map _)
  · intro uuid pending damaged
    rcases (mem_pendingUuids_update status).mp pending with ⟨entry, listed, stays, rfl⟩
    rcases (mem_removeLoadingSet_update status).mp damaged with before | ⟨other, otherListed, rest⟩
    · exact loads.intact _ (List.mem_map_of_mem listed) before
    · rcases rest with ⟨failed, sameUuid⟩
      rw [← loads.entry_eq otherListed listed sameUuid, failed] at stays
      cases stays

end Update

section Request

/-- `requestScene`, with the requests that it hands to `load_threaded_request`. -/
def requestSceneLogged (cache : ObjectSceneCache) (uuid : Uuid) (path : ScenePath)
    (accepts : Bool) : (Bool × ObjectSceneCache) × List LoadingEntry :=
  if uuid ∈ cache.removeLoadingSet then
    ((false, { cache with removeLoadingSet := cache.removeLoadingSet.erase uuid }), [])
  else
    let answer := cache.getScene uuid
    if answer.1.isSome ∨ uuid ∈ answer.2.loadingSet then ((true, answer.2), [])
    else if accepts then
      ((true, { answer.2 with
        loadingRequests := answer.2.loadingRequests ++ [⟨uuid, path⟩]
        loadingSet := answer.2.loadingSet.insert uuid () }), [⟨uuid, path⟩])
    else ((false, answer.2), [⟨uuid, path⟩])

theorem requestSceneLogged_fst (cache : ObjectSceneCache) (uuid : Uuid) (path : ScenePath)
    (accepts : Bool) :
    (cache.requestSceneLogged uuid path accepts).1 = cache.requestScene uuid path accepts := by
  simp only [requestSceneLogged, requestScene]
  split
  · rfl
  · split
    · rfl
    · split <;> rfl

/-- A request that reaches the loader is neither cached nor in the loading set. -/
theorem mem_requestSceneLogged {uuid : Uuid} {path : ScenePath} {accepts : Bool}
    {issued : LoadingEntry} (logged : issued ∈ (cache.requestSceneLogged uuid path accepts).2) :
    issued = ⟨uuid, path⟩ ∧ cache.sceneCache.peek uuid = none ∧ uuid ∉ cache.loadingSet := by
  simp only [requestSceneLogged, getScene_fst] at logged
  split at logged
  · cases logged
  · split at logged
    · cases logged
    case isFalse fresh =>
      rw [not_or, Option.not_isSome_iff_eq_none] at fresh
      split at logged
      · exact ⟨List.mem_singleton.mp logged, fresh⟩
      · exact ⟨List.mem_singleton.mp logged, fresh⟩

/-- A request adds one entry, to the list and to the set, or leaves both as they were. -/
theorem requestScene_cases (cache : ObjectSceneCache) (uuid : Uuid) (path : ScenePath)
    (accepts : Bool) :
    ((cache.requestScene uuid path accepts).2.loadingRequests = cache.loadingRequests ∧
      (cache.requestScene uuid path accepts).2.loadingSet = cache.loadingSet ∧
      ∀ other ∈ (cache.requestScene uuid path accepts).2.removeLoadingSet,
        other ∈ cache.removeLoadingSet) ∨
    (uuid ∉ cache.removeLoadingSet ∧ uuid ∉ cache.loadingSet ∧
      (cache.requestScene uuid path accepts).2.loadingRequests =
        cache.loadingRequests ++ [⟨uuid, path⟩] ∧
      (cache.requestScene uuid path accepts).2.loadingSet = cache.loadingSet.insert uuid () ∧
      (cache.requestScene uuid path accepts).2.removeLoadingSet = cache.removeLoadingSet) := by
  simp only [requestScene]
  split
  · exact Or.inl ⟨rfl, rfl, fun other listed => (Table.mem_erase.mp listed).2⟩
  case isFalse undamaged =>
    split
    · exact Or.inl ⟨rfl, rfl, fun other listed => listed⟩
    case isFalse fresh =>
      split
      · exact Or.inr ⟨undamaged, fun waits => fresh (Or.inr waits), rfl, rfl, rfl⟩
      · exact Or.inl ⟨rfl, rfl, fun other listed => listed⟩

theorem LoadsOnce.requestScene (loads : cache.LoadsOnce) (uuid : Uuid) (path : ScenePath)
    (accepts : Bool) : (cache.requestScene uuid path accepts).2.LoadsOnce := by
  rcases requestScene_cases cache uuid path accepts with ⟨requests, set, damaged⟩ |
    ⟨undamaged, fresh, requests, set, damaged⟩
  · have sameUuids : (cache.requestScene uuid path accepts).2.pendingUuids =
        cache.pendingUuids := by rw [pendingUuids, requests, pendingUuids]
    refine ⟨?_, ?_, ?_⟩
    · simpa only [set, sameUuids] using loads.marked
    · simpa only [sameUuids] using loads.once
    · intro other pending isDamaged
      exact loads.intact other (sameUuids ▸ pending) (damaged other isDamaged)
  · have uuids : (cache.requestScene uuid path accepts).2.pendingUuids =
        cache.pendingUuids ++ [uuid] := by simp [pendingUuids, requests]
    refine ⟨?_, ?_, ?_⟩
    · intro other
      rw [set, uuids, Table.mem_insert, loads.marked, List.mem_append, List.mem_singleton,
        or_comm]
    · rw [uuids]
      rw [loads.marked] at fresh
      exact List.nodup_append_comm.mp (List.nodup_cons.mpr ⟨fresh, loads.once⟩)
    · intro other pending
      rw [damaged]
      rw [uuids, List.mem_append, List.mem_singleton] at pending
      rcases pending with before | rfl
      · exact loads.intact other before
      · exact undamaged

end Request

section Runs

/-- The other operations leave the requests alone. -/
theorem LoadsOnce.withCaches (loads : cache.LoadsOnce) (nodeCache : FixedSizedCache Uuid ObjectID)
    (sceneCache : FixedSizedCache Uuid PackedScene) :
    LoadsOnce { cache with nodeCache, sceneCache } :=
  ⟨loads.marked, loads.once, loads.intact⟩

theorem LoadsOnce.perform (loads : cache.LoadsOnce) (operation : Operation) :
    (cache.perform operation).LoadsOnce := by
  cases operation with
  | storeScene | getScene | removeScene | freeAllNode => exact loads.withCaches _ _
  | requestScene uuid path accepts => exact loads.requestScene uuid path accepts
  | update status => exact loads.update status
  | release objectDb uuid id =>
      rw [ObjectSceneCache.perform, release_fst]
      exact loads.withCaches _ _
  | acquire objectDb uuid =>
      rcases exists_acquire cache objectDb uuid with ⟨nodeCache, sceneCache, acquired⟩
      rw [ObjectSceneCache.perform, acquired]
      exact loads.withCaches nodeCache sceneCache

theorem loadsOnce_make (sceneCap nodeCap : ℕ) : (make sceneCap nodeCap).LoadsOnce := by
  refine ⟨?_, List.nodup_nil, ?_⟩
  · intro uuid
    simp [make, pendingUuids]
  · simp [make, pendingUuids]

/-- The cache after a list of operations on a new one. -/
def runFrom (sceneCap nodeCap : ℕ) (operations : List Operation) : ObjectSceneCache :=
  operations.foldl perform (make sceneCap nodeCap)

theorem loadsOnce_runFrom (sceneCap nodeCap : ℕ) (operations : List Operation) :
    (runFrom sceneCap nodeCap operations).LoadsOnce := by
  apply List.foldlRecOn (motive := LoadsOnce) _ _ (loadsOnce_make sceneCap nodeCap)
  exact fun _ loads operation _ => loads.perform operation

/-- `perform`, with the requests that the operation hands to `load_threaded_request`. -/
def performLogged (cache : ObjectSceneCache) : Operation → ObjectSceneCache × List LoadingEntry
  | .requestScene uuid path accepts =>
      let answer := cache.requestSceneLogged uuid path accepts
      (answer.1.2, answer.2)
  | operation => (cache.perform operation, [])

theorem performLogged_fst (cache : ObjectSceneCache) (operation : Operation) :
    (cache.performLogged operation).1 = cache.perform operation := by
  cases operation with
  | requestScene uuid path accepts =>
      rw [performLogged, requestSceneLogged_fst, perform]
  | storeScene | getScene | removeScene | update | release | acquire | freeAllNode => rfl

/-- After every sequence of operations the loading set is the set of the pending uuids, no uuid is
pending twice, and what the next operation asks the loader for is neither pending nor cached. -/
theorem one_load_in_flight (sceneCap nodeCap : ℕ) (operations : List Operation) :
    let cache := runFrom sceneCap nodeCap operations
    (∀ uuid, uuid ∈ cache.loadingSet ↔ ∃ entry ∈ cache.loadingRequests, entry.uuid = uuid) ∧
    (cache.loadingRequests.map LoadingEntry.uuid).Nodup ∧
    ∀ operation, ∀ issued ∈ (cache.performLogged operation).2,
      (∀ entry ∈ cache.loadingRequests, entry.uuid ≠ issued.uuid) ∧
        cache.sceneCache.peek issued.uuid = none := by
  intro cache
  have loads : cache.LoadsOnce := loadsOnce_runFrom sceneCap nodeCap operations
  refine ⟨?_, loads.once, ?_⟩
  · intro uuid
    rw [loads.marked, pendingUuids, List.mem_map]
  · intro operation issued logged
    cases operation with
    | requestScene uuid path accepts =>
        rcases mem_requestSceneLogged logged with ⟨rfl, uncached, unmarked⟩
        refine ⟨?_, uncached⟩
        rintro entry listed rfl
        exact unmarked ((loads.marked _).mpr (List.mem_map_of_mem listed))
    | storeScene | getScene | removeScene | update | release | acquire | freeAllNode =>
        cases logged

end Runs

section Accounts

/-- What an update is to leave: the requests in progress, in their order and in the loading set,
each loaded scene under its uuid, and for every other request a record that makes the next request
of its uuid fail. -/
structure Accounts (cache : ObjectSceneCache) (status : LoadingEntry → ThreadLoadStatus) :
    Prop where
  pending : (cache.update status).loadingRequests =
    cache.loadingRequests.filter fun entry => (status entry).isInProgress
  marked : ∀ entry ∈ (cache.update status).loadingRequests,
    entry.uuid ∈ (cache.update status).loadingSet
  stored : (cache.update status).sceneCache =
    cache.sceneCache.callAll (cache.loadingRequests.filterMap (loadedCall status))
  recorded : ∀ entry ∈ cache.loadingRequests, (status entry).endedWithoutScene = true →
    ∀ path accepts, ((cache.update status).requestScene entry.uuid path accepts).1 = false

variable {status : LoadingEntry → ThreadLoadStatus}

/-- A failed request is recorded, so the next request of its uuid fails. -/
theorem requestScene_update_of_failed {entry : LoadingEntry}
    (listed : entry ∈ cache.loadingRequests) (failed : status entry = .failed)
    (path : ScenePath) (accepts : Bool) :
    ((cache.update status).requestScene entry.uuid path accepts).1 = false := by
  have damaged : entry.uuid ∈ (cache.update status).removeLoadingSet :=
    (mem_removeLoadingSet_update status).mpr (Or.inr ⟨entry, listed, failed, rfl⟩)
  apply Bool.eq_false_iff.mpr
  intro answered
  exact ((requestScene_fst _ _ _ _).mp answered).1 damaged

/-- A request that did not fail is not recorded, and the loader may accept it once more. -/
theorem LoadsOnce.requestScene_update (loads : cache.LoadsOnce) {entry : LoadingEntry}
    (listed : entry ∈ cache.loadingRequests) (unfailed : status entry ≠ .failed)
    (path : ScenePath) :
    ((cache.update status).requestScene entry.uuid path true).1 = true := by
  apply (requestScene_fst _ _ _ _).mpr
  refine ⟨?_, Or.inr (Or.inr rfl)⟩
  intro damaged
  rcases (mem_removeLoadingSet_update status).mp damaged with
    before | ⟨other, otherListed, failed, sameUuid⟩
  · exact loads.intact _ (List.mem_map_of_mem listed) before
  · exact unfailed (loads.entry_eq otherListed listed sameUuid ▸ failed)

/-- An update accounts for the requests if and only if none of them turned out invalid or was
loaded as something that is not a scene. -/
theorem LoadsOnce.accounts_iff (loads : cache.LoadsOnce) :
    cache.Accounts status ↔ ∀ entry ∈ cache.loadingRequests,
      status entry ≠ .invalidResource ∧ status entry ≠ .loaded none := by
  constructor
  · intro accounts entry listed
    refine ⟨?_, ?_⟩
    · intro invalid
      have kept : entry ∈ (cache.update status).loadingRequests := by
        rw [loadingRequests_update]
        exact List.mem_filter.mpr ⟨listed, by rw [invalid]; rfl⟩
      rw [accounts.pending, List.mem_filter, invalid] at kept
      cases kept.2
    · intro unusable
      have refused := accounts.recorded entry listed (by rw [unusable]; rfl) entry.path true
      rw [loads.requestScene_update listed (by simp [unusable])] at refused
      cases refused
  · intro regular
    refine ⟨?_, ?_, sceneCache_foldl_pollRequest status _ _, ?_⟩
    · rw [loadingRequests_update]
      apply List.filter_congr
      intro entry listed
      have notInvalid := (regular entry listed).1
      cases answered : status entry with
      | invalidResource => exact (notInvalid answered).elim
      | inProgress | failed | loaded => rfl
    · intro entry pending
      exact ((loads.update status).marked _).mpr (List.mem_map_of_mem pending)
    · intro entry listed ended path accepts
      have notUnusable := regular entry listed
      apply requestScene_update_of_failed listed
      cases answered : status entry with
      | failed => rfl
      | invalidResource => exact (notUnusable.1 answered).elim
      | inProgress => simp [answered, ThreadLoadStatus.endedWithoutScene] at ended
      | loaded scene =>
          cases scene with
          | none => exact (notUnusable.2 answered).elim
          | some scene => simp [answered, ThreadLoadStatus.endedWithoutScene] at ended

/-- Requests of distinct uuids that the loader accepts are all pending afterwards, in their
order. -/
theorem loadingRequests_runFrom_requests (sceneCap nodeCap : ℕ) (entries : List LoadingEntry)
    (distinct : (entries.map LoadingEntry.uuid).Nodup) :
    (runFrom sceneCap nodeCap
      (entries.map fun entry => .requestScene entry.uuid entry.path true)).loadingRequests =
      entries := by
  have requested (cache : ObjectSceneCache) (uncached : ∀ uuid, cache.sceneCache.peek uuid = none)
      (undamaged : ∀ uuid, uuid ∉ cache.removeLoadingSet)
      (fresh : ∀ entry ∈ entries, entry.uuid ∉ cache.loadingSet) :
      ((entries.map fun entry => Operation.requestScene entry.uuid entry.path true).foldl perform
        cache).loadingRequests = cache.loadingRequests ++ entries := by
    induction entries generalizing cache with
    | nil => simp
    | cons entry rest ih =>
        rw [List.map_cons, List.nodup_cons] at distinct
        have added : cache.perform (.requestScene entry.uuid entry.path true) =
            { (cache.getScene entry.uuid).2 with
              loadingRequests := cache.loadingRequests ++ [entry]
              loadingSet := cache.loadingSet.insert entry.uuid () } := by
          have unmarked := fresh entry List.mem_cons_self
          have proceeds : ¬ ((none : Option PackedScene).isSome = true ∨
              entry.uuid ∈ (cache.getScene entry.uuid).2.loadingSet) := by
            rintro (cached | waits)
            · cases cached
            · exact unmarked waits
          simp only [perform, requestScene, getScene_fst, uncached, undamaged, if_false]
          rw [if_neg proceeds]
          rfl
        rw [List.map_cons, List.foldl_cons, added, ih distinct.2]
        · simp
        · intro uuid
          rw [peek_getScene]
          exact uncached uuid
        · exact undamaged
        · intro other listed
          rw [Table.mem_insert, not_or]
          refine ⟨fun same => distinct.1 (same ▸ List.mem_map_of_mem listed), ?_⟩
          exact fresh other (List.mem_cons_of_mem _ listed)
  simpa [runFrom, make] using requested (make sceneCap nodeCap) (by simp [make]) (by simp [make])
    (by simp [make])

/-- In every state that a sequence of operations reaches and for all answers of the loader, the
update accounts for the pending requests exactly when none was answered as invalid or as loaded
without a scene. -/
theorem update_accounts_iff (sceneCap nodeCap : ℕ) (operations : List Operation)
    (status : LoadingEntry → ThreadLoadStatus) :
    (runFrom sceneCap nodeCap operations).Accounts status ↔
      ∀ entry ∈ (runFrom sceneCap nodeCap operations).loadingRequests,
        status entry ≠ .invalidResource ∧ status entry ≠ .loaded none :=
  (loadsOnce_runFrom sceneCap nodeCap operations).accounts_iff

/-- A file that is not a scene is requested again, although its load has ended. -/
theorem not_accounts_of_no_scene :
    ¬ (runFrom 4 4 [.requestScene 7 ⟨"scenes/", 7⟩ true]).Accounts fun _ => .loaded none := by
  intro accounts
  have refused := accounts.recorded ⟨7, ⟨"scenes/", 7⟩⟩ (by decide +kernel) rfl
    ⟨"scenes/", 7⟩ true
  exact absurd refused (by decide +kernel)

end Accounts

end ObjectSceneCache

end GodotStream
