import GodotStream.NeverLost
import GodotStream.QueryFailure
import GodotStream.Steady

/-!
# Changes of parent

`update_object` marks an object for an upsert, and the next flush takes the parent from
the registry, where a query result delivered in between may have put an older one. This
file follows one object from an update on: the tasks that wait leave its row with the new
parent, as long as no result is delivered that has another parent for it, or lacks it
while its upsert is pending.
-/

namespace GodotStream

open Storage Run

variable {uuid parentUuid : Uuid}

/-- The row of the object has the parent. -/
def StreamSqliteDB.HasParent (uuid parentUuid : Uuid) (db : StreamSqliteDB) : Prop :=
  uuid ∈ db.objects.rows ∧ db.objects.parentOf uuid = parentUuid.toColumn

/-- Whether the object has the parent after some upserts, if it has it now or not. -/
def parentAfterUpserts (uuid parentUuid : Uuid) (upsertData : List (Uuid × ObjectData))
    (now : Prop) : Prop :=
  upsertData.foldl
    (fun now entry => (entry.1 = uuid ∧ entry.2.parentUuid = parentUuid) ∨
      (entry.1 ≠ uuid ∧ now)) now

/-- Whether the object has the parent after a task. -/
def Task.parentAfter (uuid parentUuid : Uuid) (now : Prop) : Task → Prop
  | .flush batch => parentAfterUpserts uuid parentUuid batch.upsertData now
  | _ => now

/-- Whether the object has the parent when all tasks have run. -/
def parentAfterTasks (uuid parentUuid : Uuid) (tasks : List Task) (now : Prop) : Prop :=
  tasks.foldl (Task.parentAfter uuid parentUuid) now

theorem parentAfterUpserts_mono {upsertData : List (Uuid × ObjectData)} {now later : Prop}
    (implies : now → later) (held : parentAfterUpserts uuid parentUuid upsertData now) :
    parentAfterUpserts uuid parentUuid upsertData later := by
  induction upsertData generalizing now later with
  | nil => exact implies held
  | cons entry rest ih =>
      apply ih _ held
      exact fun before => before.imp_right fun other => ⟨other.1, implies other.2⟩

theorem parentAfterTasks_mono {tasks : List Task} {now later : Prop} (implies : now → later)
    (held : parentAfterTasks uuid parentUuid tasks now) :
    parentAfterTasks uuid parentUuid tasks later := by
  induction tasks generalizing now later with
  | nil => exact implies held
  | cons task rest ih =>
      apply ih _ held
      cases task with
      | init => exact implies
      | query => exact implies
      | flush batch => exact parentAfterUpserts_mono implies

/-- Upserts that all carry the parent leave it when one of them is for the object. -/
theorem parentAfterUpserts_of_carried {upsertData : List (Uuid × ObjectData)} {now : Prop}
    (carried : ∀ entry ∈ upsertData, entry.1 = uuid → entry.2.parentUuid = parentUuid)
    (decided : now ∨ ∃ entry ∈ upsertData, entry.1 = uuid) :
    parentAfterUpserts uuid parentUuid upsertData now := by
  induction upsertData generalizing now with
  | nil => simpa [parentAfterUpserts] using decided
  | cons entry rest ih =>
      apply ih fun other listed => carried other (List.mem_cons_of_mem _ listed)
      by_cases own : entry.1 = uuid
      · exact Or.inl (Or.inl ⟨own, carried entry List.mem_cons_self own⟩)
      · rcases decided with now | ⟨other, listed, same⟩
        · exact Or.inl (Or.inr ⟨own, now⟩)
        · rcases List.mem_cons.mp listed with rfl | later
          · exact absurd same own
          · exact Or.inr ⟨other, later, same⟩

theorem ObjectTable.parentOf_upsert {table : ObjectTable} {child upper : Uuid}
    (accepted : table.Accepts child upper) (other : Uuid) :
    (table.upsert child upper).parentOf other =
      if other = child then upper.toColumn else table.parentOf other := by
  simp only [parentOf, get?_upsert accepted]
  split <;> simp

/-- Accepted upserts have the effect that the queue promises. -/
theorem hasParent_upsertAll {table : ObjectTable} {upsertData : List (Uuid × ObjectData)}
    (first : ObjectTable.ParentsFirst (· ∈ table.rows) upsertData)
    (held : parentAfterUpserts uuid parentUuid upsertData
      (uuid ∈ table.rows ∧ table.parentOf uuid = parentUuid.toColumn)) :
    uuid ∈ (table.upsertAll upsertData).rows ∧
      (table.upsertAll upsertData).parentOf uuid = parentUuid.toColumn := by
  induction upsertData generalizing table with
  | nil => exact held
  | cons entry rest ih =>
      have accepted : table.Accepts entry.1 entry.2.parentUuid := first.1
      apply ih ((ObjectTable.parentsFirst_upsert accepted rest).mpr first.2)
      refine parentAfterUpserts_mono ?_ (show parentAfterUpserts uuid parentUuid rest _ from held)
      rintro (⟨own, carried⟩ | ⟨other, present, parentEq⟩)
      · refine ⟨ObjectTable.mem_upsert.mpr (Or.inl ⟨own.symm, accepted⟩), ?_⟩
        rw [ObjectTable.parentOf_upsert accepted, if_pos own.symm, carried]
      · rw [ObjectTable.mem_upsert, ObjectTable.parentOf_upsert accepted,
          if_neg fun same => other same.symm]
        exact ⟨Or.inr present, parentEq⟩

/-- The task deletes no row at or above the object. -/
def Task.Leaves (uuid : Uuid) (db : StreamSqliteDB) : Task → Prop
  | .flush batch => db.objects.Spares batch.remove.keys uuid
  | _ => True

instance (uuid : Uuid) (db : StreamSqliteDB) : ∀ task : Task, Decidable (task.Leaves uuid db)
  | .flush batch => inferInstanceAs (Decidable (db.objects.Spares batch.remove.keys uuid))
  | .init | .query _ => isTrue trivial

theorem hasParent_run {task : Task} {db : StreamSqliteDB} {done : StreamSqliteDB × Callback}
    (ran : task.run db = some done) (succeeds : task.Succeeds db) (leaves : task.Leaves uuid db)
    (held : task.parentAfter uuid parentUuid (db.HasParent uuid parentUuid)) :
    done.1.HasParent uuid parentUuid := by
  cases task with
  | init =>
      rw [← Option.some.inj ran]
      exact held
  | query aabbs =>
      rw [← Option.some.inj ran]
      exact held
  | flush batch =>
      rcases Option.map_eq_some_iff.mp ran with ⟨state, ended, rfl⟩
      have spared : db.objects.Spares batch.remove.keys uuid := leaves
      have keeps := flushTask_keepsRows ended
      simp only [StreamSqliteDB.HasParent, keeps.present, keeps.parents, FlushBatch.mem_prepare,
        FlushBatch.parentOf_prepare]
      apply hasParent_upsertAll (FlushBatch.parentsFirst_iff.mp succeeds)
      apply parentAfterUpserts_mono _ held
      rintro ⟨present, parentEq⟩
      refine ⟨ObjectTable.mem_deleteAll.mpr ⟨present, spared⟩, ?_⟩
      rw [ObjectTable.parentOf, ObjectTable.get?_deleteAll, if_pos spared]
      exact parentEq

namespace World

variable {world : World}

/-- The object is neither updated again nor removed, and statements succeed. -/
def LeavesAlone (uuid : Uuid) (world : World) : Event → Prop
  | .updateObject id _ => ∀ node ∈ world.objectDb.getInstance id, node.uuid ≠ uuid
  | .process _ =>
      uuid ∈ world.manager.registry → uuid ∈ world.runRemovals.manager.registry
  | .workerStep => ∀ worker ∈ world.dbWorker, ∀ task ∈ worker.taskQueue.head?,
      task.Succeeds worker.db ∧ task.Leaves uuid worker.db
  | .flushCallbacks => True
  | _ => False

/-- A result has no other parent for the object, and has it while its upsert is pending. -/
def UpToDate (uuid parentUuid : Uuid) (world : World) : Callback → Prop
  | .nothing => True
  | .onQueryResult dbObjects =>
      (∀ row ∈ dbObjects.get? uuid, row.parentUuid = parentUuid) ∧
      (uuid ∈ world.manager.toUpsertUuids → uuid ∉ world.manager.toUnload dbObjects)

/-- Only such results are delivered. -/
def Undisputed (uuid parentUuid : Uuid) (world : World) : Event → Prop
  | .flushCallbacks => ∀ worker ∈ world.dbWorker, ∀ callback ∈ worker.completedCallbacks,
      world.UpToDate uuid parentUuid callback
  | _ => True

instance (world : World) : ∀ event, Decidable (LeavesAlone uuid world event)
  | .updateObject id _ => inferInstanceAs (Decidable (∀ node ∈ world.objectDb.getInstance id,
      node.uuid ≠ uuid))
  | .process _ => inferInstanceAs (Decidable (uuid ∈ world.manager.registry →
      uuid ∈ world.runRemovals.manager.registry))
  | .workerStep => inferInstanceAs (Decidable (∀ worker ∈ world.dbWorker,
      ∀ task ∈ worker.taskQueue.head?, task.Succeeds worker.db ∧ task.Leaves uuid worker.db))
  | .flushCallbacks => isTrue trivial
  | .create .. | .enter _ | .exit _ | .reparent _ | .queueFree _ | .deleteQueued _ | .addObject _
  | .removeObject _ | .aabbChanged .. | .boxChanged .. | .loadProbe .. | .unloadProbe _
  | .asyncSave _ => isFalse id

instance (world : World) : ∀ callback, Decidable (UpToDate uuid parentUuid world callback)
  | .nothing => isTrue trivial
  | .onQueryResult dbObjects => inferInstanceAs (Decidable (
      (∀ row ∈ dbObjects.get? uuid, row.parentUuid = parentUuid) ∧
      (uuid ∈ world.manager.toUpsertUuids → uuid ∉ world.manager.toUnload dbObjects)))

instance (world : World) : ∀ event, Decidable (Undisputed uuid parentUuid world event)
  | .flushCallbacks => inferInstanceAs (Decidable (∀ worker ∈ world.dbWorker,
      ∀ callback ∈ worker.completedCallbacks, world.UpToDate uuid parentUuid callback))
  | .create .. | .enter _ | .exit _ | .reparent _ | .queueFree _ | .deleteQueued _ | .addObject _
  | .removeObject _ | .updateObject .. | .aabbChanged .. | .boxChanged .. | .loadProbe ..
  | .unloadProbe _ | .process _ | .workerStep | .asyncSave _ => isTrue trivial

/-- The tasks pushed since the queue was `origin` carry the parent for the object. -/
def LaterCarry (uuid parentUuid : Uuid) (origin tasks : List Task) : Prop :=
  ∃ old new, tasks = old ++ new ∧ old <:+ origin ∧
    ∀ batch, Task.flush batch ∈ new →
      ∀ entry ∈ batch.upsertData, entry.1 = uuid → entry.2.parentUuid = parentUuid

/-- A pending upsert will carry the parent, and without one the tasks leave it. -/
structure HoldsParent (uuid parentUuid : Uuid) (origin : List Task) (world : World) : Prop where
  fresh : ∀ index, world.generated ≤ index → (world.uuidGenerator index).1 ≠ uuid
  pending : uuid ∈ world.manager.toUpsertUuids →
    ∃ data, world.manager.registry.get? uuid = some data ∧ data.parentUuid = parentUuid
  later : ∀ worker ∈ world.dbWorker, LaterCarry uuid parentUuid origin worker.taskQueue
  settled : uuid ∉ world.manager.toUpsertUuids → ∀ worker ∈ world.dbWorker,
    parentAfterTasks uuid parentUuid worker.taskQueue (worker.db.HasParent uuid parentUuid)

variable {origin : List Task}

/-- Steps that leave the database thread, the generator and the object's entry alone. -/
theorem HoldsParent.of_same {after : World} (holds : HoldsParent uuid parentUuid origin world)
    (dbWorker : after.dbWorker = world.dbWorker)
    (generated : world.generated ≤ after.generated)
    (uuidGenerator : after.uuidGenerator = world.uuidGenerator)
    (upserts : uuid ∈ after.manager.toUpsertUuids ↔ uuid ∈ world.manager.toUpsertUuids)
    (pending : uuid ∈ after.manager.toUpsertUuids →
      ∃ data, after.manager.registry.get? uuid = some data ∧ data.parentUuid = parentUuid) :
    HoldsParent uuid parentUuid origin after where
  fresh := by
    intro index issued
    rw [uuidGenerator]
    exact holds.fresh index (generated.trans issued)
  pending := pending
  later := dbWorker ▸ holds.later
  settled := by
    rw [upserts, dbWorker]
    exact holds.settled

section Loading

theorem HoldsParent.addChild (holds : HoldsParent uuid parentUuid origin world) (id : ObjectID) :
    HoldsParent uuid parentUuid origin (world.addChild id) := by
  have entered (other : World) (otherHolds : HoldsParent uuid parentUuid origin other) :
      HoldsParent uuid parentUuid origin (other.onObjectEntered id) := by
    simp only [onObjectEntered]
    split
    · exact otherHolds
    case h_2 node found =>
      split
      · have distinct := otherHolds.fresh other.generated (Nat.le_refl _)
        rcases StreamManager.exists_addObject other.manager id
          { node with uuid := (other.uuidGenerator other.generated).1 }
          (other.uuidGenerator other.generated).2 with ⟨childrenMap, registers⟩
        simp only [registers]
        have upserts : uuid ∈ other.manager.toUpsertUuids.insert
            (other.uuidGenerator other.generated).1 () ↔ uuid ∈ other.manager.toUpsertUuids := by
          rw [Table.mem_insert]
          exact or_iff_right fun same => distinct same.symm
        refine otherHolds.of_same rfl (Nat.le_succ _) rfl upserts ?_
        intro pending
        rw [Table.get?_insert_of_ne _ fun same => distinct same.symm]
        exact otherHolds.pending (upserts.mp pending)
      · refine otherHolds.of_same rfl (Nat.le_refl _) rfl Iff.rfl ?_
        intro pending
        rcases otherHolds.pending pending with ⟨data, registered, parentEq⟩
        simp only [StreamManager.setNodeRoot, Table.get?_modify]
        split
        case isTrue same => exact ⟨_, rfl, by rw [← same, registered]; exact parentEq⟩
        case isFalse => exact ⟨data, registered, parentEq⟩
  have mounted : HoldsParent uuid parentUuid origin (world.setMount id .manager) :=
    holds.of_same rfl (Nat.le_refl _) rfl Iff.rfl holds.pending
  simp only [World.addChild]
  split
  · exact holds
  · split
    · split
      · exact entered _ mounted
      · exact mounted
    · exact holds

theorem HoldsParent.requestScene (holds : HoldsParent uuid parentUuid origin world)
    (loader : Loader) (requested : Uuid) :
    HoldsParent uuid parentUuid origin (world.requestScene loader requested) := by
  simp only [World.requestScene]
  split <;> exact holds.of_same rfl (Nat.le_refl _) rfl Iff.rfl holds.pending

theorem HoldsParent.loadObjectScene (holds : HoldsParent uuid parentUuid origin world)
    (loader : Loader) (loaded : Uuid) :
    HoldsParent uuid parentUuid origin (world.loadObjectScene loader loaded) := by
  have acquired : HoldsParent uuid parentUuid origin (world.acquired loaded) :=
    holds.of_same rfl (Nat.le_refl _) rfl Iff.rfl holds.pending
  apply loadObjectScene_rule holds acquired
  · exact acquired.requestScene loader loaded
  · exact fun id => acquired.addChild id

theorem HoldsParent.streamScenes (holds : HoldsParent uuid parentUuid origin world)
    (loader : Loader) : HoldsParent uuid parentUuid origin (world.streamScenes loader) := by
  apply streamScenes_rule holds
  · exact fun other otherHolds =>
      otherHolds.of_same rfl (Nat.le_refl _) rfl Iff.rfl otherHolds.pending
  · exact fun other loadQueue loadedQueue otherHolds =>
      otherHolds.of_same rfl (Nat.le_refl _) rfl Iff.rfl otherHolds.pending
  · exact fun other loaded otherHolds => otherHolds.loadObjectScene loader loaded

end Loading

section Tasks

theorem LaterCarry.push {tasks : List Task} {task : Task}
    (later : LaterCarry uuid parentUuid origin tasks)
    (carries : ∀ batch, task = .flush batch →
      ∀ entry ∈ batch.upsertData, entry.1 = uuid → entry.2.parentUuid = parentUuid) :
    LaterCarry uuid parentUuid origin (tasks ++ [task]) := by
  rcases later with ⟨old, new, rfl, oldSuffix, carried⟩
  refine ⟨old, new ++ [task], List.append_assoc _ _ _, oldSuffix, ?_⟩
  intro batch listed
  rcases List.mem_append.mp listed with before | added
  · exact carried batch before
  · exact carries batch (List.mem_singleton.mp added).symm

theorem LaterCarry.tail {task : Task} {rest : List Task}
    (later : LaterCarry uuid parentUuid origin (task :: rest)) :
    LaterCarry uuid parentUuid origin rest := by
  rcases later with ⟨old, new, tasksEq, oldSuffix, carried⟩
  cases old with
  | nil =>
      rw [List.nil_append] at tasksEq
      refine ⟨[], rest, rfl, List.nil_suffix, ?_⟩
      exact fun batch listed => carried batch (tasksEq ▸ List.mem_cons_of_mem _ listed)
  | cons first others =>
      rw [List.cons_append, List.cons.injEq] at tasksEq
      exact ⟨others, new, tasksEq.2, (List.suffix_cons _ _).trans oldSuffix, carried⟩

/-- A task that carries the parent, or does not write the object, may be pushed. -/
theorem HoldsParent.pushTask (holds : HoldsParent uuid parentUuid origin world) {task : Task}
    (carries : ∀ batch, task = .flush batch →
      ∀ entry ∈ batch.upsertData, entry.1 = uuid → entry.2.parentUuid = parentUuid) :
    HoldsParent uuid parentUuid origin (world.pushTask task) := by
  refine ⟨holds.fresh, holds.pending, ?_, ?_⟩
  · intro worker running
    rcases Option.map_eq_some_iff.mp running with ⟨old, oldRunning, rfl⟩
    exact (holds.later old oldRunning).push carries
  · intro notPending worker running
    rcases Option.map_eq_some_iff.mp running with ⟨old, oldRunning, rfl⟩
    have before := holds.settled notPending old oldRunning
    simp only [AsyncDbWorker.pushTask, parentAfterTasks, List.foldl_append, List.foldl_cons,
      List.foldl_nil]
    cases task with
    | init => exact before
    | query => exact before
    | flush batch => exact parentAfterUpserts_of_carried (carries batch rfl) (Or.inl before)

/-- The flush hands a pending upsert over with the parent of the registry. -/
theorem HoldsParent.flushPendingDbOps (holds : HoldsParent uuid parentUuid origin world) :
    HoldsParent uuid parentUuid origin world.flushPendingDbOps := by
  have carries : ∀ entry ∈ world.manager.upsertData, entry.1 = uuid →
      entry.2.parentUuid = parentUuid := by
    rintro entry listed rfl
    rcases StreamManager.get?_of_mem_upsertData listed with ⟨pending, found⟩
    rcases holds.pending pending with ⟨data, registered, parentEq⟩
    rw [found, Option.some.injEq] at registered
    exact registered ▸ parentEq
  have captured (pending : uuid ∈ world.manager.toUpsertUuids) :
      ∃ entry ∈ world.manager.upsertData, entry.1 = uuid := by
    rcases holds.pending pending with ⟨data, registered, _⟩
    exact List.mem_map.mp
      (StreamManager.mem_upsertData.mpr ⟨pending, Table.mem_of_get? registered⟩)
  simp only [World.flushPendingDbOps]
  split
  · exact holds
  · split
    · exact holds
    · split
      case isTrue isEmpty =>
        refine ⟨holds.fresh, fun pending => absurd pending (Table.not_mem_empty uuid), holds.later,
          fun _ => holds.settled ?_⟩
        intro pending
        rcases captured pending with ⟨entry, listed, _⟩
        simp only [Bool.and_eq_true, List.isEmpty_iff] at isEmpty
        rw [show world.manager.upsertData = [] from isEmpty.1.1] at listed
        simp at listed
      case isFalse =>
        refine ⟨holds.fresh, fun pending => absurd pending (Table.not_mem_empty uuid), ?_, ?_⟩
        · intro worker running
          rcases Option.map_eq_some_iff.mp running with ⟨old, oldRunning, rfl⟩
          apply (holds.later old oldRunning).push
          rintro batch same
          rw [← Task.flush.inj same]
          exact carries
        · intro _ worker running
          rcases Option.map_eq_some_iff.mp running with ⟨old, oldRunning, rfl⟩
          simp only [AsyncDbWorker.pushTask, parentAfterTasks, List.foldl_append, List.foldl_cons,
            List.foldl_nil]
          apply parentAfterUpserts_of_carried carries
          by_cases pending : uuid ∈ world.manager.toUpsertUuids
          · exact Or.inr (captured pending)
          · exact Or.inl (holds.settled pending old oldRunning)

theorem HoldsParent.queryProbes (holds : HoldsParent uuid parentUuid origin world) :
    HoldsParent uuid parentUuid origin world.queryProbes := by
  have counted (registeredProbes : Table ObjectID Unit) (queryProcess : ℕ) :
      HoldsParent uuid parentUuid origin { world with
        manager := { world.manager with registeredProbes, queryProcess } } :=
    holds.of_same rfl (Nat.le_refl _) rfl Iff.rfl holds.pending
  simp only [World.queryProbes]
  split
  · split
    · exact counted _ _
    · exact (counted _ _).pushTask (by simp)
  · exact counted _ _

theorem HoldsParent.runNext (holds : HoldsParent uuid parentUuid origin world)
    {worker next : AsyncDbWorker} (running : world.dbWorker = some worker)
    (ran : worker.runNext = some next)
    (succeeds : ∀ task ∈ worker.taskQueue.head?,
      task.Succeeds worker.db ∧ task.Leaves uuid worker.db) :
    HoldsParent uuid parentUuid origin { world with dbWorker := some next } := by
  rcases AsyncDbWorker.runNext_cases ran with ⟨task, db, callback, queued, taskRun, dbEq, _⟩
  have success := succeeds task (by simp [queued])
  refine ⟨holds.fresh, holds.pending, ?_, ?_⟩
  · intro other otherRunning
    rw [← Option.some.inj otherRunning]
    have later := holds.later worker running
    rw [queued] at later
    exact later.tail
  · intro notPending other otherRunning
    rw [← Option.some.inj otherRunning, dbEq]
    have before := holds.settled notPending worker running
    rw [queued] at before
    exact parentAfterTasks_mono (hasParent_run taskRun success.1 success.2) before

end Tasks

section Removal

theorem HoldsParent.runRemovals (holds : HoldsParent uuid parentUuid origin world)
    (stays : uuid ∈ world.manager.registry → uuid ∈ world.runRemovals.manager.registry) :
    HoldsParent uuid parentUuid origin world.runRemovals := by
  have spares := sparesEntry_runRemovals uuid world
  have upserts : uuid ∈ world.runRemovals.manager.toUpsertUuids ↔
      uuid ∈ world.manager.toUpsertUuids :=
    ⟨spares.upserts, (spares.entry stays).2.1⟩
  refine holds.of_same ?_ (Nat.le_of_eq ?_) ?_ upserts ?_
  · rw [spares.frame]
  · rw [spares.frame]
  · rw [spares.frame]
  · intro pending
    rw [(spares.entry stays).1]
    exact holds.pending (upserts.mp pending)

theorem HoldsParent.process (holds : HoldsParent uuid parentUuid origin world)
    (stays : uuid ∈ world.manager.registry → uuid ∈ world.runRemovals.manager.registry)
    (loader : Loader) : HoldsParent uuid parentUuid origin (world.process loader) := by
  have removed := holds.runRemovals stays
  simp only [World.process]
  split
  · exact holds
  · apply HoldsParent.streamScenes
    split
    · exact removed
    · exact removed.flushPendingDbOps.queryProbes

end Removal

section Delivery

/-- During a delivery: the object holds its parent, and is not unloaded while its upsert is
pending. -/
structure DeliversParent (uuid parentUuid : Uuid) (origin : List Task) (before after : World) :
    Prop where
  holds : HoldsParent uuid parentUuid origin after
  upserts : uuid ∈ after.manager.toUpsertUuids ↔ uuid ∈ before.manager.toUpsertUuids
  rootless : uuid ∈ before.manager.toUpsertUuids → Rootless uuid before → Rootless uuid after

variable {before : World}

theorem DeliversParent.unloadCollected
    (delivers : DeliversParent uuid parentUuid origin before world) (objId : Uuid) :
    DeliversParent uuid parentUuid origin before (world.unloadCollected objId) := by
  rcases exists_unloadCollected world objId with
    ⟨objectDb, saveTasks, captures, registry, cache, objectRemoval, dirtyAabb, same, entries⟩
  refine ⟨?_, ?_, fun pending root => (delivers.rootless pending root).unloadCollected objId⟩
  · rw [same]
    refine delivers.holds.of_same rfl (Nat.le_refl _) rfl Iff.rfl ?_
    intro pending
    rcases delivers.holds.pending pending with ⟨data, found, parentEq⟩
    rcases entries uuid with still | detached
    · exact ⟨data, still.trans found, parentEq⟩
    · rw [found, Option.getD_some] at detached
      exact ⟨_, detached, parentEq⟩
  · rw [same]
    exact delivers.upserts

theorem DeliversParent.eraseRegistryEntry
    (delivers : DeliversParent uuid parentUuid origin before world) {erased : Uuid}
    (spared : uuid ∈ before.manager.toUpsertUuids → uuid ≠ erased) :
    DeliversParent uuid parentUuid origin before
      { world with manager := world.manager.eraseRegistryEntry erased } := by
  have upserts : uuid ∈ world.manager.toUpsertUuids.erase erased ↔
      uuid ∈ world.manager.toUpsertUuids := by
    rw [Table.mem_erase]
    exact ⟨fun pending => pending.2, fun pending =>
      ⟨spared (delivers.upserts.mp pending), pending⟩⟩
  refine ⟨delivers.holds.of_same rfl (Nat.le_refl _) rfl upserts ?_, upserts.trans delivers.upserts,
    ?_⟩
  · intro pending
    have distinct := spared (delivers.upserts.mp (upserts.mp pending))
    simp only [StreamManager.eraseRegistryEntry, Table.get?_erase_of_ne distinct]
    exact delivers.holds.pending (upserts.mp pending)
  · intro pending root data found
    simp only [StreamManager.eraseRegistryEntry, Table.get?_erase_of_ne (spared pending)] at found
    exact delivers.rootless pending root data found

theorem DeliversParent.applyObjects
    (delivers : DeliversParent uuid parentUuid origin before world)
    {dbObjects : Table Uuid ObjectData}
    (agrees : ∀ row ∈ dbObjects.get? uuid, row.parentUuid = parentUuid) :
    DeliversParent uuid parentUuid origin before
      { world with manager := world.manager.applyObjects dbObjects } := by
  have merged : ∀ data, world.manager.registry.get? uuid = some data →
      (world.manager.applyObjects dbObjects).registry.get? uuid =
        some { data with parentUuid := ((dbObjects.get? uuid).getD data).parentUuid } := by
    intro data found
    rw [StreamManager.get?_applyObjects, found]
    cases dbObjects.get? uuid <;> rfl
  rcases StreamManager.exists_applyObjects world.manager dbObjects with
    ⟨childrenMap, loadQueue, same⟩
  have upserts : uuid ∈ (world.manager.applyObjects dbObjects).toUpsertUuids ↔
      uuid ∈ world.manager.toUpsertUuids := by
    rw [same]
  refine ⟨delivers.holds.of_same rfl (Nat.le_refl _) rfl upserts ?_, upserts.trans delivers.upserts,
    ?_⟩
  · intro pending
    rcases delivers.holds.pending (upserts.mp pending) with ⟨data, found, parentEq⟩
    refine ⟨_, merged data found, ?_⟩
    cases listed : dbObjects.get? uuid with
    | none => exact parentEq
    | some row => exact agrees row listed
  · intro pending root data found
    rcases delivers.holds.pending (delivers.upserts.mpr pending) with ⟨here, hereFound, _⟩
    rw [show _ = _ from merged here hereFound, Option.some.injEq] at found
    rw [← found]
    exact delivers.rootless pending root here hereFound

theorem DeliversParent.onQueryResult
    (delivers : DeliversParent uuid parentUuid origin before world)
    {dbObjects : Table Uuid ObjectData}
    (upToDate : before.UpToDate uuid parentUuid (.onQueryResult dbObjects)) :
    DeliversParent uuid parentUuid origin before (world.onQueryResult dbObjects) := by
  have spared : ∀ stale ∈ world.manager.toUnload dbObjects,
      uuid ∈ before.manager.toUpsertUuids → uuid ≠ stale := by
    rintro stale listed pending rfl
    rcases StreamManager.mem_toUnload.mp listed with ⟨data, found, missing, live⟩
    have rootless : ¬ Rootless uuid before := fun root =>
      live (delivers.rootless pending root data found)
    simp only [Rootless, not_forall] at rootless
    rcases rootless with ⟨old, oldFound, oldLive⟩
    exact upToDate.2 pending (StreamManager.mem_toUnload.mpr ⟨old, oldFound, missing, oldLive⟩)
  apply onQueryResult_rule delivers
  · exact fun other pendingRemoval holds => ⟨holds.holds.of_same rfl (Nat.le_refl _) rfl Iff.rfl
      holds.holds.pending, holds.upserts, holds.rootless⟩
  · exact fun other objId holds _ => holds.unloadCollected objId
  · exact fun other stale holds listed => holds.eraseRegistryEntry (spared stale listed)
  · exact fun other holds => holds.applyObjects upToDate.1

theorem HoldsParent.flushCallbacks (holds : HoldsParent uuid parentUuid origin world)
    (upToDate : ∀ worker ∈ world.dbWorker, ∀ callback ∈ worker.completedCallbacks,
      world.UpToDate uuid parentUuid callback) :
    HoldsParent uuid parentUuid origin world.flushCallbacks := by
  have delivered : DeliversParent uuid parentUuid origin world world.flushCallbacks := by
    apply flushCallbacks_rule ⟨holds, Iff.rfl, fun _ root => root⟩
    · intro worker running
      refine ⟨⟨holds.fresh, holds.pending, ?_, ?_⟩, Iff.rfl, fun _ root => root⟩
      · intro other otherRunning
        rw [← Option.some.inj otherRunning]
        exact holds.later worker running
      · intro notPending other otherRunning
        rw [← Option.some.inj otherRunning]
        exact holds.settled notPending worker running
    · intro other worker dbObjects delivers running completed
      exact delivers.onQueryResult (upToDate worker running _ completed)
  exact delivered.holds

end Delivery

section Runs

/-- The tasks that wait for the database thread. -/
def waitingTasks (world : World) : List Task :=
  (world.dbWorker.map AsyncDbWorker.taskQueue).getD []

theorem waitingTasks_eq {worker : AsyncDbWorker} (running : worker ∈ world.dbWorker) :
    world.waitingTasks = worker.taskQueue := by
  rw [waitingTasks, Option.mem_def.mp running, Option.map_some, Option.getD_some]

/-- An update of another object is one of the steps that may follow. -/
theorem HoldsParent.updateObject (holds : HoldsParent uuid parentUuid origin world)
    {id : ObjectID} {other : StreamObjectNode} (distinct : other.uuid ≠ uuid)
    {objectDb : ObjectDB} :
    HoldsParent uuid parentUuid origin
      { world with objectDb, manager := world.manager.updateObject id other } := by
  rcases StreamManager.updateObject_cases world.manager id other with
    ⟨_, same⟩ | ⟨_, registry, childrenMap, same, entries⟩
  · rw [same]
    exact holds.of_same rfl (Nat.le_refl _) rfl Iff.rfl holds.pending
  · rw [same]
    have upserts : uuid ∈ world.manager.toUpsertUuids.insert other.uuid () ↔
        uuid ∈ world.manager.toUpsertUuids := by
      rw [Table.mem_insert]
      exact or_iff_right fun own => distinct own.symm
    refine holds.of_same rfl (Nat.le_refl _) rfl upserts ?_
    intro pending
    rcases holds.pending (upserts.mp pending) with ⟨data, found, parentEq⟩
    refine ⟨data, ?_, parentEq⟩
    rw [show registry.get? uuid = _ from entries uuid, if_neg fun own => distinct own.symm]
    exact found

theorem HoldsParent.step (holds : HoldsParent uuid parentUuid origin world) {event : Event}
    {next : World} (alone : LeavesAlone uuid world event)
    (undisputed : Undisputed uuid parentUuid world event)
    (stepped : world.step event = some next) : HoldsParent uuid parentUuid origin next := by
  cases happens_of_step stepped with
  | updateObject id newParent node found =>
      have other : ({ node with parentUuid := newParent } : StreamObjectNode).uuid ≠ uuid :=
        alone node found
      exact holds.updateObject other
  | process loader => exact holds.process alone loader
  | workerStep worker running ran ranEq => exact holds.runNext running ranEq (alone worker running)
  | flushCallbacks => exact holds.flushCallbacks undisputed
  | create | enter | exit | reparent | queueFree | deleteQueued | addObject | removeObject
  | aabbChanged | boxChanged | loadProbe | unloadProbe | asyncSave => exact alone.elim

/-- The update marks the object with its new parent. -/
theorem holdsParent_updateObject {id : ObjectID} {node : StreamObjectNode} {next : World}
    (found : world.objectDb.getInstance id = some node)
    (registered : node.uuid ∈ world.manager.registry)
    (fresh : ∀ index, world.generated ≤ index → (world.uuidGenerator index).1 ≠ node.uuid)
    (stepped : world.step (.updateObject id parentUuid) = some next) :
    HoldsParent node.uuid parentUuid next.waitingTasks next := by
  simp only [World.step, found] at stepped
  split at stepped
  · simp at stepped
  · rw [Option.some.injEq] at stepped
    subst stepped
    rcases StreamManager.updateObject_cases world.manager id { node with parentUuid } with
      ⟨absent, _⟩ | ⟨_, registry, childrenMap, same, entries⟩
    · exact absurd registered absent
    · rw [same]
      have pending : node.uuid ∈ world.manager.toUpsertUuids.insert node.uuid () :=
        Table.mem_insert.mpr (Or.inl rfl)
      refine ⟨fresh, fun _ => ⟨{ parentUuid, nodeRoot := id }, ?_, rfl⟩, ?_,
        fun notPending => absurd pending notPending⟩
      · exact (entries node.uuid).trans (if_pos rfl)
      · intro worker running
        refine ⟨worker.taskQueue, [], (List.append_nil _).symm, ?_, by simp⟩
        rw [waitingTasks_eq running]

/-- After an update of a registered object to a parent, in every run in which the object is neither
updated again nor removed, statements succeed, and no result is delivered that has another parent
for it or lacks it while its upsert is pending: the tasks pushed since carry the parent, and when
its upsert is handed over and the queue is empty its row has the parent. -/
theorem parentChange_wins {start first : World} {id : ObjectID} {node : StreamObjectNode}
    (found : start.objectDb.getInstance id = some node)
    (registered : node.uuid ∈ start.manager.registry)
    (fresh : ∀ index, start.generated ≤ index → (start.uuidGenerator index).1 ≠ node.uuid)
    (updated : start.step (.updateObject id parentUuid) = some first)
    (reached : Reaches step (fun state event => LeavesAlone node.uuid state event ∧
      Undisputed node.uuid parentUuid state event) first world) :
    ∀ worker ∈ world.dbWorker,
      LaterCarry node.uuid parentUuid first.waitingTasks worker.taskQueue ∧
      (node.uuid ∉ world.manager.toUpsertUuids → worker.taskQueue = [] →
        worker.db.HasParent node.uuid parentUuid) := by
  have holds : HoldsParent node.uuid parentUuid first.waitingTasks world :=
    reached.invariant (holdsParent_updateObject found registered fresh updated)
      fun _ _ _ before guarded stepped => before.step guarded.1 guarded.2 stepped
  intro worker running
  refine ⟨holds.later worker running, ?_⟩
  intro handedOver drained
  have settled := holds.settled handedOver worker running
  rw [drained] at settled
  exact settled

/-- Two objects enter next to a probe and are stored, and the query around it has run. -/
def twoStored : World :=
  runAll step ([.loadProbe 50 unitBox, .create Uuid.nil Uuid.nil unitBox, .enter 1,
    .create Uuid.nil Uuid.nil unitBox, .enter 2, .process eagerLoader, .workerStep, .workerStep] ++
    List.replicate 3 (.process eagerLoader) ++ [.workerStep]) blank

/-- The result is delivered first. -/
def resultDelivered : World :=
  runAll step [.flushCallbacks] twoStored

theorem parentChange_resultDelivered :
    ∃ first, resultDelivered.step (.updateObject 1 102) = some first ∧
      ∃ worker ∈ (runAll step [.process eagerLoader, .workerStep] first).dbWorker,
        worker.taskQueue = [] ∧ worker.db.HasParent 101 102 := by
  let first := runAll step [.updateObject 1 102] resultDelivered
  let final := runAll step [.process eagerLoader, .workerStep] first
  have reached : Reaches step (fun state event => LeavesAlone 101 state event ∧
      Undisputed 101 102 state event) first final :=
    reaches_runAll (by decide +kernel) (by decide +kernel)
  have found : resultDelivered.objectDb.getInstance 1 =
      some { uuid := 101, parentUuid := Uuid.nil, aabb := unitBox, mount := .manager } := by
    decide +kernel
  have stored : Reaches step (fun _ _ => True) blank twoStored :=
    reaches_runAll (by decide +kernel) (by decide +kernel)
  have delivered : Reaches step (fun _ _ => True) twoStored resultDelivered :=
    reaches_runAll (by decide +kernel) (by decide +kernel)
  have generator : resultDelivered.uuidGenerator = counting :=
    (steady_of_reaches (stored.trans delivered)).uuidGenerator
  have fresh : ∀ index, resultDelivered.generated ≤ index →
      (resultDelivered.uuidGenerator index).1 ≠ 101 := by
    have two : resultDelivered.generated = 2 := by decide +kernel
    intro index issued
    rw [generator, counting, if_neg (by omega)]
    decide
  have updated : resultDelivered.step (.updateObject 1 102) = some first :=
    step_eq_runAll (by decide +kernel)
  have drained : ∀ worker ∈ final.dbWorker, worker.taskQueue = [] := by decide +kernel
  rcases Option.isSome_iff_exists.mp (show final.dbWorker.isSome by decide +kernel) with
    ⟨worker, running⟩
  have holds := parentChange_wins found (by decide +kernel) fresh updated reached worker running
  refine ⟨first, updated, worker, running, drained worker running, ?_⟩
  exact holds.2 (by decide +kernel) (drained worker running)

/-- The object is put under the other one while the result waits. -/
theorem parentChange_reverted :
    let first := runAll step [.updateObject 1 102] twoStored
    let final := runAll step [.flushCallbacks, .process eagerLoader, .workerStep] first
    101 ∈ twoStored.manager.registry ∧
    Reaches step (LeavesAlone 101) first final ∧ 101 ∉ final.manager.toUpsertUuids ∧
    ∃ worker ∈ final.dbWorker, worker.taskQueue = [] ∧ 102 ∈ worker.db.objects.rows ∧
      ¬ worker.db.HasParent 101 102 := by
  intro first final
  refine ⟨by decide +kernel, reaches_runAll (by decide +kernel) (by decide +kernel), ?_⟩
  refine ⟨by decide +kernel, ?_⟩
  simp only [StreamSqliteDB.HasParent]
  decide +kernel

end Runs

end World

end GodotStream
