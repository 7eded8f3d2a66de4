import GodotStream.Deletion
import GodotStream.Lifecycle

/-!
# What a departure leaves to the database

When the manager leaves the tree it forgets what it has recorded, changed boxes and pending
upserts, and then flushes. Only the pending deletes are left to flush, so an object that
waits for its upsert has a row afterwards only if an earlier task has made it.
-/

namespace GodotStream

open Storage Run

/-- The object has a row with the parent. -/
def StreamSqliteDB.HasRow (db : StreamSqliteDB) (uuid parentUuid : Uuid) : Prop :=
  uuid ∈ db.objects.rows ∧ db.objects.parentOf uuid = parentUuid.toColumn

instance (db : StreamSqliteDB) (uuid parentUuid : Uuid) : Decidable (db.HasRow uuid parentUuid) :=
  inferInstanceAs (Decidable (_ ∧ _))

/-- A flush that only deletes. -/
def FlushBatch.deletes (remove : Table Uuid Unit) : FlushBatch :=
  { upsertData := [], remove, dirtyData := ∅ }

/-- A flush that only deletes comes to its end, and leaves what no delete reaches. -/
theorem flushTask_deletes (remove : Table Uuid Unit) (db : StreamSqliteDB) :
    ∃ state, flushTask (.deletes remove) db = some state ∧ ∀ uuid parentUuid,
      state.db.HasRow uuid parentUuid ↔
        db.HasRow uuid parentUuid ∧ db.objects.Spares remove.keys uuid := by
  refine ⟨_, rfl, ?_⟩
  intro uuid parentUuid
  have rows : ((db.prepare (.deletes remove)).objects.rows.get? uuid) =
      if db.objects.Spares remove.keys uuid then db.objects.rows.get? uuid else none := by
    rw [← ObjectTable.get?_deleteAll, ← StreamSqliteDB.objects_runDeletes]
    rfl
  simp only [StreamSqliteDB.HasRow, Table.mem_iff_get?, ObjectTable.parentOf, rows]
  by_cases spares : db.objects.Spares remove.keys uuid
  · simp [spares]
  · simp [spares]

namespace World

variable {world : World}

/-- The object waits for its upsert, and for no delete. -/
structure AwaitsUpsert (world : World) (uuid : Uuid) (data : ObjectData) : Prop where
  pending : uuid ∈ world.manager.toUpsertUuids
  registered : world.manager.registry.get? uuid = some data
  unrecorded : uuid ∉ world.manager.objectRemoval
  kept : uuid ∉ world.manager.toRemove

/-- Without upserts and changed boxes a flush queues at most the pending deletes. -/
theorem dbWorker_flushPendingDbOps {worker : AsyncDbWorker} (running : world.dbWorker = some worker)
    (noUpserts : world.manager.toUpsertUuids = ∅) (noBoxes : world.manager.dirtyAabb = ∅) :
    world.manager.toRemove.keys = [] ∧ world.flushPendingDbOps.dbWorker = some worker ∨
      world.flushPendingDbOps.dbWorker =
        some (worker.pushTask (.flush (.deletes world.manager.toRemove))) := by
  have captured : world.captureBatch = .deletes world.manager.toRemove := by
    simp only [captureBatch, StreamManager.upsertData, dirtyData, noUpserts, noBoxes]
    rfl
  simp only [flushPendingDbOps, running, captured]
  split
  case isTrue nothing =>
    simp only [Bool.and_eq_true, List.isEmpty_iff] at nothing
    exact Or.inl ⟨by rw [Table.keys, nothing.1.2, List.map_nil], running⟩
  case isFalse something =>
    right
    have deletes : world.manager.toRemove.entries.isEmpty = false := by
      rw [noUpserts, noBoxes] at something
      simpa using something
    simp only [FlushBatch.deletes, deletes, Bool.and_false, Bool.false_and, Bool.false_eq_true,
      if_false, pushTask, Option.map_some]

/-- A departure queues at most a flush of the pending deletes. -/
theorem dbWorker_leaveTree {worker : AsyncDbWorker} (running : world.dbWorker = some worker)
    (children : List ObjectID) :
    world.manager.toRemove.keys = [] ∧ (world.leaveTree children).dbWorker = some worker ∨
      (world.leaveTree children).dbWorker =
        some (worker.pushTask (.flush (.deletes world.manager.toRemove))) := by
  rcases exists_foldl_childExited world children with ⟨saveTasks, captures, _, _, same⟩
  let cleared : World := { world with
    saveTasks
    captures
    manager := { world.manager with
      connected := false
      objectRemoval := ∅
      dirtyAabb := ∅
      toUpsertUuids := ∅
      loadQueue := []
      loadedQueue := [] } }
  have left : (world.leaveTree children).dbWorker = cleared.flushPendingDbOps.dbWorker := by
    simp only [leaveTree, _exitTree, same]
    rfl
  have stillRunning : cleared.dbWorker = some worker := running
  rw [left]
  exact dbWorker_flushPendingDbOps stillRunning rfl rfl

/-- After a departure and the end of every queued task, each object that waited for its upsert has
its row if and only if the tasks queued before leave the row and no delete reaches it. -/
theorem departure_keeps_iff {worker : AsyncDbWorker} (running : world.dbWorker = some worker)
    {drained : StreamSqliteDB}
    (drains : AsyncDbWorker.drain worker.taskQueue worker.db = some drained)
    (children : List ObjectID) :
    ∃ left final, (world.leaveTree children).dbWorker = some left ∧
      AsyncDbWorker.drain left.taskQueue left.db = some final ∧
      ((∀ uuid data, world.AwaitsUpsert uuid data → final.HasRow uuid data.parentUuid) ↔
        ∀ uuid data, world.AwaitsUpsert uuid data → drained.HasRow uuid data.parentUuid ∧
          drained.objects.Spares world.manager.toRemove.keys uuid) := by
  rcases dbWorker_leaveTree running children with ⟨nothing, same⟩ | flushed
  · refine ⟨worker, drained, same, drains, ?_⟩
    have spares (uuid : Uuid) : drained.objects.Spares world.manager.toRemove.keys uuid := by
      rw [nothing]
      exact fun root listed => absurd listed List.not_mem_nil
    simp only [spares, and_true]
  · rcases flushTask_deletes world.manager.toRemove drained with ⟨state, ended, rows⟩
    refine ⟨_, state.db, flushed, ?_, ?_⟩
    · simp only [AsyncDbWorker.pushTask, AsyncDbWorker.drain_append, drains, Option.bind_some,
        AsyncDbWorker.drain, Task.run, ended, Option.map_some]
    · simp only [rows]

/-- A node has just entered. -/
def newcomer : World :=
  runAll step [.create Uuid.nil Uuid.nil unitBox, .enter 1] blank

theorem departure_newcomer :
    ∃ left final, (newcomer.leaveTree [1]).dbWorker = some left ∧
      AsyncDbWorker.drain left.taskQueue left.db = some final ∧
      ((∀ uuid data, newcomer.AwaitsUpsert uuid data → final.HasRow uuid data.parentUuid) ↔
        ∀ uuid data, newcomer.AwaitsUpsert uuid data →
          StreamSqliteDB.create.HasRow uuid data.parentUuid ∧
            StreamSqliteDB.create.objects.Spares newcomer.manager.toRemove.keys uuid) :=
  departure_keeps_iff rfl rfl [1]

/-- Its object is registered and waits for its upsert, and has no row after the departure. -/
theorem newcomer_lost :
    Reaches step (fun _ _ => True) blank newcomer ∧
      newcomer.AwaitsUpsert 101 { parentUuid := Uuid.nil, nodeRoot := 1 } ∧
      ∃ left final, (newcomer.leaveTree [1]).dbWorker = some left ∧
        AsyncDbWorker.drain left.taskQueue left.db = some final ∧
        ¬ final.HasRow 101 Uuid.nil := by
  refine ⟨reaches_runAll (by decide +kernel) (by decide +kernel), ?_, _, _, rfl, rfl,
    by decide +kernel⟩
  exact ⟨by decide +kernel, by decide +kernel, by decide +kernel, by decide +kernel⟩

end World

end GodotStream
