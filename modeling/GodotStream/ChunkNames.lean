import GodotStream.StreamSqliteDB

/-!
# Chunk ids as names

`query_chunk` caches what it returns on every path, also the `-1` of a call whose
statements failed. This file follows sequences of calls with failing statements: an
id in the cache is the id of the chunk's row, or the `-1` of such a call, and rows are
never renamed. The ids are therefore a one-to-one naming exactly as long as no cached
`-1` answers a call whose own statements would succeed.
-/

namespace GodotStream

open Storage

/-- A call of `query_chunk`, with the failures that its statements would meet. -/
structure ChunkCall where
  chunk : Chunk
  selectFails : Bool
  insertFails : Bool

namespace StreamSqliteDB

/-- `query_chunk` on a writable database. A step that fails returns no row and changes nothing, and
the caller cannot tell it from a statement without rows. -/
def queryChunkFaulty (db : StreamSqliteDB) (request : ChunkCall) : ℤ × StreamSqliteDB :=
  match db.chunkCache.tryGet request.chunk with
  | (some id, cache) => (id, { db with chunkCache := cache })
  | (none, cache) =>
      match if request.selectFails then none else db.chunks.find request.chunk with
      | some id => (id, { db with chunkCache := (cache.put request.chunk id).1 })
      | none =>
          let inserted :=
            if request.insertFails then (none, db.chunks) else db.chunks.insert request.chunk
          let id := inserted.1.getD (-1)
          (id, { db with
            chunks := inserted.2
            chunkCache := (cache.put request.chunk id).1 })

/-- Without failures this is the function that the flush task calls. -/
theorem queryChunkFaulty_of_succeeding (db : StreamSqliteDB) (chunk : Chunk) :
    db.queryChunkFaulty { chunk, selectFails := false, insertFails := false } =
      db.queryChunk chunk :=
  rfl

/-- The statements that the call would run without the cache succeed. -/
def Succeeds (db : StreamSqliteDB) (request : ChunkCall) : Prop :=
  request.selectFails = false ∧
    (db.chunks.find request.chunk = none → request.insertFails = false)

instance (db : StreamSqliteDB) (request : ChunkCall) : Decidable (db.Succeeds request) := by
  unfold Succeeds
  infer_instance

/-- The database after a sequence of calls. -/
def runChunkCalls (calls : List ChunkCall) (db : StreamSqliteDB) : StreamSqliteDB :=
  calls.foldl (fun db request => (db.queryChunkFaulty request).2) db

/-- The chunks and answers of the calls whose own statements would succeed. -/
def succeededAnswers : List ChunkCall → StreamSqliteDB → List (Chunk × ℤ)
  | [], _ => []
  | request :: rest, db =>
      let answer := db.queryChunkFaulty request
      (if db.Succeeds request then [(request.chunk, answer.1)] else []) ++
        succeededAnswers rest answer.2

/-- The id is that of the single row with the coordinates of the chunk. -/
def Names (db : StreamSqliteDB) (chunk : Chunk) (id : ℤ) : Prop :=
  db.chunks.chunkMetadata.get? id = some chunk ∧
    ∀ other, db.chunks.chunkMetadata.get? other = some chunk → other = id

/-- The answers of the succeeding calls are the ids of their chunks' rows, the same for the same
chunk and different for different ones. -/
def NamesOneToOne (calls : List ChunkCall) (db : StreamSqliteDB) : Prop :=
  (∀ answer ∈ succeededAnswers calls db, (runChunkCalls calls db).Names answer.1 answer.2) ∧
    ∀ first ∈ succeededAnswers calls db, ∀ second ∈ succeededAnswers calls db,
      first.2 = second.2 ↔ first.1 = second.1

/-- No call whose own statements would succeed finds the `-1` of an earlier failure in the
cache. -/
def NeverPoisoned : List ChunkCall → StreamSqliteDB → Prop
  | [], _ => True
  | request :: rest, db =>
      (db.Succeeds request → db.chunkCache.peek request.chunk ≠ some (-1)) ∧
        NeverPoisoned rest (db.queryChunkFaulty request).2

instance decidableNeverPoisoned : ∀ calls db, Decidable (NeverPoisoned calls db)
  | [], _ => isTrue trivial
  | request :: rest, db =>
      have := decidableNeverPoisoned rest (db.queryChunkFaulty request).2
      inferInstanceAs (Decidable (_ ∧ _))

/-- A cached id is the id of the chunk's row, or the `-1` of a failed call, which is no row. -/
structure NamesOrFailed (db : StreamSqliteDB) : Prop where
  cached : ∀ chunk id, db.chunkCache.peek chunk = some id →
    db.chunks.chunkMetadata.get? id = some chunk ∨ id = -1
  noRow : (-1 : ℤ) ∉ db.chunks.chunkMetadata

/-- Rows are kept with their ids. -/
def KeepsNames (db after : StreamSqliteDB) : Prop :=
  ∀ id chunk, db.chunks.chunkMetadata.get? id = some chunk →
    after.chunks.chunkMetadata.get? id = some chunk

section OneCall

variable {db : StreamSqliteDB} {request : ChunkCall}

/-- Caching the answer of a call keeps the invariant when the answer is a row's id or `-1`. -/
theorem NamesOrFailed.put (names : db.NamesOrFailed) {cache : FixedSizedCache Chunk ℤ}
    {index : ChunkIndex} {chunk : Chunk} {id : ℤ}
    (cacheEq : ∀ other, cache.peek other = db.chunkCache.peek other)
    (kept : ∀ id other, db.chunks.chunkMetadata.get? id = some other →
      index.chunkMetadata.get? id = some other)
    (noRow : (-1 : ℤ) ∉ index.chunkMetadata)
    (answer : index.chunkMetadata.get? id = some chunk ∨ id = -1) :
    ({ db with chunks := index, chunkCache := (cache.put chunk id).1 } :
      StreamSqliteDB).NamesOrFailed where
  cached := by
    intro other otherId found
    by_cases same : other = chunk
    · subst same
      rw [FixedSizedCache.peek_put_self, Option.some.injEq] at found
      exact found ▸ answer
    · have old := FixedSizedCache.peek_put_of_ne same found
      rw [cacheEq] at old
      exact (names.cached other otherId old).imp_left (kept otherId other)
  noRow := noRow

theorem neg_one_not_mem_insert (noRow : (-1 : ℤ) ∉ db.chunks.chunkMetadata) (chunk : Chunk) :
    (-1 : ℤ) ∉ (db.chunks.insert chunk).2.chunkMetadata := by
  cases found : db.chunks.find chunk with
  | some id =>
      rw [ChunkIndex.insert_of_find_some found]
      exact noRow
  | none =>
      rw [(ChunkIndex.insert_of_find_none found).2, Table.mem_insert, not_or]
      refine ⟨?_, noRow⟩
      have positive := (ChunkIndex.le_foldl_max db.chunks.chunkMetadata.keys 0).1
      simp only [ChunkIndex.nextId]
      omega

/-- What the insert returns is the id of a row for the chunk, or nothing. -/
theorem get?_insert_getD (chunk : Chunk) :
    (db.chunks.insert chunk).2.chunkMetadata.get? ((db.chunks.insert chunk).1.getD (-1)) =
        some chunk ∨ (db.chunks.insert chunk).1.getD (-1) = -1 := by
  cases found : db.chunks.find chunk with
  | some id =>
      rw [ChunkIndex.insert_of_find_some found]
      exact Or.inr rfl
  | none =>
      rcases ChunkIndex.insert_of_find_none found with ⟨idEq, metadataEq⟩
      rw [idEq, metadataEq, Option.getD_some, Table.get?_insert_self]
      exact Or.inl rfl

/-- What one call does: the invariant and the rows are kept; a cached `-1` is returned as it is, and
without one a call whose statements would succeed returns the id of the chunk's row. -/
theorem queryChunkFaulty_spec (names : db.NamesOrFailed) (request : ChunkCall) :
    (db.queryChunkFaulty request).2.NamesOrFailed ∧
    db.KeepsNames (db.queryChunkFaulty request).2 ∧
    (db.chunkCache.peek request.chunk = some (-1) → (db.queryChunkFaulty request).1 = -1) ∧
    (db.Succeeds request → db.chunkCache.peek request.chunk ≠ some (-1) →
      (db.queryChunkFaulty request).2.chunks.chunkMetadata.get? (db.queryChunkFaulty request).1 =
        some request.chunk) := by
  rcases request with ⟨chunk, selectFails, insertFails⟩
  have hit := FixedSizedCache.tryGet_fst db.chunkCache chunk
  have cacheEq := FixedSizedCache.peek_tryGet db.chunkCache chunk
  simp only [queryChunkFaulty, Succeeds]
  generalize db.chunkCache.tryGet chunk = answer at hit cacheEq
  rcases answer with ⟨_ | id, cache⟩
  · have missed : db.chunkCache.peek chunk = none := hit.symm
    have kept : ∀ id other, db.chunks.chunkMetadata.get? id = some other →
        db.chunks.chunkMetadata.get? id = some other := fun _ _ stored => stored
    simp only [missed, reduceCtorEq, false_implies, ne_eq, not_false_eq_true, true_implies,
      true_and]
    cases selected : if selectFails then none else db.chunks.find chunk with
    | some id =>
        have stored : db.chunks.chunkMetadata.get? id = some chunk := by
          split at selected
          · simp at selected
          · exact ChunkIndex.find_eq_some.mp selected
        exact ⟨names.put cacheEq kept names.noRow (Or.inl stored), kept, fun _ => stored⟩
    | none =>
        cases insertFails with
        | true =>
            refine ⟨names.put cacheEq kept names.noRow (Or.inr rfl), kept, ?_⟩
            rintro ⟨selects, inserts⟩
            simp only [selects, Bool.false_eq_true, if_false] at selected
            exact absurd (inserts selected) (by simp)
        | false =>
            have keptRows : ∀ id other, db.chunks.chunkMetadata.get? id = some other →
                (db.chunks.insert chunk).2.chunkMetadata.get? id = some other :=
              fun _ _ stored => ChunkIndex.get?_insert_of_stored chunk stored
            refine ⟨names.put cacheEq keptRows (neg_one_not_mem_insert names.noRow chunk)
              (get?_insert_getD chunk), keptRows, ?_⟩
            rintro ⟨selects, _⟩
            simp only [selects, Bool.false_eq_true, if_false] at selected
            rcases ChunkIndex.insert_of_find_none selected with ⟨idEq, metadataEq⟩
            simp only [Bool.false_eq_true, if_false, idEq, metadataEq, Option.getD_some,
              Table.get?_insert_self]
  · have cached : db.chunkCache.peek chunk = some id := hit.symm
    refine ⟨⟨?_, names.noRow⟩, fun _ _ stored => stored, ?_, ?_⟩
    · intro other otherId found
      exact names.cached other otherId ((cacheEq other).symm.trans found)
    · intro poisoned
      exact Option.some.inj (cached.symm.trans poisoned)
    · intro _ clean
      rcases names.cached chunk id cached with stored | failed
      · exact stored
      · exact absurd (cached.trans (congrArg some failed)) clean

end OneCall

section Calls

variable {db : StreamSqliteDB} {calls : List ChunkCall}

theorem runChunkCalls_spec (names : db.NamesOrFailed) (calls : List ChunkCall) :
    (runChunkCalls calls db).NamesOrFailed ∧ db.KeepsNames (runChunkCalls calls db) := by
  induction calls generalizing db with
  | nil => exact ⟨names, fun _ _ stored => stored⟩
  | cons request rest ih =>
      rcases queryChunkFaulty_spec names request with ⟨namesAfter, keeps, _, _⟩
      rcases ih namesAfter with ⟨namesEnd, keepsRest⟩
      exact ⟨namesEnd, fun id chunk stored => keepsRest id chunk (keeps id chunk stored)⟩

theorem names_iff {chunk : Chunk} {id : ℤ} :
    db.Names chunk id ↔ db.chunks.chunkMetadata.get? id = some chunk := by
  constructor
  · exact And.left
  · intro stored
    exact ⟨stored, fun other otherStored =>
      db.chunks.uniqueCoords other id chunk otherStored stored⟩

/-- The answer of one succeeding call names its chunk in the end exactly when the cache was not
poisoned. -/
theorem names_answer_iff (names : db.NamesOrFailed) {request : ChunkCall}
    (succeeds : db.Succeeds request) (rest : List ChunkCall) :
    (runChunkCalls (request :: rest) db).Names request.chunk (db.queryChunkFaulty request).1 ↔
      db.chunkCache.peek request.chunk ≠ some (-1) := by
  rcases queryChunkFaulty_spec names request with ⟨namesAfter, _, poisoned, answered⟩
  rcases runChunkCalls_spec namesAfter rest with ⟨namesEnd, keepsRest⟩
  rw [names_iff]
  constructor
  · intro stored cached
    rw [poisoned cached] at stored
    exact namesEnd.noRow (Table.mem_of_get? stored)
  · intro clean
    exact keepsRest _ _ (answered succeeds clean)

theorem names_succeededAnswers_iff (names : db.NamesOrFailed) :
    (∀ answer ∈ succeededAnswers calls db, (runChunkCalls calls db).Names answer.1 answer.2) ↔
      NeverPoisoned calls db := by
  induction calls generalizing db with
  | nil => simp [succeededAnswers, NeverPoisoned]
  | cons request rest ih =>
      have restIff := ih (queryChunkFaulty_spec names request).1
      simp only [succeededAnswers, List.mem_append, or_imp, forall_and, NeverPoisoned]
      refine and_congr ?_ restIff
      by_cases succeeds : db.Succeeds request
      · simp only [succeeds, if_true, List.mem_singleton, forall_eq, true_implies]
        exact names_answer_iff names succeeds rest
      · simp [succeeds]

end Calls

/-- From a fresh cache of any capacity over any table with ids other than `-1`, a sequence of calls
with any failures names chunks one-to-one exactly when no call whose own statements would succeed
is answered with a cached `-1`. -/
theorem queryChunk_names_iff {db : StreamSqliteDB} (capacity : ℕ) (calls : List ChunkCall)
    (noRow : (-1 : ℤ) ∉ db.chunks.chunkMetadata) :
    NamesOneToOne calls { db with chunkCache := .make capacity } ↔
      NeverPoisoned calls { db with chunkCache := .make capacity } := by
  have names : NamesOrFailed { db with chunkCache := .make capacity } := ⟨by simp, noRow⟩
  rw [← names_succeededAnswers_iff names]
  constructor
  · exact And.left
  · intro named
    refine ⟨named, ?_⟩
    intro first firstMem second secondMem
    have firstNamed := names_iff.mp (named first firstMem)
    have secondNamed := names_iff.mp (named second secondMem)
    constructor
    · intro sameId
      rw [sameId] at firstNamed
      exact Option.some.inj (firstNamed.symm.trans secondNamed)
    · intro sameChunk
      rw [sameChunk] at firstNamed
      exact ChunkIndex.uniqueCoords _ _ _ _ firstNamed secondNamed

/-- A chunk that is asked for twice, first with the given failures. -/
def askTwice (selectFails insertFails : Bool) : List ChunkCall :=
  [⟨⟨0, 0, 0, 0⟩, selectFails, insertFails⟩, ⟨⟨0, 0, 0, 0⟩, false, false⟩]

theorem queryChunk_names_afterSelectFailure :
    NamesOneToOne (askTwice true false) { create with chunkCache := .make 500 } :=
  (queryChunk_names_iff 500 _ (by decide +kernel)).mpr (by decide +kernel)

/-- A failed insert, and a failed select for a chunk that has a row, both leave `-1` behind. -/
theorem queryChunk_keepsFailure :
    succeededAnswers (askTwice false true) { create with chunkCache := .make 500 } =
      [(⟨0, 0, 0, 0⟩, -1)] ∧
    ¬ NamesOneToOne (askTwice false true) { create with chunkCache := .make 500 } ∧
    succeededAnswers (askTwice true false)
        { (create.queryChunk ⟨0, 0, 0, 0⟩).2 with chunkCache := .make 500 } =
      [(⟨0, 0, 0, 0⟩, -1)] := by
  have failed : succeededAnswers (askTwice false true) { create with chunkCache := .make 500 } =
      [(⟨0, 0, 0, 0⟩, -1)] := by decide +kernel
  refine ⟨failed, ?_, by decide +kernel⟩
  rintro ⟨named, _⟩
  have stored := (named (⟨0, 0, 0, 0⟩, -1) (by rw [failed]; exact List.mem_singleton_self _)).1
  exact absurd stored (by decide +kernel)

end StreamSqliteDB

end GodotStream
