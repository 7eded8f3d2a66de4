import GodotStream.World

/-!
# Polling the probes

The polling loop visits as many slots as there were probes at its start. A probe that is
gone is erased on the way, which moves the last stored id into its slot and takes a slot
away at the end. The loop therefore survives a stale id only where it is stored last.
-/

namespace GodotStream

open Storage

/-- The probe set and the boxes after the first slots. -/
def polledAfter (probes : Table ObjectID AABB) (registered : Table ObjectID Unit) (slots : ℕ) :
    Table ObjectID Unit × List AABB :=
  (List.range slots).foldl (World.pollProbe probes) (registered, [])

/-- The id that the loop reads in a slot. -/
def readAt (probes : Table ObjectID AABB) (registered : Table ObjectID Unit) (slot : ℕ) :
    Option ObjectID :=
  (polledAfter probes registered slot).1.keys[slot]?

/-- No slot is read outside of the storage, the loop comes to each live probe exactly once and
collects the boxes of the live probes, and the live ids are the ones that stay registered. -/
structure SurvivesStale (probes : Table ObjectID AABB) (registered : Table ObjectID Unit) :
    Prop where
  inBounds : ∀ slot < registered.entries.length,
    slot < (polledAfter probes registered slot).1.entries.length
  once : ∀ id ∈ registered, id ∈ probes →
    ∃! slot, slot < registered.entries.length ∧ readAt probes registered slot = some id
  boxes : (polledAfter probes registered registered.entries.length).2.Perm
    (registered.keys.filterMap probes.get?)
  live : ∀ id, id ∈ (polledAfter probes registered registered.entries.length).1 ↔
    id ∈ registered ∧ id ∈ probes

section Polling

variable {probes : Table ObjectID AABB} {registered : Table ObjectID Unit}

/-- The fourth frame in a row leaves what the loop leaves. -/
theorem queryProbes_eq_polled {world : World} (due : 3 ≤ world.manager.queryProcess) :
    world.queryProbes.manager.registeredProbes =
      (polledAfter world.probes world.manager.registeredProbes
        world.manager.registeredProbes.entries.length).1 := by
  simp only [World.queryProbes, ge_iff_le]
  rw [if_pos (by omega)]
  split <;> rfl

theorem polledAfter_succ (slots : ℕ) :
    polledAfter probes registered (slots + 1) =
      World.pollProbe probes (polledAfter probes registered slots) slots := by
  rw [polledAfter, List.range_succ, List.foldl_append]
  rfl

theorem pollProbe_eq (probes : Table ObjectID AABB) (state : Table ObjectID Unit × List AABB)
    (slot : ℕ) :
    World.pollProbe probes state slot =
      match state.1.keys[slot]? with
      | none => state
      | some id =>
          match probes.get? id with
          | some aabb => (state.1, state.2 ++ [aabb])
          | none => (state.1.erase id, state.2) := by
  rw [World.pollProbe, Table.keys, List.getElem?_map]
  cases state.1.entries[slot]? <;> rfl

theorem length_pollProbe_le (state : Table ObjectID Unit × List AABB) (slot : ℕ) :
    (World.pollProbe probes state slot).1.entries.length ≤ state.1.entries.length := by
  rw [pollProbe_eq]
  split
  · exact le_rfl
  · split
    · exact le_rfl
    · exact Table.length_erase_le _ _

/-- The storage only shrinks. -/
theorem length_polledAfter_anti {first later : ℕ} (ordered : first ≤ later) :
    (polledAfter probes registered later).1.entries.length ≤
      (polledAfter probes registered first).1.entries.length := by
  induction later, ordered using Nat.le_induction with
  | base => exact le_rfl
  | succ later _ ih =>
      rw [polledAfter_succ]
      exact (length_pollProbe_le _ _).trans ih

/-- While the slots hold live probes, nothing is erased and their boxes are collected in order. -/
theorem polledAfter_of_live {slots : ℕ}
    (live : ∀ id ∈ registered.keys.take slots, id ∈ probes) :
    polledAfter probes registered slots =
      (registered, (registered.keys.take slots).filterMap probes.get?) := by
  induction slots with
  | zero => rfl
  | succ slots ih =>
      rw [List.take_add_one] at live ⊢
      rw [polledAfter_succ, ih fun id listed => live id (List.mem_append_left _ listed),
        pollProbe_eq]
      cases read : registered.keys[slots]? with
      | none => simp
      | some id =>
          have isLive := live id (by simp [read])
          rcases Table.mem_iff_get?.mp isLive with ⟨aabb, found⟩
          simp [found]

/-- Every id but the one that is stored last names a probe. -/
def StaleOnlyLast (probes : Table ObjectID AABB) (registered : Table ObjectID Unit) : Prop :=
  ∀ id ∈ registered.keys.dropLast, id ∈ probes

/-- Once a slot before the last one held a stale id, the last slot is gone when its turn comes. -/
theorem StaleOnlyLast.of_inBounds
    (inBounds : ∀ slot < registered.entries.length,
      slot < (polledAfter probes registered slot).1.entries.length) :
    StaleOnlyLast probes registered := by
  have live (slots : ℕ) (inside : slots ≤ registered.entries.length - 1) :
      ∀ id ∈ registered.keys.take slots, id ∈ probes := by
    induction slots with
    | zero => simp
    | succ slots ih =>
        have before := ih (by omega)
        intro id listed
        rw [List.take_add_one, List.mem_append, Option.mem_toList] at listed
        rcases listed with earlier | read
        · exact before id earlier
        · by_contra stale
          have missing : probes.get? id = none := Table.get?_eq_none.mpr stale
          have erased : (polledAfter probes registered (slots + 1)).1 = registered.erase id := by
            rw [polledAfter_succ, polledAfter_of_live before, pollProbe_eq]
            simp only [Option.mem_def.mp read, missing]
          have shrunk : (registered.erase id).entries.length < registered.entries.length :=
            Table.length_erase_lt (List.mem_of_getElem? read)
          have lastRead := inBounds (registered.entries.length - 1) (by omega)
          have later : (polledAfter probes registered
              (registered.entries.length - 1)).1.entries.length ≤
              (polledAfter probes registered (slots + 1)).1.entries.length :=
            length_polledAfter_anti inside
          rw [erased] at later
          omega
  rw [StaleOnlyLast, List.dropLast_eq_take, Table.length_keys]
  exact live _ le_rfl

theorem StaleOnlyLast.polledAfter (staleOnlyLast : StaleOnlyLast probes registered) {slots : ℕ}
    (inside : slots < registered.entries.length) :
    polledAfter probes registered slots =
      (registered, (registered.keys.take slots).filterMap probes.get?) := by
  apply polledAfter_of_live
  intro id listed
  apply staleOnlyLast
  rw [List.dropLast_eq_take, Table.length_keys]
  exact (List.take_subset_take_left registered.keys (by omega)) listed

/-- The last slot ends the loop: its box is collected, or its id is erased. -/
theorem StaleOnlyLast.finished (staleOnlyLast : StaleOnlyLast probes registered) :
    (GodotStream.polledAfter probes registered registered.entries.length).2 =
        registered.keys.filterMap probes.get? ∧
      ∀ id, id ∈ (GodotStream.polledAfter probes registered registered.entries.length).1 ↔
        id ∈ registered ∧ id ∈ probes := by
  rcases List.eq_nil_or_concat registered.keys with empty | ⟨front, last, split⟩
  · have none : registered.entries.length = 0 := by
      rw [← Table.length_keys, empty, List.length_nil]
    rw [none, empty]
    refine ⟨rfl, ?_⟩
    intro id
    have absent : id ∉ registered := by simp [Table.mem_def, empty]
    exact ⟨fun listed => absurd listed absent, fun both => absurd both.1 absent⟩
  · rw [List.concat_eq_append] at split
    have size : registered.entries.length = front.length + 1 := by
      simp [← Table.length_keys, split]
    have frontLive : ∀ id ∈ front, id ∈ probes := by
      intro id listed
      apply staleOnlyLast
      rw [split, List.dropLast_concat]
      exact listed
    have read : registered.keys[front.length]? = some last := by simp [split]
    rw [size, polledAfter_succ, staleOnlyLast.polledAfter (by omega), pollProbe_eq]
    simp only [read]
    cases found : probes.get? last with
    | some aabb =>
        have allLive : ∀ id ∈ registered, id ∈ probes := by
          intro id listed
          rw [Table.mem_def, split, List.mem_append, List.mem_singleton] at listed
          rcases listed with earlier | rfl
          · exact frontLive id earlier
          · exact Table.mem_of_get? found
        refine ⟨by simp [split, found], ?_⟩
        exact fun id => ⟨fun listed => ⟨listed, allLive id listed⟩, And.left⟩
    | none =>
        refine ⟨by simp [split, found], ?_⟩
        intro id
        rw [Table.mem_erase, and_comm]
        apply and_congr_right
        intro listed
        have absent : last ∉ probes := Table.get?_eq_none.mp found
        constructor
        · intro other
          rw [Table.mem_def, split, List.mem_append, List.mem_singleton] at listed
          exact frontLive id (listed.resolve_right other)
        · rintro isLive rfl
          exact absent isLive

/-- For every probe set in any order and all ids that have gone stale: the loop reads inside of the
storage, comes to each live probe once, collects the boxes of the live probes and leaves their ids,
if and only if at most the id that is stored last is stale. -/
theorem survivesStale_iff (probes : Table ObjectID AABB) (registered : Table ObjectID Unit) :
    SurvivesStale probes registered ↔ StaleOnlyLast probes registered := by
  constructor
  · exact fun survives => StaleOnlyLast.of_inBounds survives.inBounds
  · intro staleOnlyLast
    rcases staleOnlyLast.finished with ⟨boxes, live⟩
    refine ⟨?_, ?_, by rw [boxes], live⟩
    · intro slot inside
      rw [staleOnlyLast.polledAfter inside]
      exact inside
    · intro id listed _
      rcases List.getElem?_of_mem listed with ⟨slot, read⟩
      have inside : slot < registered.keys.length := (List.getElem?_eq_some_iff.mp read).1
      rw [Table.length_keys] at inside
      refine ⟨slot, ⟨inside, by rw [readAt, staleOnlyLast.polledAfter inside, read]⟩, ?_⟩
      rintro other ⟨otherInside, otherRead⟩
      rw [readAt, staleOnlyLast.polledAfter otherInside] at otherRead
      have distinct : registered.keys.Nodup := registered.distinct
      have otherStored : other < registered.keys.length := by rwa [Table.length_keys]
      exact (List.getElem?_inj otherStored distinct).mp (otherRead.trans read.symm)

/-- A stale id before a live probe: the second slot is past the end of the storage. -/
theorem not_survivesStale_of_first_stale :
    ¬ SurvivesStale ((∅ : Table ObjectID AABB).insert 2 default)
      (((∅ : Table ObjectID Unit).insert 1 ()).insert 2 ()) := by
  intro survives
  exact absurd (survives.inBounds 1 (by decide +kernel)) (by decide +kernel)

end Polling

end GodotStream
