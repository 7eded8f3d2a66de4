import GodotStream.Events
import GodotStream.SubtreeRemoval

/-!
# The assertion of a removal

A frame calls `_remove_object` for each recorded uuid, which asserts that the uuid is
registered and takes everything below it out of the registry. Two recorded objects
therefore get in each other's way exactly when one of them is below the other.
-/

namespace GodotStream

open Storage Run

namespace World

variable {world : World}

/-- Each removal of the loop finds its uuid in the registry. -/
def FindsRegistered (world : World) (order : List Uuid) : Prop :=
  ∀ before uuid later, order = before ++ uuid :: later →
    uuid ∈ (before.foldl _removeObject world).manager.registry

/-- In a frame the assertion holds at every removal, whatever the order of the recorded uuids. -/
def AssertionHolds (world : World) : Event → Prop
  | .process _ => world.manager.insideTree = true →
      ∀ order, order.Perm world.manager.objectRemoval.keys → world.FindsRegistered order
  | _ => True

/-- A frame starts with recorded uuids that are registered, none of them below another one. -/
def RecordedApart (world : World) : Event → Prop
  | .process _ => world.manager.insideTree = true →
      (∀ uuid ∈ world.manager.objectRemoval, uuid ∈ world.manager.registry) ∧
        ∀ upper ∈ world.manager.objectRemoval, ∀ lower ∈ world.manager.objectRemoval,
          upper ≠ lower → ¬ Worklist.Reaches world.manager.childrenOf upper lower
  | _ => True

/-- Two of the uuids are the first ones in some order. -/
theorem exists_order {keys : List Uuid} {upper lower : Uuid} (upperListed : upper ∈ keys)
    (lowerListed : lower ∈ keys) (others : upper ≠ lower) :
    ∃ later, (upper :: lower :: later).Perm keys := by
  have lowerLeft : lower ∈ keys.erase upper := (List.mem_erase_of_ne others.symm).mpr lowerListed
  have withoutUpper : (lower :: (keys.erase upper).erase lower).Perm (keys.erase upper) :=
    (List.perm_cons_erase lowerLeft).symm
  exact ⟨_, (withoutUpper.cons upper).trans (List.perm_cons_erase upperListed).symm⟩

theorem assertionHolds_iff (world : World) (event : Event) :
    world.AssertionHolds event ↔ world.RecordedApart event := by
  cases event with
  | process loader =>
      apply imp_congr_right
      intro _
      constructor
      · intro finds
        refine ⟨?_, ?_⟩
        · intro uuid recorded
          have order := (List.perm_cons_erase recorded).symm
          exact finds _ order [] uuid _ rfl
        · intro upper upperRecorded lower lowerRecorded others below
          rcases exists_order upperRecorded lowerRecorded others with ⟨later, order⟩
          have found := finds _ order [upper] lower later rfl
          rw [mem_registry_foldl_removeObject] at found
          exact found.2 upper List.mem_cons_self below
      · rintro ⟨registered, apart⟩ order listed before uuid later split
        have distinct : order.Nodup := listed.nodup_iff.mpr world.manager.objectRemoval.distinct
        have recorded {other : Uuid} (inOrder : other ∈ order) :
            other ∈ world.manager.objectRemoval := listed.mem_iff.mp inOrder
        subst split
        have uuidRecorded := recorded (List.mem_append_right _ List.mem_cons_self)
        rw [mem_registry_foldl_removeObject]
        refine ⟨registered uuid uuidRecorded, ?_⟩
        intro removed earlier
        apply apart removed (recorded (List.mem_append_left _ earlier)) uuid uuidRecorded
        exact (List.nodup_append.mp distinct).2.2 _ earlier _ List.mem_cons_self
  | create | enter | exit | reparent | queueFree | deleteQueued | addObject | removeObject
  | updateObject | aabbChanged | boxChanged | loadProbe | unloadProbe | workerStep
  | flushCallbacks | asyncSave => exact Iff.rfl

/-- In every run the assertion of `_remove_object` holds in every frame and for every order of the
recorded uuids, if and only if each frame starts with recorded uuids that are registered and not
below each other. -/
theorem assertionHolds_run_iff (world : World) (events : List Event) :
    Allowed step AssertionHolds events world ↔ Allowed step RecordedApart events world := by
  have same : AssertionHolds = RecordedApart := by
    funext other event
    exact propext (assertionHolds_iff other event)
  rw [same]

/-- A parent and its child are taken out of the tree before the same frame. -/
def familyLeaves : List Event :=
  [.create Uuid.nil Uuid.nil unitBox, .enter 1, .create 7 101 unitBox, .enter 2,
    .updateObject 2 101, .exit 1, .exit 2]

theorem not_assertionHolds_family :
    ¬ Allowed step AssertionHolds (familyLeaves ++ [.process eagerLoader]) blank := by
  have possible : (follow step familyLeaves blank).isSome = true := by decide +kernel
  rcases Option.isSome_iff_exists.mp possible with ⟨left, followed⟩
  have leftEq : runAll step familyLeaves blank = left := by rw [runAll, followed, Option.getD_some]
  rw [allowed_append]
  rintro ⟨_, frame⟩
  have asserted := (frame left followed).1
  rw [← leftEq] at asserted
  have finds := asserted (by decide +kernel) [101, 7] (by decide +kernel)
  exact absurd (finds [101] 7 [] rfl) (by decide +kernel)

end World

end GodotStream
