import Mathlib.Logic.Function.Basic

/-!
# A mutex

The owner of a mutex beside the parties that stand between their lock and their
unlock. Whoever locks a free mutex and unlocks it on leaving keeps the two in
agreement, so that no two parties are inside at once.
-/

namespace Mutex

universe u

variable {Party : Type u} {owner : Option Party} {inside : Party → Bool} {party other : Party}

/-- The owner is the one party between its lock and its unlock. -/
def Guards (owner : Option Party) (inside : Party → Bool) : Prop :=
  ∀ party, owner = some party ↔ inside party = true

theorem Guards.unique (guards : Guards owner inside) (first : inside party = true)
    (second : inside other = true) : party = other := by
  have owned := (guards party).mpr first
  rw [(guards other).mpr second] at owned
  exact (Option.some.inj owned).symm

theorem Guards.outside (guards : Guards none inside) (party : Party) : inside party = false := by
  rw [← Bool.not_eq_true, ← guards party]
  exact Option.some_ne_none party ∘ Eq.symm

variable [DecidableEq Party]

theorem Guards.lock (guards : Guards none inside) (party : Party) :
    Guards (some party) (Function.update inside party true) := by
  intro other
  rw [Option.some.injEq, Function.update_apply]
  split
  case isTrue same => simp [same]
  case isFalse differs => simp [guards.outside other, Ne.symm differs]

theorem Guards.unlock (guards : Guards owner inside) (held : inside party = true) :
    Guards none (Function.update inside party false) := by
  intro other
  rw [Function.update_apply]
  split
  case isTrue => simp
  case isFalse differs =>
      simp only [reduceCtorEq, false_iff]
      exact fun alsoHeld => differs (guards.unique alsoHeld held)

/-- A party that neither locks nor unlocks changes nothing. -/
theorem Guards.keep (guards : Guards owner inside) {still : Bool} (same : still = inside party) :
    Guards owner (Function.update inside party still) := by
  rwa [same, Function.update_eq_self]

end Mutex
