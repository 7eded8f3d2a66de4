import GodotStream.Lib.Table
import Mathlib.Logic.Function.Basic

/-!
# Weak indices

An index that leads from keys to objects without keeping them alive. An entry may be
stale: its object is gone, and the index learns of it only when the key is asked for
again. As long as every live object is indexed under its own key, no two live objects
have the same key.
-/

namespace Storage

universe u v

variable {κ : Type u} {ι : Type v} [DecidableEq κ] [DecidableEq ι]

/-- Every live object is indexed under its key, and under no other. -/
structure WeakIndex (index : Table κ ι) (keyOf : ι → Option κ) : Prop where
  indexed {id : ι} {key : κ} : keyOf id = some key → index.get? key = some id
  named {id : ι} {key other : κ} : keyOf id = some key → index.get? other = some id → other = key

namespace WeakIndex

variable {index : Table κ ι} {keyOf : ι → Option κ}

omit [DecidableEq ι] in
theorem empty : WeakIndex (∅ : Table κ ι) fun _ => none :=
  ⟨nofun, nofun⟩

omit [DecidableEq ι] in
theorem unique (weak : WeakIndex index keyOf) {first second : ι} {key : κ}
    (firstKey : keyOf first = some key) (secondKey : keyOf second = some key) : first = second :=
  Option.some.inj ((weak.indexed firstKey).symm.trans (weak.indexed secondKey))

omit [DecidableEq ι] in
/-- An entry whose object lives leads to the object of its key. -/
theorem keyOf_of_live (weak : WeakIndex index keyOf) {id : ι} {key : κ}
    (found : index.get? key = some id) (live : (keyOf id).isSome = true) :
    keyOf id = some key := by
  rcases Option.isSome_iff_exists.mp live with ⟨own, ownKey⟩
  rw [ownKey, weak.named ownKey found]

/-- An object that is gone leaves a stale entry behind. -/
theorem forget (weak : WeakIndex index keyOf) (id : ι) :
    WeakIndex index (Function.update keyOf id none) := by
  have kept {other : ι} {key : κ} (live : Function.update keyOf id none other = some key) :
      keyOf other = some key := by
    by_cases same : other = id
    · simp [same] at live
    · rwa [Function.update_of_ne same] at live
  exact ⟨fun live => weak.indexed (kept live), fun live => weak.named (kept live)⟩

/-- A new object takes a key that no live object has. -/
theorem register (weak : WeakIndex index keyOf) {id : ι} {key : κ}
    (unused : ∀ other, keyOf other ≠ some key) (fresh : ∀ other, index.get? other ≠ some id) :
    WeakIndex (index.insert key id) (Function.update keyOf id (some key)) := by
  constructor
  · intro other otherKey live
    by_cases same : other = id
    · rw [same, Function.update_self, Option.some.injEq] at live
      rw [← live, same, Table.get?_insert_self]
    · rw [Function.update_of_ne same] at live
      rw [Table.get?_insert_of_ne _ (by rintro rfl; exact unused _ live)]
      exact weak.indexed live
  · intro other otherKey indexKey live found
    rw [Table.get?_insert] at found
    split at found
    case isTrue isKey =>
      obtain rfl := Option.some.inj found
      rw [Function.update_self, Option.some.injEq] at live
      rw [isKey, live]
    case isFalse =>
      by_cases same : other = id
      · exact absurd (same ▸ found) (fresh indexKey)
      · rw [Function.update_of_ne same] at live
        exact weak.named live found

omit [DecidableEq ι] in
/-- The entry of a key without a live object may be removed. -/
theorem erase (weak : WeakIndex index keyOf) {key : κ} (unused : ∀ id, keyOf id ≠ some key) :
    WeakIndex (index.erase key) keyOf := by
  constructor
  · intro id own live
    rw [Table.get?_erase_of_ne (by rintro rfl; exact unused id live)]
    exact weak.indexed live
  · intro id own other live found
    rw [Table.get?_erase] at found
    split at found
    · exact absurd found (by simp)
    · exact weak.named live found

end WeakIndex

end Storage
