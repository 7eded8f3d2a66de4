import GodotStream.ObjectTable

/-!
# The object hierarchy

Ancestors along the parent column, acyclic tables, and the height of an object,
which every walk up an acyclic chain decreases.
-/

namespace GodotStream

open Storage

namespace ObjectTable

/-- `upper` is reached from `lower` by following one parent link or more. -/
def Ancestor (table : ObjectTable) (upper lower : Uuid) : Prop :=
  Relation.TransGen table.IsChild upper lower

theorem ancestor_iff {table : ObjectTable} {upper lower : Uuid} :
    table.Ancestor upper lower ↔
      ∃ parent ∈ table.parentOf lower, table.Below upper parent := by
  simp only [Ancestor, Relation.TransGen.tail'_iff]
  constructor
  · rintro ⟨parent, below, child⟩
    exact ⟨parent, child, below⟩
  · rintro ⟨parent, child, below⟩
    exact ⟨parent, below, child⟩

instance (table : ObjectTable) (upper lower : Uuid) : Decidable (table.Ancestor upper lower) :=
  decidable_of_iff _ ancestor_iff.symm

/-- No object is its own ancestor. -/
def Acyclic (table : ObjectTable) : Prop :=
  ∀ uuid, ¬ table.Ancestor uuid uuid

theorem acyclic_iff {table : ObjectTable} :
    table.Acyclic ↔ ∀ uuid ∈ table.rows.keys, ¬ table.Ancestor uuid uuid := by
  constructor
  · intro acyclic uuid _
    exact acyclic uuid
  · intro acyclic uuid ancestor
    rcases ancestor_iff.mp ancestor with ⟨parent, child, _⟩
    exact acyclic uuid (mem_of_parentOf child) ancestor

instance (table : ObjectTable) : Decidable table.Acyclic :=
  decidable_of_iff _ acyclic_iff.symm

/-- No object above `uuid` is its own ancestor, so that its chain ends at a root. -/
def Rooted (table : ObjectTable) (uuid : Uuid) : Prop :=
  ∀ upper, table.Ancestor upper uuid → ¬ table.Ancestor upper upper

theorem Acyclic.rooted {table : ObjectTable} (acyclic : table.Acyclic) (uuid : Uuid) :
    table.Rooted uuid :=
  fun upper _ => acyclic upper

theorem Rooted.not_ancestor {table : ObjectTable} {uuid : Uuid} (rooted : table.Rooted uuid) :
    ¬ table.Ancestor uuid uuid :=
  fun ancestor => rooted uuid ancestor ancestor

theorem rooted_of_parentOf_none {table : ObjectTable} {uuid : Uuid}
    (root : table.parentOf uuid = none) : table.Rooted uuid := by
  intro upper ancestor
  rcases ancestor_iff.mp ancestor with ⟨parent, child, _⟩
  rw [root] at child
  simp at child

/-- A chain ends if and only if the chain of the parent does. -/
theorem rooted_iff_parent {table : ObjectTable} {uuid parent : Uuid}
    (child : table.IsChild parent uuid) : table.Rooted uuid ↔ table.Rooted parent := by
  constructor
  · intro rooted upper ancestor
    exact rooted upper (ancestor.tail child)
  · intro rooted upper ancestor
    rcases ancestor_iff.mp ancestor with ⟨other, otherChild, below⟩
    have same : other = parent := Option.some.inj (otherChild.symm.trans child)
    rw [same] at below
    rcases Relation.reflTransGen_iff_eq_or_transGen.mp below with own | higher
    · rw [← own]
      exact rooted.not_ancestor
    · exact rooted upper higher

/-- The number of rows on the chain from an object to its root. -/
def height (table : ObjectTable) (uuid : Uuid) : ℕ :=
  (table.rows.keys.filter fun upper => table.Below upper uuid).length

theorem height_le (table : ObjectTable) (uuid : Uuid) :
    table.height uuid ≤ table.rows.entries.length := by
  apply (List.length_filter_le _ _).trans
  simp [Table.keys]

theorem height_pos {table : ObjectTable} {uuid : Uuid} (present : uuid ∈ table.rows) :
    0 < table.height uuid := by
  apply List.length_pos_of_mem
  simp only [List.mem_filter, decide_eq_true_eq]
  exact ⟨present, Relation.ReflTransGen.refl⟩

/-- Every step up a chain without a cycle shortens it. -/
theorem height_parent_lt {table : ObjectTable} {uuid parent : Uuid} (rooted : table.Rooted uuid)
    (child : table.IsChild parent uuid) : table.height parent < table.height uuid := by
  have distinct (target : Uuid) :
      (table.rows.keys.filter fun upper => table.Below upper target).Nodup :=
    table.rows.distinct.filter _
  simp only [height]
  rw [← List.toFinset_card_of_nodup (distinct parent),
    ← List.toFinset_card_of_nodup (distinct uuid)]
  apply Finset.card_lt_card
  rw [Finset.ssubset_iff_of_subset]
  · refine ⟨uuid, ?_, ?_⟩
    · simp only [List.mem_toFinset, List.mem_filter, decide_eq_true_eq]
      exact ⟨mem_of_parentOf child, Relation.ReflTransGen.refl⟩
    · simp only [List.mem_toFinset, List.mem_filter, decide_eq_true_eq, not_and]
      intro _ below
      exact rooted.not_ancestor (Relation.TransGen.tail' below child)
  · intro upper upperMem
    simp only [List.mem_toFinset, List.mem_filter, decide_eq_true_eq] at upperMem ⊢
    exact ⟨upperMem.1, upperMem.2.tail child⟩

theorem mem_of_below {table : ObjectTable} {upper lower : Uuid} (below : table.Below upper lower)
    (present : lower ∈ table.rows) : upper ∈ table.rows := by
  rcases Relation.ReflTransGen.cases_head below with rfl | ⟨child, isChild, _⟩
  · exact present
  · exact parent_mem isChild

/-- The ancestors of an object are its parent and the ancestors of that. -/
theorem below_iff_parent {table : ObjectTable} {upper uuid parent : Uuid}
    (child : table.IsChild parent uuid) :
    table.Below upper uuid ↔ upper = uuid ∨ table.Below upper parent := by
  constructor
  · intro below
    rcases Relation.ReflTransGen.cases_tail below with same | ⟨middle, middleBelow, last⟩
    · exact Or.inl same.symm
    · have sameParent : middle = parent := Option.some.inj (last.symm.trans child)
      exact Or.inr (sameParent ▸ middleBelow)
  · rintro (rfl | below)
    · exact Relation.ReflTransGen.refl
    · exact below.tail child

theorem below_iff_of_parentOf_none {table : ObjectTable} {upper uuid : Uuid}
    (root : table.parentOf uuid = none) : table.Below upper uuid ↔ upper = uuid := by
  constructor
  · intro below
    rcases Relation.ReflTransGen.cases_tail below with same | ⟨middle, _, last⟩
    · exact same.symm
    · rw [IsChild, root] at last
      simp at last
  · rintro rfl
    exact Relation.ReflTransGen.refl

/-- Tables with the same parents have the same hierarchy. -/
theorem isChild_congr {table other : ObjectTable}
    (same : ∀ uuid, other.parentOf uuid = table.parentOf uuid) : other.IsChild = table.IsChild := by
  funext parent child
  rw [IsChild, IsChild, same]

end ObjectTable

end GodotStream
