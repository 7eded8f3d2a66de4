import GodotStream.SubtreeRemoval

/-!
# Removing the descendants

The traversal of `_collect_descendants` follows the children index, and the deletion that
follows edits the registry and the index while it walks the collected set. When the index
mirrors the registry, the set is the closure under the parent links of the registry,
whatever the order of the children, and the deletion takes exactly its registered members
out of the registry, whatever the order of the set.
-/

namespace GodotStream

open Storage

namespace StreamManager

variable {manager : StreamManager}

/-- `child` is registered, and `parent` is the parent that its entry names. -/
def ChildLink (manager : StreamManager) (parent child : Uuid) : Prop :=
  parent ≠ Uuid.nil ∧ ∃ data, manager.registry.get? child = some data ∧ data.parentUuid = parent

/-- A chain of child links leads from `root` to `uuid`. -/
def Descends (manager : StreamManager) : Uuid → Uuid → Prop :=
  Relation.ReflTransGen manager.ChildLink

/-- A listing of the children in some order, as a traversal of the hash sets gives it. -/
def ListsChildren (manager : StreamManager) (children : Uuid → List Uuid) : Prop :=
  ∀ parent, (children parent).Perm (manager.childrenOf parent)

theorem Mirrors.mem_collectDescendants_iff (mirrors : manager.Mirrors) {root uuid : Uuid} :
    uuid ∈ manager.collectDescendants root ↔ manager.Descends root uuid := by
  have sameLinks : Worklist.Edge manager.childrenOf = manager.ChildLink := by
    funext parent child
    exact propext (mirrors parent child)
  rw [mem_collectDescendants, Worklist.Reaches, sameLinks, Descends]

/-- The loop of `_collect_descendants` stops, and the order in which it pushes the children of an
object only changes the order of the collected ones. -/
theorem exists_iterate_turn {children : Uuid → List Uuid} (lists : manager.ListsChildren children)
    (root : Uuid) :
    ∃ turns collected, (Worklist.turn children)^[turns] ([root], []) = ([], collected) ∧
      collected.Perm (manager.collectDescendants root) := by
  have supported : ∀ parent, parent ∉ manager.childrenMap.keys → children parent = [] := by
    intro parent unlisted
    have childless : manager.childrenOf parent = [] := by
      simp only [childrenOf, Table.get?_eq_none.mpr unlisted]
    apply List.Perm.eq_nil
    rw [← childless]
    exact lists parent
  refine ⟨_, _, Worklist.iterate_turn_bound supported root, ?_⟩
  apply (List.perm_ext_iff_of_nodup (Worklist.closure_nodup _ _ _ List.nodup_nil)
    (manager.collectDescendants_nodup root)).mpr
  intro uuid
  rw [Worklist.mem_closure_iff supported, mem_collectDescendants,
    Worklist.reaches_congr fun parent child => (lists parent).mem_iff]

end StreamManager

namespace World

variable {world : World}

/-- The two loops of `_remove_object` over the collected set in some order. -/
def removeInOrder (world : World) (toDelete : List Uuid) : World :=
  let world := toDelete.foldl removeCollected world
  { world with
    manager := { world.manager with
      childrenMap := toDelete.foldl Table.erase world.manager.childrenMap } }

theorem removeObject_eq_removeInOrder (world : World) (uuid : Uuid) :
    world._removeObject uuid = world.removeInOrder (world.manager.collectDescendants uuid) :=
  rfl

/-- `after` is left when the registered descendants of `root` are taken out of `before`. -/
structure LosesDescendants (before after : World) (root : Uuid) : Prop where
  registry : ∀ uuid data, after.manager.registry.get? uuid = some data ↔
    ¬ before.manager.Descends root uuid ∧ before.manager.registry.get? uuid = some data
  /-- An entry with a nil `parent_uuid` has no parent. -/
  parents : ∀ uuid data, after.manager.registry.get? uuid = some data →
    data.parentUuid ≠ Uuid.nil → ¬ before.manager.Descends root data.parentUuid
  removals : ∀ uuid, uuid ∈ after.manager.toRemove ↔
    (before.manager.Descends root uuid ∧ uuid ∈ before.manager.registry) ∨
      uuid ∈ before.manager.toRemove
  upserts : ∀ uuid, uuid ∈ after.manager.toUpsertUuids ↔
    ¬ (before.manager.Descends root uuid ∧ uuid ∈ before.manager.registry) ∧
      uuid ∈ before.manager.toUpsertUuids
  dirty : ∀ uuid, uuid ∈ after.manager.dirtyAabb ↔
    ¬ (before.manager.Descends root uuid ∧ uuid ∈ before.manager.registry) ∧
      uuid ∈ before.manager.dirtyAabb

theorem losesDescendants_removeInOrder {root : Uuid} {toDelete : List Uuid}
    (collected : ∀ uuid, uuid ∈ toDelete ↔ world.manager.Descends root uuid) :
    LosesDescendants world (world.removeInOrder toDelete) root := by
  have deletes := deletes_foldl_removeCollected toDelete world
  have registry (uuid : Uuid) (data : ObjectData) :
      (world.removeInOrder toDelete).manager.registry.get? uuid = some data ↔
        ¬ world.manager.Descends root uuid ∧ world.manager.registry.get? uuid = some data := by
    rw [← collected, show (world.removeInOrder toDelete).manager.registry.get? uuid = _ from
      deletes.registry uuid]
    by_cases listed : uuid ∈ toDelete <;> simp [listed]
  refine ⟨registry, ?_, ?_, ?_, ?_⟩
  · -- the entry of a child of a collected object is collected, hence gone
    intro uuid data remains nonNil below
    rcases (registry uuid data).mp remains with ⟨spared, registered⟩
    exact spared (below.tail ⟨nonNil, data, registered, rfl⟩)
  · intro uuid
    rw [← collected]
    exact deletes.removals uuid
  · intro uuid
    rw [← collected]
    exact unmarks_removeCollected.1.foldl toDelete world uuid
  · intro uuid
    rw [← collected]
    exact unmarks_removeCollected.2.foldl toDelete world uuid

/-- `_collect_descendants` stops in whatever order it pushes the children, with the objects that
chains of child links reach from `root`, and `_remove_object` takes the registered ones among them
out of the registry and of the pending upserts, in whatever order it visits them. -/
theorem removeObject_loses_descendants (indexed : world.Indexed) (root : Uuid) :
    (∀ children, world.manager.ListsChildren children →
      ∃ turns collected, (Worklist.turn children)^[turns] ([root], []) = ([], collected) ∧
        collected.Perm (world.manager.collectDescendants root)) ∧
    (∀ uuid, uuid ∈ world.manager.collectDescendants root ↔ world.manager.Descends root uuid) ∧
    LosesDescendants world (world._removeObject root) root ∧
    ∀ toDelete, toDelete.Perm (world.manager.collectDescendants root) →
      LosesDescendants world (world.removeInOrder toDelete) root := by
  have mirrors : world.manager.Mirrors := indexed
  have inOrder (toDelete : List Uuid)
      (listed : toDelete.Perm (world.manager.collectDescendants root)) :
      LosesDescendants world (world.removeInOrder toDelete) root := by
    apply losesDescendants_removeInOrder
    exact fun uuid => listed.mem_iff.trans mirrors.mem_collectDescendants_iff
  refine ⟨fun children lists => StreamManager.exists_iterate_turn lists root,
    fun uuid => mirrors.mem_collectDescendants_iff, ?_, inOrder⟩
  rw [removeObject_eq_removeInOrder]
  exact inOrder _ (List.Perm.refl _)

/-- Two objects below each other, one below them, and one below an unregistered parent. -/
def parentCycle : World :=
  { blank with
    manager := (((blank.manager.addObject 1 ⟨1, 2, unitBox, .orphan, false, none⟩).addObject 2
      ⟨2, 1, unitBox, .orphan, false, none⟩).addObject 3
        ⟨3, 2, unitBox, .orphan, false, none⟩).addObject 4 ⟨4, 9, unitBox, .orphan, false, none⟩ }

theorem indexed_parentCycle : parentCycle.Indexed := by
  have empty : blank.manager.Mirrors := by
    intro parent child
    simp [blank, make, StreamManager.make, StreamManager.mem_childrenOf]
  simp only [Indexed, parentCycle]
  iterate 4 refine StreamManager.Mirrors.addObject ?_ (by decide +kernel)
  exact empty

theorem removeObject_loses_parentCycle :
    3 ∉ (parentCycle.removeInOrder [3, 1, 2]).manager.registry ∧
      4 ∈ (parentCycle.removeInOrder [3, 1, 2]).manager.registry ∧
      3 ∈ (parentCycle.removeInOrder [3, 1, 2]).manager.toRemove ∧
      3 ∉ (parentCycle.removeInOrder [3, 1, 2]).manager.dirtyAabb := by
  rcases removeObject_loses_descendants indexed_parentCycle 1 with ⟨_, collected, _, inOrder⟩
  have loses := inOrder [3, 1, 2] (by decide +kernel)
  have below : parentCycle.manager.Descends 1 3 := (collected 3).mp (by decide +kernel)
  have spared : ¬ parentCycle.manager.Descends 1 4 :=
    fun descends => absurd ((collected 4).mpr descends) (by decide +kernel)
  have registered : 3 ∈ parentCycle.manager.registry := by decide +kernel
  have other : parentCycle.manager.registry.get? 4 = some { parentUuid := 9, nodeRoot := 4 } := by
    decide +kernel
  refine ⟨?_, ?_, ?_, ?_⟩
  · rw [Table.mem_iff_get?]
    rintro ⟨data, remains⟩
    exact ((loses.registry 3 data).mp remains).1 below
  · exact Table.mem_of_get? ((loses.registry 4 _).mpr ⟨spared, other⟩)
  · exact (loses.removals 3).mpr (Or.inl ⟨below, registered⟩)
  · exact fun dirty => ((loses.dirty 3).mp dirty).1 ⟨below, registered⟩

end World

end GodotStream
