import GodotStream.Basic
import GodotStream.Geometry
import GodotStream.Lib.Table

/-!
# Nodes and packed scenes

The engine side as far as the stream manager sees it: the table of live
`StreamObjectNode`s under their instance ids, where each one is mounted, and
`PackedScene`s. Instance ids are never reused, which is a field of the table.

`capture` is a history variable: the serial number of a call of `PackedScene::pack`.
An instance remembers the capture it was made from.
-/

namespace GodotStream

open Storage

/-- Where a node is mounted. -/
inductive Mount where
  | orphan
  /-- A direct child of the stream manager. -/
  | manager
  /-- Below another node of the running scene. -/
  | elsewhere
deriving DecidableEq

structure StreamObjectNode where
  uuid : Uuid
  parentUuid : Uuid
  aabb : AABB
  mount : Mount := .orphan
  queuedForDeletion : Bool := false
  capture : Option ℕ := none
deriving DecidableEq

/-- The stored properties of a scene's root node. -/
structure SceneRoot where
  uuid : Uuid
  parentUuid : Uuid
  aabb : AABB
deriving DecidableEq

/-- A scene resource; the root is `none` when it is not a `StreamObjectNode`. -/
structure PackedScene where
  root : Option SceneRoot
  capture : ℕ
deriving DecidableEq

/-- The nodes whose memory can be read, by instance id. -/
structure ObjectDB where
  nodes : Table ObjectID StreamObjectNode
  nextId : ObjectID
  positive : 0 < nextId
  issued : ∀ id ∈ nodes, 0 < id ∧ id < nextId

namespace ObjectDB

/-- `ObjectDB::get_instance`. -/
def getInstance (objectDb : ObjectDB) (id : ObjectID) : Option StreamObjectNode :=
  objectDb.nodes.get? id

def empty : ObjectDB :=
  { nodes := ∅, nextId := 1, positive := Nat.one_pos, issued := by simp }

/-- Create a node under the next instance id. -/
def create (objectDb : ObjectDB) (node : StreamObjectNode) : ObjectDB :=
  { nodes := objectDb.nodes.insert objectDb.nextId node
    nextId := objectDb.nextId + 1
    positive := Nat.succ_pos _
    issued := by
      intro id present
      rcases Table.mem_insert.mp present with rfl | old
      · exact ⟨objectDb.positive, Nat.lt_succ_self _⟩
      · exact ⟨(objectDb.issued id old).1, (objectDb.issued id old).2.trans (Nat.lt_succ_self _)⟩ }

/-- Change a live node. -/
def modify (objectDb : ObjectDB) (id : ObjectID) (change : StreamObjectNode → StreamObjectNode) :
    ObjectDB :=
  match found : objectDb.nodes.get? id with
  | none => objectDb
  | some node =>
      { objectDb with
        nodes := objectDb.nodes.insert id (change node)
        issued := by
          intro other present
          rcases Table.mem_insert.mp present with rfl | old
          · exact objectDb.issued other (Table.mem_of_get? found)
          · exact objectDb.issued other old }

/-- The memory of a node is gone, by its destructor or by a plain `free`, which leaves the id of
the node registered with the engine. -/
def free (objectDb : ObjectDB) (id : ObjectID) : ObjectDB :=
  { objectDb with
    nodes := objectDb.nodes.erase id
    issued := by
      intro other present
      exact objectDb.issued other (Table.mem_erase.mp present).2 }

/-- `PackedScene::instantiate` for a root of our type. -/
def instantiate (objectDb : ObjectDB) (root : SceneRoot) (capture : ℕ) : ObjectID × ObjectDB :=
  (objectDb.nextId, objectDb.create
    { uuid := root.uuid, parentUuid := root.parentUuid, aabb := root.aabb,
      capture := some capture })

theorem issued_of_getInstance {objectDb : ObjectDB} {id : ObjectID} {node : StreamObjectNode}
    (found : objectDb.getInstance id = some node) : 0 < id ∧ id < objectDb.nextId :=
  objectDb.issued id (Table.mem_of_get? found)

theorem getInstance_create (objectDb : ObjectDB) (node : StreamObjectNode) (id : ObjectID) :
    (objectDb.create node).getInstance id =
      if id = objectDb.nextId then some node else objectDb.getInstance id :=
  Table.get?_insert _ _ _ _

theorem getInstance_modify (objectDb : ObjectDB) (id other : ObjectID)
    (change : StreamObjectNode → StreamObjectNode) :
    (objectDb.modify id change).getInstance other =
      if other = id then (objectDb.getInstance id).map change
      else objectDb.getInstance other := by
  simp only [getInstance, modify]
  split
  case h_1 absent =>
    by_cases same : other = id
    · simp [same, absent]
    · simp [same]
  case h_2 node found => simp [Table.get?_insert, found]

theorem getInstance_free (objectDb : ObjectDB) (id other : ObjectID) :
    (objectDb.free id).getInstance other =
      if other = id then none else objectDb.getInstance other :=
  Table.get?_erase _ _ _

end ObjectDB

end GodotStream
