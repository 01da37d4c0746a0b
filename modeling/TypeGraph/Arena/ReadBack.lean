import TypeGraph.Arena.Visit
import TypeGraph.Tree

/-!
# Reading trees back

An arena shares the types that it holds. Reading a type back unfolds it into the tree that it
stands for, by following operands; base types and members play no part in it.

## Main definitions

* `TypeTree.ofShape` — the tree of a shape, from the trees of its operands
* `Arena.tree` — the tree behind a handle
* `Arena.Holds` — a live and readable handle stands for a tree

## Main results

* `Arena.tree_of_get` — a tree is read off the shape of an entity
-/

namespace TypeGraph

/-- The tree of a shape, in which `ofOperand` yields the trees of the operands. An instantiation
needs no tree of its definition, whose row it names itself. -/
def TypeTree.ofShape (shape : TypeShape) (ofOperand : TypeId → Except Fault TypeTree) :
    Except Fault TypeTree :=
  match shape with
  | .definition found => return .definition found.index
  | .genericInstance _ index arguments => return .genericInstance index (← arguments.mapM ofOperand)
  | .array element rank false => return .array (← ofOperand element) rank
  | .array element _ true => return .vector (← ofOperand element)
  | .pointer pointee => return .pointer (← ofOperand pointee)
  | .genericParameter index _ ofMethod _ => return .genericParameter index ofMethod

namespace Arena

/-- The tree behind a handle. -/
def tree (arena : Arena) : TypeId → Except Fault TypeTree := arena.visit TypeTree.ofShape

/-- A tree is read off the shape of an entity and the trees of older operands. -/
theorem tree_of_get {arena : Arena} {id : TypeId} {entity : TypeEntity}
    (h : arena.get id = .ok entity) :
    arena.tree id = TypeTree.ofShape entity.shape fun operand =>
      if operand.index < id.index then arena.tree operand else .error (.unknownType operand) :=
  visit_of_get h _

/-- A handle is live, its entity can be read, and it stands for a tree. -/
def Holds (arena : Arena) (id : TypeId) (found : TypeTree) : Prop :=
  id ∈ arena.all ∧ arena.tree id = .ok found

end Arena

end TypeGraph
