import TypeGraph.Naming

/-!
# Relations between types

What a type derives from, what it is built around, and whether it is a value type. A type that does
not have what is asked for is not an error; a handle that cannot be read is.

## Main definitions

* `Arena.baseType`, `Arena.elementType`, `Arena.genericDefinition`, `Arena.arrayRank`
* `Arena.isValueType` — whether a type derives directly from the root of all value types
-/

namespace TypeGraph

/-- The full name of the type that every value type derives from. -/
def valueTypeName : String := "System.ValueType"

namespace Arena

/-- The type that a type derives from. An instantiation derives from what its definition derives
from. -/
def baseType (arena : Arena) : TypeId → Except Fault (Option TypeId) :=
  arena.visit fun shape ofOperand =>
    match shape with
    | .definition definition => return definition.base
    | .genericInstance head _ _ => ofOperand head
    | _ => return none

/-- The element of an array, or what a pointer points to. -/
def elementType (arena : Arena) (id : TypeId) : Except Fault (Option TypeId) :=
  return (← arena.get id).elementType

/-- How many dimensions a type has as an array. -/
def arrayRank (arena : Arena) (id : TypeId) : Except Fault UInt32 :=
  return (← arena.get id).arrayRank

/-- The generic type that an instantiation applies. -/
def genericDefinition (arena : Arena) (id : TypeId) : Except Fault (Option TypeId) :=
  return (← arena.get id).genericDefinition

/-- A type is a value type if the full name of its base says so. -/
def isValueType (arena : Arena) (naming : PointerNaming) (id : TypeId) : Except Fault Bool := do
  match ← arena.baseType id with
  | some base => return (← arena.fullName naming base) == valueTypeName
  | none => return false

end Arena

end TypeGraph
