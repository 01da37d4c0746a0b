import TypeGraph.Handle
import TypeGraph.ElementKind

/-!
# Raw records

The rows of an image's tables and the records that are mapped at addresses, as an image holds
them: every reference to another record is still a bare row or address, and nothing is checked.

## Main definitions

* `TypeDefinition`, `FieldRow`, `MethodRow`, `ParameterRow`, `GenericParameterRow` — table rows
* `TypeUsage` — a reference to a type as it is used somewhere
* `GenericClass`, `GenericInstantiation`, `ArrayDescriptor` — what a usage may lead to
* `MappedRecord` — any record that has an address, and `RecordKind`, which sort it is
-/

namespace TypeGraph

/-! ### Rows of tables -/

/-- A type definition. Its fields and methods are runs of rows of their tables. -/
structure TypeDefinition where
  name : StringOffset := default
  /-- The empty string stands for the global namespace. -/
  namespaceName : StringOffset := default
  /-- The usage of the type that this one derives from, if it derives from any. -/
  parent : Option UsageIndex := none
  flags : UInt32 := 0
  fieldStart : FieldIndex := default
  fieldCount : UInt16 := 0
  methodStart : MethodIndex := default
  methodCount : UInt16 := 0
  deriving DecidableEq, Repr, Inhabited

/-- A field. -/
structure FieldRow where
  name : StringOffset := default
  type : UsageIndex := default
  token : UInt32 := 0
  deriving DecidableEq, Repr, Inhabited

/-- A method. Its parameters are a run of rows of the parameter table. -/
structure MethodRow where
  name : StringOffset := default
  declaringType : DefinitionIndex := default
  returnType : UsageIndex := default
  parameterStart : ParameterIndex := default
  parameterCount : UInt16 := 0
  flags : UInt16 := 0
  token : UInt32 := 0
  deriving DecidableEq, Repr, Inhabited

/-- A parameter of a method. -/
structure ParameterRow where
  name : StringOffset := default
  type : UsageIndex := default
  token : UInt32 := 0
  deriving DecidableEq, Repr, Inhabited

/-- A generic parameter, which stands at place `position` of its owner's parameter list. -/
structure GenericParameterRow where
  owner : UInt32 := 0
  name : StringOffset := default
  position : UInt16 := 0
  flags : UInt16 := 0
  deriving DecidableEq, Repr, Inhabited

/-! ### Usages -/

/-- A reference to a type as it is used somewhere. The byte `kind` decides what `data` means: a
definition row, a generic parameter row, or the address of another record. -/
structure TypeUsage where
  data : UInt64 := 0
  attrs : UInt16 := 0
  kind : UInt8 := 0
  /-- The type is passed by reference where it is used. -/
  byRef : Bool := false
  deriving DecidableEq, Repr, Inhabited

namespace TypeUsage

/-- A usage whose operand is a row. -/
def ofIndex {table : Table} (kind : UInt8) (index : Index table) : TypeUsage :=
  { kind, data := index.value.toUInt64 }

/-- A usage whose operand is an address. -/
def ofAddress (kind : UInt8) (address : Address) : TypeUsage := { kind, data := address.value }

/-- A usage of a definition as a reference type. -/
def definition (index : DefinitionIndex) : TypeUsage := ofIndex ElementKind.classType.byte index

/-- A usage of a definition as a value type. -/
def valueType (index : DefinitionIndex) : TypeUsage := ofIndex ElementKind.valueType.byte index

/-- A usage of the built-in type with discriminant `kind`, backed by the definition `index`. -/
def primitive (kind : UInt8) (index : DefinitionIndex) : TypeUsage := ofIndex kind index

/-- A usage of the instantiation whose generic class record lives at `address`. -/
def genericInstance (address : Address) : TypeUsage :=
  ofAddress ElementKind.genericInstance.byte address

/-- A usage of the array whose descriptor lives at `address`. -/
def array (address : Address) : TypeUsage := ofAddress ElementKind.array.byte address

/-- A usage of the one-dimensional array of what is used at `address`. -/
def vector (address : Address) : TypeUsage := ofAddress ElementKind.vector.byte address

/-- A usage of the pointer to what is used at `address`. -/
def pointer (address : Address) : TypeUsage := ofAddress ElementKind.pointer.byte address

/-- A usage of a generic parameter, of a method or of a type. -/
def genericParameter (index : GenericParameterIndex) (ofMethod : Bool) : TypeUsage :=
  ofIndex (if ofMethod then ElementKind.methodParameter.byte else ElementKind.typeParameter.byte)
    index

/-- The same usage, passed by reference. -/
def passedByRef (usage : TypeUsage) : TypeUsage := { usage with byRef := true }

end TypeUsage

/-! ### Mapped records -/

/-- A generic definition together with the address of what it is applied to. -/
structure GenericClass where
  definition : DefinitionIndex := default
  instantiation : Address := default
  deriving DecidableEq, Repr, Inhabited

/-- How many arguments an instantiation has, and the address of their list. -/
structure GenericInstantiation where
  argumentCount : UInt32 := 0
  arguments : Address := default
  deriving DecidableEq, Repr, Inhabited

/-- An array with a rank. The sizes and lower bounds of its dimensions are not part of its type. -/
structure ArrayDescriptor where
  element : Address := default
  rank : Int32 := 0
  sizeCount : Int32 := 0
  lowerBoundCount : Int32 := 0
  deriving DecidableEq, Repr, Inhabited

/-- The sorts of record that can be mapped at an address. -/
inductive RecordKind where
  | usage
  | genericClass
  | genericInstantiation
  | argumentList
  | arrayDescriptor
  deriving DecidableEq, Repr, Inhabited

/-- The name of a sort of record in messages. -/
def RecordKind.name : RecordKind → String
  | usage => "type usage"
  | genericClass => "generic class"
  | genericInstantiation => "generic instantiation"
  | argumentList => "argument list"
  | arrayDescriptor => "array descriptor"

/-- A record that is mapped at an address. -/
inductive MappedRecord where
  | usage (record : TypeUsage)
  | genericClass (record : GenericClass)
  | genericInstantiation (record : GenericInstantiation)
  | argumentList (addresses : List Address)
  | arrayDescriptor (record : ArrayDescriptor)
  deriving DecidableEq, Repr, Inhabited

namespace MappedRecord

/-- The sort of a mapped record. -/
def kind : MappedRecord → RecordKind
  | usage _ => .usage
  | genericClass _ => .genericClass
  | genericInstantiation _ => .genericInstantiation
  | argumentList _ => .argumentList
  | arrayDescriptor _ => .arrayDescriptor

/-- The usage, if the record is one. -/
def usage? : MappedRecord → Option TypeUsage
  | usage found => some found
  | _ => none

/-- The generic class, if the record is one. -/
def genericClass? : MappedRecord → Option GenericClass
  | genericClass found => some found
  | _ => none

/-- The instantiation, if the record is one. -/
def genericInstantiation? : MappedRecord → Option GenericInstantiation
  | genericInstantiation found => some found
  | _ => none

/-- The argument list, if the record is one. -/
def argumentList? : MappedRecord → Option (List Address)
  | argumentList found => some found
  | _ => none

/-- The array descriptor, if the record is one. -/
def arrayDescriptor? : MappedRecord → Option ArrayDescriptor
  | arrayDescriptor found => some found
  | _ => none

end MappedRecord

end TypeGraph
