import TypeGraph.Member

/-!
# Resolved types

A resolved type is an entity with a handle. Entities refer to each other by handle, and each has a
key: what the type is, said with the handles of the types it is built from. Equal keys are the same
type, whatever raw records it was read from.

## Main definitions

* `TypeKey` — the structural identity of a type
* `TypeShape` — what an entity is, with `TypeShape.key` and `TypeShape.operands`
* `TypeEntity` — a resolved type
* `qualify` — joins a namespace and a name

## Main results

* `Definition.link?_modifyLink` — changing the link at a site changes what is read there
-/

namespace TypeGraph

/-! ### Names -/

/-- Joins a namespace and a name. The global namespace leaves no trace. -/
def qualify (namespaceName name : String) : String :=
  if namespaceName = "" then name else namespaceName ++ "." ++ name

/-! ### Keys -/

/-- The structural identity of a type. -/
inductive TypeKey where
  | definition (index : DefinitionIndex)
  | genericInstance (definition : TypeId) (arguments : List TypeId)
  | array (element : TypeId) (rank : UInt32)
  | vector (element : TypeId)
  | pointer (pointee : TypeId)
  | genericParameter (index : GenericParameterIndex) (ofMethod : Bool)
  deriving DecidableEq, Hashable, Repr, Inhabited

/-! ### Shapes -/

/-- A type that is backed by a definition row. -/
structure Definition where
  index : DefinitionIndex
  namespaceName : String
  name : String
  /-- The type that this one derives from, if it derives from any. -/
  base : Option TypeId
  fields : List Field
  methods : List Method
  deriving DecidableEq, Repr, Inhabited

/-- The full name of a definition. -/
def Definition.fullName (definition : Definition) : String :=
  qualify definition.namespaceName definition.name

/-- What a resolved type is. -/
inductive TypeShape where
  /-- A type that is backed by a definition row. -/
  | definition (definition : Definition)
  /-- A generic type applied to arguments. -/
  | genericInstance (definition : TypeId) (index : DefinitionIndex) (arguments : List TypeId)
  /-- An array with a rank; a vector has rank one and is no such array with rank one. -/
  | array (element : TypeId) (rank : UInt32) (isVector : Bool)
  | pointer (pointee : TypeId)
  /-- A generic parameter, which stands for a type that is not known. -/
  | genericParameter (index : GenericParameterIndex) (position : UInt16) (ofMethod : Bool)
      (name : String)
  deriving DecidableEq, Repr, Inhabited

namespace TypeShape

/-- The identity of a type, read off what it is. -/
def key : TypeShape → TypeKey
  | definition declared => .definition declared.index
  | genericInstance generic _ arguments => .genericInstance generic arguments
  | array element _ true => .vector element
  | array element rank false => .array element rank
  | pointer pointee => .pointer pointee
  | genericParameter index _ ofMethod _ => .genericParameter index ofMethod

/-- The types that a type is built from. The base of a definition is not among them: a definition
is known by its row, and its base may be built from the definition itself. -/
def operands : TypeShape → List TypeId
  | definition _ => []
  | genericInstance generic _ arguments => generic :: arguments
  | array element _ _ => [element]
  | pointer pointee => [pointee]
  | genericParameter .. => []

end TypeShape

/-! ### Entities -/

/-- The raw record that an entity was made from. -/
inductive TypeOrigin where
  | definition (index : DefinitionIndex)
  | usage (usage : TypeUsage)
  deriving DecidableEq, Repr, Inhabited

/-- A resolved type. -/
structure TypeEntity where
  id : TypeId
  origin : TypeOrigin
  attributes : TypeAttributes
  /-- A generic parameter occurs somewhere in the type. -/
  containsParameters : Bool
  shape : TypeShape
  deriving DecidableEq, Repr, Inhabited

namespace TypeEntity

/-- The identity of an entity. -/
def key (entity : TypeEntity) : TypeKey := entity.shape.key

/-- The definition that an entity holds, if it is one. -/
def definition? (entity : TypeEntity) : Option Definition :=
  match entity.shape with
  | .definition definition => some definition
  | _ => none

/-- The full name under which an entity can be looked up. Only definitions have one. -/
def declaredName? (entity : TypeEntity) : Option String :=
  entity.definition?.map Definition.fullName

/-- An entity is an array if it is one of any rank, or a vector. -/
def isArray (entity : TypeEntity) : Bool := entity.shape matches .array ..

/-- An entity is a pointer to something. -/
def isPointer (entity : TypeEntity) : Bool := entity.shape matches .pointer _

/-- An entity stands for a generic parameter. -/
def isGenericParameter (entity : TypeEntity) : Bool := entity.shape matches .genericParameter ..

/-- An entity is a generic type applied to arguments. -/
def isGenericInstance (entity : TypeEntity) : Bool := entity.shape matches .genericInstance ..

/-- An entity was made from a usage and not from a definition row. -/
def isFromUsage (entity : TypeEntity) : Bool := entity.origin matches .usage _

/-- The element of an array, or what a pointer points to. -/
def elementType (entity : TypeEntity) : Option TypeId :=
  match entity.shape with
  | .array element _ _ => some element
  | .pointer pointee => some pointee
  | _ => none

/-- How many dimensions an array has; everything else has none. -/
def arrayRank (entity : TypeEntity) : UInt32 :=
  match entity.shape with
  | .array _ rank _ => rank
  | _ => 0

/-- The generic type that an instantiation applies. -/
def genericDefinition (entity : TypeEntity) : Option TypeId :=
  match entity.shape with
  | .genericInstance definition _ _ => some definition
  | _ => none

/-- The arguments of an instantiation; everything else has none. -/
def genericArguments (entity : TypeEntity) : List TypeId :=
  match entity.shape with
  | .genericInstance _ _ arguments => arguments
  | _ => []

end TypeEntity

/-! ### Links of members -/

namespace Definition

/-- The link that stands at a site, if the definition has such a member. -/
def link? (definition : Definition) : MemberSite → Option TypeLink
  | .field position => definition.fields[position]?.map Field.type
  | .returnType method => definition.methods[method]?.map Method.returnType
  | .parameter method position =>
    definition.methods[method]?.bind fun method => method.parameters[position]?.map Parameter.type

/-- Applies `change` to the link that stands at a site. -/
def modifyLink (change : TypeLink → TypeLink) (definition : Definition) : MemberSite → Definition
  | .field position =>
    { definition with
      fields := definition.fields.modify position fun field =>
        { field with type := change field.type } }
  | .returnType method =>
    { definition with
      methods := definition.methods.modify method fun method =>
        { method with returnType := change method.returnType } }
  | .parameter method position =>
    { definition with
      methods := definition.methods.modify method fun method =>
        { method with
          parameters := method.parameters.modify position fun parameter =>
            { parameter with type := change parameter.type } } }

/-- Changing the link at a site changes what is read there, and makes no member. -/
theorem link?_modifyLink (change : TypeLink → TypeLink) (definition : Definition)
    (site : MemberSite) :
    (definition.modifyLink change site).link? site = (definition.link? site).map change := by
  cases site with
  | field position => simp [modifyLink, link?, Function.comp_def]
  | returnType method => simp [modifyLink, link?, Function.comp_def]
  | parameter method position =>
    cases h : definition.methods[method]? <;> simp [modifyLink, link?, h, Function.comp_def]

end Definition

namespace TypeEntity

/-- The link that stands at a site of an entity. -/
def link? (entity : TypeEntity) (site : MemberSite) : Option TypeLink :=
  entity.definition?.bind (·.link? site)

/-- Remembers the type behind the link at a site of an entity. -/
def memoize (site : MemberSite) (id : TypeId) (entity : TypeEntity) : TypeEntity :=
  match entity.shape with
  | .definition definition =>
    { entity with shape := .definition (definition.modifyLink (TypeLink.memoize id) site) }
  | _ => entity

end TypeEntity

end TypeGraph
