import TypeGraph.Attribute
import TypeGraph.Store.Read

/-!
# Members of definitions

The fields, methods and parameters of a definition, read from the rows of a store.

Reading a member never resolves the type it mentions, because its definition may still be under
construction, and because following every member would pull in most of an image. A member holds a
`TypeLink` instead: the row of the usage, and a memo for the type once somebody has asked for it.

## Main definitions

* `TypeLink` — a reference to a type that is resolved on demand
* `Field`, `Parameter`, `Method` — members, with `Field.read`, `Parameter.read`, `Method.read`
* `TypeDefinition.readFields`, `TypeDefinition.readMethods` — all members of a definition
* `MemberSite` — the places in a definition where a link stands

## Main results

* `TypeLink.memoize_memoize` — the first type that a link remembers is the one it keeps
-/

namespace TypeGraph

/-! ### Links -/

/-- A reference to a type by the row of its usage, with a memo for the resolved type. -/
structure TypeLink where
  usage : UsageIndex
  resolved : Option TypeId := none
  deriving DecidableEq, Repr, Inhabited

namespace TypeLink

/-- Remembers the type behind a link, unless one is remembered already. -/
def memoize (id : TypeId) (link : TypeLink) : TypeLink :=
  { link with resolved := some (link.resolved.getD id) }

@[simp] theorem usage_memoize (id : TypeId) (link : TypeLink) :
    (link.memoize id).usage = link.usage := rfl

/-- The first type that a link remembers is the one it keeps. -/
@[simp] theorem memoize_memoize (id id' : TypeId) (link : TypeLink) :
    (link.memoize id).memoize id' = link.memoize id := by
  simp [memoize]

end TypeLink

/-! ### Members -/

/-- A field of a definition. -/
structure Field where
  index : FieldIndex
  name : String
  token : UInt32
  declaringType : TypeId
  type : TypeLink
  deriving DecidableEq, Repr, Inhabited

/-- A parameter of a method, which stands at place `position` of the method's parameter list. -/
structure Parameter where
  index : ParameterIndex
  name : String
  token : UInt32
  position : UInt16
  type : TypeLink
  deriving DecidableEq, Repr, Inhabited

/-- A method of a definition. -/
structure Method where
  index : MethodIndex
  name : String
  token : UInt32
  flags : UInt16
  declaringType : TypeId
  returnType : TypeLink
  parameters : List Parameter
  deriving DecidableEq, Repr, Inhabited

/-- The modifiers that a method's flags declare. -/
def Method.modifiers (method : Method) : MethodModifiers := .ofFlags method.flags

/-- Everyone who sees the declaring type may call the method. -/
def Method.isPublic (method : Method) : Bool := isPublicMethod method.flags

/-! ### Reading members -/

/-- Reads a field for the definition `owner`. -/
def Field.read (store : Store) (owner : TypeId) (index : FieldIndex) : Except Fault Field := do
  let row ← store.field index
  let name ← store.string row.name
  return { index, name, token := row.token, declaringType := owner, type := { usage := row.type } }

/-- Reads a parameter that stands at place `position`. -/
def Parameter.read (store : Store) (index : ParameterIndex) (position : Nat) :
    Except Fault Parameter := do
  let row ← store.parameter index
  let name ← store.string row.name
  return { index, name, token := row.token, position := position.toUInt16,
           type := { usage := row.type } }

/-- Reads a method for the definition `owner`, its parameters before its own name.

Places are counted in 16 bits. The count moves on behind every parameter, and once more before it
turns out that there is no other. So behind the last of 65535 parameters, which stands at place
65534, it steps past the largest number of 16 bits. Where overflow is checked, the program stops
there; everywhere else the count wraps around and is not looked at again. This is the definition
with wrapping arithmetic, which reads such a method like any other. -/
def Method.read (store : Store) (owner : TypeId) (index : MethodIndex) : Except Fault Method := do
  let row ← store.method index
  let run := row.parameterStart.run row.parameterCount
  let parameters ← run.zipIdx.mapM fun (parameter, position) =>
    Parameter.read store parameter position
  let name ← store.string row.name
  return { index, name, token := row.token, flags := row.flags, declaringType := owner,
           returnType := { usage := row.returnType }, parameters }

/-- Reads the fields of a definition, in the order of their rows. -/
def TypeDefinition.readFields (store : Store) (owner : TypeId) (row : TypeDefinition) :
    Except Fault (List Field) :=
  (row.fieldStart.run row.fieldCount).mapM (Field.read store owner)

/-- Reads the methods of a definition, in the order of their rows. -/
def TypeDefinition.readMethods (store : Store) (owner : TypeId) (row : TypeDefinition) :
    Except Fault (List Method) :=
  (row.methodStart.run row.methodCount).mapM (Method.read store owner)

/-! ### Places of links -/

/-- A place in a definition where a link stands, counting its members from zero. -/
inductive MemberSite where
  | field (position : Nat)
  | returnType (method : Nat)
  | parameter (method position : Nat)
  deriving DecidableEq, Repr

end TypeGraph
