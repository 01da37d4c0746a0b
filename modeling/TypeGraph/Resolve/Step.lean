import TypeGraph.Shape
import TypeGraph.Resolve.Transaction

/-!
# Steps of resolution

How usages and definitions become types, as steps of a transaction.

A usage is resolved by its shape. A definition row leads to the definition's slot, reserved now if
it was not before. A composite is resolved after its operands, each of which is a usage of its own,
one level further in; a composite that would lie too deep is refused before anything of it is read.
A generic parameter becomes a placeholder that is named by its position.

A waiting definition is filled by reading its strings, resolving its base, and reading its members.
Its base is a usage that starts at the outermost level again.

## Main definitions

* `Resolving.definition`, `Resolving.genericParameter`, `Resolving.composite` — by shape
* `Resolving.usage` — any usage, down to a limit
* `Resolving.fillDefinition` — the contents of a waiting definition

## Main results

* `ArrayDescriptor.checkedRank_eq_ok_iff` — which ranks pass the check
* `Resolving.run_definition_of_reserved`, `Resolving.run_definition_of_error`,
  `Resolving.run_definition_of_row` — how the definition of a row runs
-/

namespace TypeGraph

/-- The name of the placeholder for the generic parameter at a position. The first one carries no
number. -/
def placeholderName (position : UInt16) : String :=
  if position = 0 then "T" else "T" ++ toString position

/-- The rank of an array descriptor. An array has at least one dimension. -/
def ArrayDescriptor.checkedRank (descriptor : ArrayDescriptor) : Except Fault UInt32 :=
  if 1 ≤ descriptor.rank then .ok descriptor.rank.toUInt32 else .error (.arrayRank descriptor.rank)

theorem ArrayDescriptor.checkedRank_eq_ok_iff {descriptor : ArrayDescriptor} {rank : UInt32} :
    descriptor.checkedRank = .ok rank ↔ 1 ≤ descriptor.rank ∧ rank = descriptor.rank.toUInt32 := by
  rw [checkedRank]
  split
  · next counted => rw [Except.ok.injEq, eq_comm, and_iff_right counted]
  · next counted =>
    refine iff_of_false (fun h => ?_) fun h => counted h.1
    cases h

namespace Resolving

/-! ### By shape -/

/-- Finds the slot of a definition, or reserves it and lets the definition wait. A row that does
not exist is refused before anything is reserved. -/
def definition (store : Store) (index : DefinitionIndex) : Resolving TypeId := do
  if let some id ← reserved? (.definition index) then
    return id
  let row ← store.definition index
  let id ← reserve (.definition index)
  enqueue { index, id, row }
  return id

theorem run_definition_of_reserved {store : Store} {index : DefinitionIndex} {id : TypeId}
    {transaction : Transaction} (h : transaction.arena.reserved? (.definition index) = some id) :
    (definition store index).run transaction = .ok id transaction := by
  simp [definition, reserved?, h]

theorem run_definition_of_error {store : Store} {index : DefinitionIndex} {fault : Fault}
    {transaction : Transaction} (free : transaction.arena.reserved? (.definition index) = none)
    (h : store.definition index = .error fault) :
    (definition store index).run transaction = .error fault transaction := by
  simp [definition, reserved?, free, h]

theorem run_definition_of_row {store : Store} {index : DefinitionIndex} {row : TypeDefinition}
    {transaction : Transaction} (free : transaction.arena.reserved? (.definition index) = none)
    (found : store.definition index = .ok row) :
    (definition store index).run transaction =
      .ok (transaction.arena.reserve (.definition index)).1
        { arena := (transaction.arena.reserve (.definition index)).2
          journal := (.definition index, (transaction.arena.reserve (.definition index)).1) ::
            transaction.journal
          pending := ⟨index, (transaction.arena.reserve (.definition index)).1, row⟩ ::
            transaction.pending } := by
  simp [definition, reserved?, free, found, -bind_pure_comp]

/-- Finds the placeholder of a generic parameter, or makes it. The row is read only to make it. -/
def genericParameter (store : Store) (usage : TypeUsage) (index : GenericParameterIndex)
    (ofMethod : Bool) : Resolving TypeId := do
  if let some id ← reserved? (.genericParameter index ofMethod) then
    return id
  let row ← store.genericParameter index
  construct usage .ofClass true
    (.genericParameter index row.position ofMethod (placeholderName row.position))

/-- Resolves the operand of a composite, a usage that is mapped at an address, by `inner`. -/
def operand (store : Store) (inner : TypeUsage → Resolving TypeId) (address : Address) :
    Resolving TypeId := do
  inner (← store.usageAt address)

/-- Resolves a composite whose operands are resolved by `inner`. Every record is read when it is
needed: the definition of an instantiation is resolved before its argument list is read, and the
rank of an array is checked before its element is. -/
def composite (store : Store) (inner : TypeUsage → Resolving TypeId) (usage : TypeUsage) :
    Composite → Resolving TypeId
  | .genericInstance address => do
    let generic ← store.genericClass address
    let head ← definition store generic.definition
    let instantiation ← store.instantiation generic.instantiation
    let addresses ←
      store.argumentAddresses instantiation.arguments instantiation.argumentCount
    let arguments ← addresses.mapM (operand store inner)
    let flags ← arguments.mapM containsParameters
    construct usage .ofClass (flags.any id)
      (.genericInstance head generic.definition arguments)
  | .array address => do
    let descriptor ← store.arrayDescriptor address
    let rank ← descriptor.checkedRank
    let element ← operand store inner descriptor.element
    construct usage .none (← containsParameters element) (.array element rank false)
  | .vector address => do
    let element ← operand store inner address
    construct usage .none (← containsParameters element) (.array element 1 true)
  | .pointer address => do
    let pointee ← operand store inner address
    construct usage .none (← containsParameters pointee) (.pointer pointee)

/-- Resolves a usage by its shape, a composite by `nested`. -/
def byShape (store : Store) (nested : TypeUsage → Composite → Resolving TypeId)
    (usage : TypeUsage) : Resolving TypeId := do
  match ← usage.shape with
  | .definition index | .primitive _ index => definition store index
  | .genericParameter index ofMethod => genericParameter store usage index ofMethod
  | .composite found => nested usage found

/-! ### Usages -/

/-- Resolves a usage in which composites may lie inside each other down to `levels` levels. The
`limit` that is reported where they lie deeper is the one that the outermost usage started with. -/
def usage (store : Store) (limit : Nat) : (levels : Nat) → TypeUsage → Resolving TypeId
  | 0 => byShape store fun _ _ => throw (.recursionLimit limit)
  | levels + 1 => byShape store (composite store (usage store limit levels))

/-- Resolves the type that a definition derives from. -/
def base (store : Store) (limit : Nat) (row : TypeDefinition) : Resolving (Option TypeId) :=
  row.parent.mapM fun parent => do usage store limit limit (← store.usage parent)

/-! ### Definitions -/

/-- Reads the contents of a waiting definition and fills its slot. Its members are read but not
resolved. -/
def fillDefinition (store : Store) (limit : Nat) (waiting : Pending) : Resolving Unit := do
  let row := waiting.row
  let namespaceName ← store.string row.namespaceName
  let name ← store.string row.name
  let base ← base store limit row
  let fields ← row.readFields store waiting.id
  let methods ← row.readMethods store waiting.id
  fill waiting.id
    { id := waiting.id
      origin := .definition waiting.index
      attributes := .ofFlags row.flags
      containsParameters := false
      shape := .definition
        { index := waiting.index, namespaceName, name, base, fields, methods } }

end Resolving

end TypeGraph
