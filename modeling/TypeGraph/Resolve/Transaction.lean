import TypeGraph.Arena

/-!
# Transactions

A request to resolve a type may have to make many types before it has its answer, and may fail at
any of them. It therefore runs as a transaction: every reservation is entered into a journal, and
when the request fails, all of them are withdrawn again, the newest first.

Definitions that are met on the way are only reserved. They wait on a stack with their rows, and are
filled one after the other once the request's own type is made. So a chain of base types is walked
without nesting, however long it is.

## Main definitions

* `Transaction` — an arena that is being changed, with its journal and its waiting definitions
* `Resolving` — steps of a transaction, which may fail
* `Resolving.reserve`, `Resolving.fill`, `Resolving.enqueue` — the steps that change something
* `Resolving.construct` — finds or makes a type whose operands are known
* `Transaction.rollback` — the arena with the whole journal withdrawn

## Main results

* `Resolving.run_lift`, `Resolving.run_reserve`, `Resolving.run_fill`, `Resolving.run_enqueue` —
  what a step does
* `Resolving.run_construct_of_reserved`, `Resolving.run_construct_of_free` — what `construct` does
-/

namespace TypeGraph

/-- A definition that is reserved, and will be filled from its row. -/
structure Pending where
  index : DefinitionIndex
  id : TypeId
  row : TypeDefinition
  deriving DecidableEq, Repr, Inhabited

/-- An arena that is being changed by a request. -/
structure Transaction where
  arena : Arena
  /-- The reservations made so far, the newest first. -/
  journal : List (TypeKey × TypeId) := []
  /-- The definitions that wait to be filled; the one on top is next. -/
  pending : List Pending := []
  deriving Inhabited

/-- The arena as it is once every reservation of a transaction is withdrawn, the newest first. -/
def Transaction.rollback (transaction : Transaction) : Arena :=
  transaction.journal.foldl (fun arena (key, id) => arena.withdraw key id) transaction.arena

/-- A step of a transaction. A step that fails keeps what it had done until then, so that the
journal still lists it. -/
abbrev Resolving := EStateM Fault Transaction

namespace Resolving

/-- Reading a store or an arena is a step that changes nothing. -/
instance : MonadLift (Except Fault) Resolving where
  monadLift
    | .ok value => pure value
    | .error fault => throw fault

@[simp] theorem run_lift {α : Type} (reading : Except Fault α) (transaction : Transaction) :
    (monadLift reading : Resolving α).run transaction =
      match reading with
      | .ok value => .ok value transaction
      | .error fault => .error fault transaction := by
  cases reading <;> rfl

/-! ### Reading the arena -/

/-- The handle that is reserved for a key, filled or not. -/
def reserved? (key : TypeKey) : Resolving (Option TypeId) :=
  return (← get).arena.reserved? key

/-- Whether a generic parameter occurs somewhere in a type. -/
def containsParameters (id : TypeId) : Resolving Bool := do
  (← get).arena.containsParameters id

/-! ### Changing the arena -/

/-- Reserves a slot for a key and enters it into the journal. -/
def reserve (key : TypeKey) : Resolving TypeId :=
  modifyGet fun transaction =>
    let (id, arena) := transaction.arena.reserve key
    (id, { transaction with arena, journal := (key, id) :: transaction.journal })

@[simp] theorem run_reserve (key : TypeKey) (transaction : Transaction) :
    (reserve key).run transaction =
      .ok (transaction.arena.reserve key).1
        { transaction with
          arena := (transaction.arena.reserve key).2
          journal := (key, (transaction.arena.reserve key).1) :: transaction.journal } := rfl

/-- Puts an entity into its reserved slot. -/
def fill (id : TypeId) (entity : TypeEntity) : Resolving Unit := fun transaction =>
  match transaction.arena.fill id entity with
  | .ok arena => .ok () { transaction with arena }
  | .error fault => .error fault transaction

@[simp] theorem run_fill (id : TypeId) (entity : TypeEntity) (transaction : Transaction) :
    (fill id entity).run transaction =
      match transaction.arena.fill id entity with
      | .ok arena => .ok () { transaction with arena }
      | .error fault => .error fault transaction := rfl

/-- Lets a reserved definition wait to be filled. -/
def enqueue (waiting : Pending) : Resolving Unit :=
  modify fun transaction => { transaction with pending := waiting :: transaction.pending }

@[simp] theorem run_enqueue (waiting : Pending) (transaction : Transaction) :
    (enqueue waiting).run transaction =
      .ok () { transaction with pending := waiting :: transaction.pending } := rfl

/-- Finds the type of a given shape, or makes it from a usage. The operands of the shape are
resolved already, so the key is known and the slot is filled as soon as it is reserved. -/
def construct (usage : TypeUsage) (attributes : TypeAttributes) (containsParameters : Bool)
    (shape : TypeShape) : Resolving TypeId := do
  if let some id ← reserved? shape.key then
    return id
  let id ← reserve shape.key
  fill id { id, origin := .usage usage, attributes, containsParameters, shape }
  return id

variable {usage : TypeUsage} {attributes : TypeAttributes} {flag : Bool} {shape : TypeShape}
  {id : TypeId} {filled : Arena} {transaction : Transaction}

/-- A shape whose key leads somewhere is found there. -/
theorem run_construct_of_reserved (h : transaction.arena.reserved? shape.key = some id) :
    (construct usage attributes flag shape).run transaction = .ok id transaction := by
  simp [construct, reserved?, h]

/-- A shape whose key is free is made. -/
theorem run_construct_of_free (free : transaction.arena.reserved? shape.key = none)
    (fills : (transaction.arena.reserve shape.key).2.fill (transaction.arena.reserve shape.key).1
      ⟨(transaction.arena.reserve shape.key).1, .usage usage, attributes, flag, shape⟩ =
        .ok filled) :
    (construct usage attributes flag shape).run transaction =
      .ok (transaction.arena.reserve shape.key).1
        { transaction with
          arena := filled
          journal := (shape.key, (transaction.arena.reserve shape.key).1) ::
            transaction.journal } := by
  simp [construct, reserved?, free, fills, -bind_pure_comp]

end Resolving

end TypeGraph
