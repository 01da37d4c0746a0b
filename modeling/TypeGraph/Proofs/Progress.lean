import Mathlib.Logic.Relation
import TypeGraph.Proofs.Identity
import TypeGraph.Proofs.Reading
import TypeGraph.Proofs.Slots

/-!
# Steps of a transaction

However a request goes on, and however it ends, it changes its transaction in three ways only. It
reserves the slot of a definition and lets it wait; it makes a placeholder or a composite, whose
operands have handles already; or it fills the slot of a definition that waits.
`Transaction.Step` says so, with everything that holds at the moment of the step. What is true
throughout a request is then shown once for each kind of step, and not again for each way through
the resolver.

The order in which definitions wait is no part of this: for a step, the queue is a bag.

## Main definitions

* `Arena.Makes` — what a placeholder or a composite has to do with the tree that it stands for
* `Arena.Portrays` — what the contents of a definition have to do with its row
* `Transaction.Step`, `Transaction.Steps` — one change of a transaction, and any number of them

## Main results

* `Transaction.Steps.remembers` — no step takes a key away from its handle
-/

namespace TypeGraph

/-! ### New entities -/

namespace Arena

/-- How a placeholder or a composite is made for a tree: with which attributes, whether a generic
parameter occurs in it, and with which shape. The operands are those that the arena has for the
parts of the tree. -/
inductive Makes (store : Store) (arena : Arena) :
    TypeTree → TypeAttributes → Bool → TypeShape → Prop where
  | genericParameter {index : GenericParameterIndex} {ofMethod : Bool} {row : GenericParameterRow}
      (found : store.genericParameter index = .ok row) :
      Makes store arena (.genericParameter index ofMethod) .ofClass true
        (.genericParameter index row.position ofMethod (placeholderName row.position))
  | genericInstance {index : DefinitionIndex} {trees : List TypeTree} {head : TypeId}
      {arguments : List TypeId} {flags : List Bool}
      (generic : arena.reserved? (.definition index) = some head)
      (operands : arena.idsOf trees = some arguments)
      (flagged : arguments.mapM arena.containsParameters = .ok flags) :
      Makes store arena (.genericInstance index trees) .ofClass (flags.any id)
        (.genericInstance head index arguments)
  | array {tree : TypeTree} {rank : UInt32} {element : TypeId} {flag : Bool}
      (operand : arena.idOf tree = some element)
      (flagged : arena.containsParameters element = .ok flag) :
      Makes store arena (.array tree rank) .none flag (.array element rank false)
  | vector {tree : TypeTree} {element : TypeId} {flag : Bool}
      (operand : arena.idOf tree = some element)
      (flagged : arena.containsParameters element = .ok flag) :
      Makes store arena (.vector tree) .none flag (.array element 1 true)
  | pointer {tree : TypeTree} {pointee : TypeId} {flag : Bool}
      (operand : arena.idOf tree = some pointee)
      (flagged : arena.containsParameters pointee = .ok flag) :
      Makes store arena (.pointer tree) .none flag (.pointer pointee)

/-- The contents of a waiting definition are those of its row, and its base is what the arena has
for the tree of the parent. -/
structure Portrays (store : Store) (limit : Nat) (arena : Arena) (waiting : Pending)
    (definition : Definition) : Prop where
  index : definition.index = waiting.index
  namespaceName : store.string waiting.row.namespaceName = .ok definition.namespaceName
  name : store.string waiting.row.name = .ok definition.name
  base : ∃ parent, store.readParent limit waiting.row = .ok parent ∧
    parent.map arena.idOf = definition.base.map some
  fields : waiting.row.readFields store waiting.id = .ok definition.fields
  methods : waiting.row.readMethods store waiting.id = .ok definition.methods

variable {store : Store} {arena : Arena} {tree : TypeTree} {attributes : TypeAttributes}
  {flag : Bool} {shape : TypeShape}

/-- What is made for a tree has the key of the tree. -/
theorem Makes.keyOf (h : Makes store arena tree attributes flag shape) :
    arena.keyOf tree = some shape.key := by
  cases h with
  | genericParameter found => rfl
  | genericInstance generic operands flagged =>
    exact keyOf_genericInstance.mpr ⟨_, _, generic, operands, rfl⟩
  | array operand flagged | vector operand flagged | pointer operand flagged =>
    rw [Arena.keyOf, operand]
    rfl

/-- Only definitions are found by a full name, and none is made in this way. -/
theorem Makes.definition?_eq_none (h : Makes store arena tree attributes flag shape)
    {entity : TypeEntity} (hshape : entity.shape = shape) : entity.definition? = none := by
  cases h <;> simp [TypeEntity.definition?, hshape]

theorem remembers_reserve {key : TypeKey} (free : arena.reserved? key = none) :
    arena.Remembers (arena.reserve key).2 := by
  intro key' id found
  rw [reserved?_reserve, if_neg]
  · exact found
  · rintro rfl
    rw [free] at found
    cases found

theorem remembers_fill {filled : Arena} {id : TypeId} {entity : TypeEntity}
    (h : arena.fill id entity = .ok filled) : arena.Remembers filled :=
  .of_eq (reserved?_fill h)

end Arena

/-- The entity that fills the slot of a waiting definition. -/
def Pending.entity (waiting : Pending) (definition : Definition) : TypeEntity where
  id := waiting.id
  origin := .definition waiting.index
  attributes := .ofFlags waiting.row.flags
  containsParameters := false
  shape := .definition definition

/-! ### Steps -/

namespace Transaction

/-- One change of a transaction. -/
inductive Step (store : Store) (limit : Nat) : Transaction → Transaction → Prop where
  /-- The slot of a definition is reserved, and the definition waits. -/
  | reserve {before : Transaction} {index : DefinitionIndex} {row : TypeDefinition} {id : TypeId}
      {arena : Arena} {pending : List Pending}
      (free : before.arena.reserved? (.definition index) = none)
      (found : store.definition index = .ok row)
      (reserved : before.arena.reserve (.definition index) = (id, arena))
      (queued : pending.Perm (⟨index, id, row⟩ :: before.pending)) :
      Step store limit before
        { arena, journal := (.definition index, id) :: before.journal, pending }
  /-- A placeholder or a composite is made from a usage. -/
  | make {before : Transaction} {usage : TypeUsage} {tree : TypeTree}
      {attributes : TypeAttributes} {containsParameters : Bool} {shape : TypeShape} {id : TypeId}
      {arena filled : Arena}
      (denotes : Denotes store usage tree) (shallow : tree.depth ≤ limit)
      (makes : before.arena.Makes store tree attributes containsParameters shape)
      (free : before.arena.reserved? shape.key = none)
      (reserved : before.arena.reserve shape.key = (id, arena))
      (fills : arena.fill id { id, origin := .usage usage, attributes, containsParameters, shape } =
        .ok filled) :
      Step store limit before
        { before with arena := filled, journal := (shape.key, id) :: before.journal }
  /-- A definition that waits is filled, and waits no longer. -/
  | fill {before : Transaction} {waiting : Pending} {definition : Definition} {arena : Arena}
      {pending : List Pending} (queued : before.pending.Perm (waiting :: pending))
      (portrays : before.arena.Portrays store limit waiting definition)
      (fills : before.arena.fill waiting.id (waiting.entity definition) = .ok arena) :
      Step store limit before { before with arena, pending }

/-- Any number of changes of a transaction. -/
abbrev Steps (store : Store) (limit : Nat) : Transaction → Transaction → Prop :=
  Relation.ReflTransGen (Step store limit)

variable {store : Store} {limit : Nat} {before after : Transaction}

theorem Step.remembers (h : Step store limit before after) :
    before.arena.Remembers after.arena := by
  cases h with
  | reserve free found reserved queued =>
    obtain ⟨rfl, rfl⟩ := Prod.mk.inj reserved
    exact Arena.remembers_reserve free
  | make denotes shallow makes free reserved fills =>
    obtain ⟨rfl, rfl⟩ := Prod.mk.inj reserved
    exact (Arena.remembers_reserve free).trans (Arena.remembers_fill fills)
  | fill queued portrays fills => exact Arena.remembers_fill fills

/-- No step takes a key away from its handle. -/
theorem Steps.remembers (h : Steps store limit before after) :
    before.arena.Remembers after.arena := by
  induction h with
  | refl => exact Arena.Remembers.refl _
  | tail _ step ih => exact ih.trans step.remembers

end Transaction

end TypeGraph
