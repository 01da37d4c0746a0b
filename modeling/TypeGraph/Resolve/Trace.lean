import TypeGraph.Resolve.Request

/-!
# Requests that keep a record

A request answers with a handle or with a fault, and shows nothing of the moments in between. Here
the resolver is written out once more, so that it keeps a record while it works: of every call the
moment before it and the moment after it, and of every round of the loop that fills what waits the
moment at which it looks at its stack.

A moment also has two things that a transaction does not need. The nesting of composites is counted
by a depth that goes up when a composite is entered and down when it is left, where the resolver is
given the levels that remain; and the definition that is being filled is noted, which has left the
stack by then. That the recorded request is the request itself is shown together with what the
record says.

## Main definitions

* `Moment`, `Call`, `Return`, `Trace` — what is recorded
* `Call.run` — what a call does to a transaction, by the resolver itself
* `Tracing` — steps that keep a record, and the resolver in such steps
* `FirstStep.trace` — a whole request with its record
-/

namespace TypeGraph

/-! ### Records -/

/-- What there is to see of a request at one moment. -/
structure Moment extends Transaction where
  /-- How many composites are being resolved inside each other. -/
  depth : Nat := 0
  /-- The definition that is being filled: it has been taken off the stack, and its slot is still
  empty. -/
  current : Option Pending := none
  deriving Inhabited

/-- A call that the resolver makes in the course of a request. -/
inductive Call where
  | definition (index : DefinitionIndex)
  | usage (usage : TypeUsage)
  | usageAt (address : Address)
  | construct (usage : TypeUsage) (attributes : TypeAttributes) (containsParameters : Bool)
      (shape : TypeShape)
  | fillDefinition (waiting : Pending)
  deriving DecidableEq, Repr

/-- A call that has come to an end, with a fault if it failed. -/
structure Return where
  call : Call
  before : Moment
  after : Moment
  fault : Option Fault

/-- A request in progress, with the record that it has kept so far. -/
structure Trace extends Moment where
  /-- The calls that have come to an end, the last one first. -/
  returns : List Return := []
  /-- The moments at which the loop looked at its stack, the last one first. -/
  rounds : List Moment := []
  deriving Inhabited

/-! ### Calls -/

/-- How a step ends: with a fault, if any, and in a transaction. -/
def Resolving.ending {α : Type} : EStateM.Result Fault Transaction α → Option Fault × Transaction
  | .ok _ transaction => (none, transaction)
  | .error fault transaction => (some fault, transaction)

/-- What a call does to a transaction, when so many composites are open already. -/
def Call.run (store : Store) (limit depth : Nat) (call : Call) (transaction : Transaction) :
    Option Fault × Transaction :=
  let resolve := Resolving.usage store limit (limit - depth)
  match call with
  | .definition index => Resolving.ending ((Resolving.definition store index).run transaction)
  | .usage found => Resolving.ending ((resolve found).run transaction)
  | .usageAt address =>
    Resolving.ending ((Resolving.operand store resolve address).run transaction)
  | .construct found attributes containsParameters shape =>
    Resolving.ending
      ((Resolving.construct found attributes containsParameters shape).run transaction)
  | .fillDefinition waiting =>
    Resolving.ending ((Resolving.fillDefinition store limit waiting).run transaction)

/-! ### Steps that keep a record -/

/-- A step of a request that keeps a record. -/
abbrev Tracing := EStateM Fault Trace

namespace Tracing

/-- A trace in which the transaction has been changed, and nothing else. -/
def within (trace : Trace) (transaction : Transaction) : Trace :=
  { trace with
    arena := transaction.arena, journal := transaction.journal, pending := transaction.pending }

/-- A step of a transaction, taken in a request that keeps a record. -/
instance : MonadLift Resolving Tracing where
  monadLift step trace :=
    match step.run trace.toTransaction with
    | .ok value after => .ok value (within trace after)
    | .error fault after => .error fault (within trace after)

@[simp] theorem run_lift {α : Type} (step : Resolving α) (trace : Trace) :
    (monadLift step : Tracing α).run trace =
      match step.run trace.toTransaction with
      | .ok value after => .ok value (within trace after)
      | .error fault after => .error fault (within trace after) := rfl

/-- Takes a step as a call, and records the call when it has come to an end. -/
def call {α : Type} (made : Call) (step : Tracing α) : Tracing α := fun trace =>
  match step.run trace with
  | .ok value after =>
    .ok value
      { after with returns := ⟨made, trace.toMoment, after.toMoment, none⟩ :: after.returns }
  | .error fault after =>
    .error fault
      { after with returns := ⟨made, trace.toMoment, after.toMoment, some fault⟩ :: after.returns }

@[simp] theorem run_call {α : Type} (made : Call) (step : Tracing α) (trace : Trace) :
    (call made step).run trace =
      match step.run trace with
      | .ok value after =>
        .ok value
          { after with returns := ⟨made, trace.toMoment, after.toMoment, none⟩ :: after.returns }
      | .error fault after =>
        .error fault
          { after with
            returns := ⟨made, trace.toMoment, after.toMoment, some fault⟩ :: after.returns } := rfl

/-- Takes a step one level further in, unless that would be too deep. The depth goes down again
whether the step succeeds or fails. -/
def descend {α : Type} (limit : Nat) (step : Tracing α) : Tracing α := fun trace =>
  if limit ≤ trace.depth then .error (.recursionLimit limit) trace
  else
    match step.run { trace with depth := trace.depth + 1 } with
    | .ok value after => .ok value { after with depth := after.depth - 1 }
    | .error fault after => .error fault { after with depth := after.depth - 1 }

theorem run_descend_of_lt {α : Type} {limit : Nat} {trace : Trace} (room : trace.depth < limit)
    (step : Tracing α) :
    (descend limit step).run trace =
      match step.run { trace with depth := trace.depth + 1 } with
      | .ok value after => .ok value { after with depth := after.depth - 1 }
      | .error fault after => .error fault { after with depth := after.depth - 1 } :=
  if_neg (Nat.not_le_of_lt room)

theorem run_descend_of_le {α : Type} {limit : Nat} {trace : Trace} (full : limit ≤ trace.depth)
    (step : Tracing α) :
    (descend limit step).run trace = .error (.recursionLimit limit) trace :=
  if_pos full

/-! ### The resolver -/

/-- Finds the slot of a definition, or reserves it and lets the definition wait. -/
def definition (store : Store) (index : DefinitionIndex) : Tracing TypeId :=
  call (.definition index) (liftM (Resolving.definition store index))

/-- Finds the type of a given shape, or makes it from a usage. -/
def construct (usage : TypeUsage) (attributes : TypeAttributes) (containsParameters : Bool)
    (shape : TypeShape) : Tracing TypeId :=
  call (.construct usage attributes containsParameters shape)
    (liftM (Resolving.construct usage attributes containsParameters shape))

/-- Finds the placeholder of a generic parameter, or makes it. -/
def genericParameter (store : Store) (usage : TypeUsage) (index : GenericParameterIndex)
    (ofMethod : Bool) : Tracing TypeId := do
  if let some id ← Resolving.reserved? (.genericParameter index ofMethod) then
    return id
  let row ← store.genericParameter index
  construct usage .ofClass true
    (.genericParameter index row.position ofMethod (placeholderName row.position))

/-- Resolves a usage that is mapped at an address by `inner`. -/
def usageAt (store : Store) (inner : TypeUsage → Tracing TypeId) (address : Address) :
    Tracing TypeId :=
  call (.usageAt address) do inner (← store.usageAt address)

/-- Resolves a composite whose operands are resolved by `inner`. -/
def composite (store : Store) (inner : TypeUsage → Tracing TypeId) (usage : TypeUsage) :
    Composite → Tracing TypeId
  | .genericInstance address => do
    let generic ← store.genericClass address
    let head ← definition store generic.definition
    let instantiation ← store.instantiation generic.instantiation
    let addresses ←
      store.argumentAddresses instantiation.arguments instantiation.argumentCount
    let arguments ← addresses.mapM (usageAt store inner)
    let flags ← arguments.mapM fun id => (Resolving.containsParameters id : Tracing Bool)
    construct usage .ofClass (flags.any id)
      (.genericInstance head generic.definition arguments)
  | .array address => do
    let descriptor ← store.arrayDescriptor address
    let rank ← descriptor.checkedRank
    let element ← usageAt store inner descriptor.element
    construct usage .none (← Resolving.containsParameters element) (.array element rank false)
  | .vector address => do
    let element ← usageAt store inner address
    construct usage .none (← Resolving.containsParameters element) (.array element 1 true)
  | .pointer address => do
    let pointee ← usageAt store inner address
    construct usage .none (← Resolving.containsParameters pointee) (.pointer pointee)

/-- Resolves a usage by its shape, a composite by `nested`. -/
def byShape (store : Store) (nested : TypeUsage → Composite → Tracing TypeId)
    (usage : TypeUsage) : Tracing TypeId := do
  match ← usage.shape with
  | .definition index | .primitive _ index => definition store index
  | .genericParameter index ofMethod => genericParameter store usage index ofMethod
  | .composite found => nested usage found

/-- Resolves a usage, a composite one level further in. The depth alone decides where that is too
deep; `levels` only bounds the recursion, and never runs out before the depth has reached the limit
if it is as large as the limit at the outermost usage. -/
def usage (store : Store) (limit : Nat) : (levels : Nat) → TypeUsage → Tracing TypeId
  | 0, found => call (.usage found) (byShape store (fun _ _ => throw (.recursionLimit limit)) found)
  | levels + 1, found =>
    call (.usage found)
      (byShape store
        (fun outer inner => descend limit (composite store (usage store limit levels) outer inner))
        found)

/-- Resolves the type that a definition derives from. -/
def base (store : Store) (limit : Nat) (row : TypeDefinition) : Tracing (Option TypeId) :=
  row.parent.mapM fun parent => do usage store limit limit (← store.usage parent)

/-- Puts the entity of the definition that is being filled into its slot. -/
def finish (waiting : Pending) (entity : TypeEntity) : Tracing Unit := do
  Resolving.fill waiting.id entity
  modify fun trace => { trace with current := none }

/-- Reads the contents of a waiting definition and fills its slot. -/
def fillDefinition (store : Store) (limit : Nat) (waiting : Pending) : Tracing Unit :=
  call (.fillDefinition waiting) do
    let row := waiting.row
    let namespaceName ← store.string row.namespaceName
    let name ← store.string row.name
    let base ← base store limit row
    let fields ← row.readFields store waiting.id
    let methods ← row.readMethods store waiting.id
    finish waiting
      { id := waiting.id
        origin := .definition waiting.index
        attributes := .ofFlags row.flags
        containsParameters := false
        shape := .definition
          { index := waiting.index, namespaceName, name, base, fields, methods } }

/-! ### Requests -/

/-- Records the moment at which the loop looks at its stack. -/
def look : Tracing Unit :=
  modify fun trace => { trace with rounds := trace.toMoment :: trace.rounds }

/-- Takes the topmost definition off the stack. From now on it is the one that is being filled. -/
def pop : Tracing (Option Pending) :=
  modifyGet fun trace =>
    match trace.pending with
    | [] => (none, trace)
    | waiting :: rest => (some waiting, { trace with pending := rest, current := some waiting })

/-- Fills every definition that waits, the topmost first, in so many rounds at most. -/
def complete (store : Store) (limit : Nat) : (rounds : Nat) → Tracing Unit
  | 0 => look
  | rounds + 1 => do
    look
    if let some waiting ← pop then
      fillDefinition store limit waiting
      complete store limit rounds

/-- Where nothing waits, the loop looks once. -/
theorem run_complete_of_nil {store : Store} {limit : Nat} {trace : Trace}
    (idle : trace.pending = []) (rounds : Nat) :
    (complete store limit rounds).run trace =
      .ok () { trace with rounds := trace.toMoment :: trace.rounds } := by
  cases rounds with
  | zero => rfl
  | succ rounds =>
    simp only [complete, look, pop, EStateM.run_bind, EStateM.run_modify, EStateM.run_modifyGet,
      idle, EStateM.run_pure]

/-- The topmost definition is filled before all others. -/
theorem run_complete_of_cons {store : Store} {limit : Nat} {trace : Trace} {waiting : Pending}
    {rest : List Pending} (top : trace.pending = waiting :: rest) (rounds : Nat) :
    (complete store limit (rounds + 1)).run trace =
      (do fillDefinition store limit waiting; complete store limit rounds).run
        { trace with
          pending := rest
          current := some waiting
          rounds := trace.toMoment :: trace.rounds } := by
  simp only [complete, look, pop, EStateM.run_bind, EStateM.run_modify, EStateM.run_modifyGet, top]

/-- The answer of a request that has kept a record, and the arena that it leaves. -/
def answer {α : Type} : EStateM.Result Fault Trace α → Except Fault α × Arena
  | .ok value trace => (.ok value, trace.arena)
  | .error fault trace => (.error fault, trace.rollback)

/-- The record of a request when it has come to an end. If it failed, that is before anything is
withdrawn. -/
def final {α : Type} : EStateM.Result Fault Trace α → Trace
  | .ok _ trace => trace
  | .error _ trace => trace

end Tracing

/-- What a request begins with. -/
inductive FirstStep where
  | definition (index : DefinitionIndex)
  | usage (usage : TypeUsage)
  deriving DecidableEq, Repr

namespace FirstStep

/-- The first step of a request. -/
def step (store : Store) (limit : Nat) : FirstStep → Resolving TypeId
  | .definition index => Resolving.definition store index
  | .usage found => Resolving.usage store limit limit found

/-- The first step of a request that keeps a record. -/
def tracing (store : Store) (limit : Nat) : FirstStep → Tracing TypeId
  | .definition index => Tracing.definition store index
  | .usage found => Tracing.usage store limit limit found

/-- A request with the work that its first step leaves behind, and with the record of it. Whatever
is outstanding after the first step bounds the rounds. -/
def trace (store : Store) (limit : Nat) (start : Arena) (first : FirstStep) :
    EStateM.Result Fault Trace TypeId :=
  (do let id ← first.tracing store limit
      Tracing.complete store limit ((← get).outstanding store)
      return id : Tracing TypeId).run { arena := start }

end FirstStep

end TypeGraph
