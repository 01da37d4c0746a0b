import Mathlib
import TypeGraph.Proofs.Surveys
import TypeGraph.Proofs.Termination

/-!
# Internal faults

Three faults would blame the resolver and not the image: a type that is read before it is filled, a
handle that was never issued, and a type that is filled twice. No request raises any of them. What a
request fails with is what reading the image fails with, and an image holds no handles.

The resolver has two places where it might. Before it makes a composite it asks of each operand
whether a generic parameter occurs in it, and the operand may be a definition that is not filled
yet, reached around some circle. And it fills definitions in an order that depends on how they were
met. So this module also says what such a place is like whenever a request comes to it, also if it
fails later: an operand that is asked about is filled or is a definition, and a definition whose
turn it is has an empty slot, which nothing else in the queue will fill.

## Main definitions

* `Fault.isInternal`, `External` — the faults that blame the resolver, and readings without them
* `Resolving.Asks` — while a usage is resolved, a type is asked about at some moment
* `Resolving.Comes` — the transactions that the loop of a request comes to
* `Arena.Asks`, `Arena.Turn` — the same of a whole request
* `TypeModel.Guarded` — no request raises an internal fault, and why

## Main results

* `Store.external_readTree`, `Store.external_readDefinition` — reading raises no internal fault
* `Resolving.Opens.exists_run_usage`, `Resolving.opens_or_fails` — what becomes of a composite, and
  what it asks
* `Resolving.Asks.answerable` — what is asked about is filled or is a definition
* `TypeModel.Reachable.guarded` — every reachable model is guarded
-/

namespace TypeGraph

/-- A fault is internal if it blames the resolver: a type was read before it was filled, a handle
was never issued, or a type was filled twice. -/
def Fault.isInternal : Fault → Bool
  | unfilled _ | unknownType _ | malformed (.filledTwice _) => true
  | _ => false

/-! ### Readings without internal faults -/

/-- A reading does not fail with an internal fault. -/
def External {α : Type} (reading : Except Fault α) : Prop :=
  ∀ ⦃fault⦄, reading = .error fault → fault.isInternal = false

section Readings

variable {α β : Type}

theorem external_ok (value : α) : External (.ok value) := FailsWith.ok value

theorem external_error {fault : Fault} (h : fault.isInternal = false) :
    External (.error fault : Except Fault α) := FailsWith.error h

theorem External.bind {reading : Except Fault α} {next : α → Except Fault β}
    (first : External reading) (second : ∀ value, External (next value)) :
    External (reading >>= next) :=
  FailsWith.bind first fun value _ => second value

theorem External.map {reading : Except Fault α} (h : External reading) (change : α → β) :
    External (reading.map change) :=
  FailsWith.map h change

theorem external_mapM {read : α → Except Fault β} (each : ∀ value, External (read value))
    (values : List α) : External (values.mapM read) :=
  FailsWith.mapM fun value _ => each value

end Readings

namespace Store

variable {store : Store} {limit : Nat}

theorem external_row {α : Type} {table : Table} (rows : Array α) (index : Index table) :
    External (row rows index) := by
  rw [row]
  split
  · exact external_ok _
  · exact external_error rfl

theorem external_string (offset : StringOffset) : External (store.string offset) := by
  rw [string, StringHeap.read]
  split
  · exact external_error rfl
  · split
    · exact external_error rfl
    · split
      · exact external_error rfl
      · exact external_ok _

theorem external_recordAt {α : Type} (expected : RecordKind) (select : MappedRecord → Option α)
    (address : Address) : External (store.recordAt expected select address) := by
  rw [recordAt]
  split
  · exact external_error rfl
  · split
    · exact external_ok _
    · exact external_error rfl

theorem external_argumentAddresses (address : Address) (count : UInt32) :
    External (store.argumentAddresses address count) := by
  refine (external_recordAt _ _ _).bind fun addresses => ?_
  split
  · exact external_ok _
  · exact external_error rfl

theorem external_usage (index : UsageIndex) : External (store.usage index) :=
  (external_row _ _).bind fun _ => external_recordAt _ _ _

end Store

theorem TypeUsage.external_operandIndex {table : Table} (usage : TypeUsage) :
    External (usage.operandIndex : Except Fault (Index table)) := by
  rw [operandIndex]
  split
  · exact external_ok _
  · exact external_error rfl

theorem TypeUsage.external_shape (usage : TypeUsage) : External usage.shape := by
  rw [shape]
  split
  · exact external_error rfl
  · exact (external_operandIndex _).map _
  · exact (external_operandIndex _).map _
  · exact (external_operandIndex _).map _
  · exact (external_operandIndex _).map _
  · exact (external_operandIndex _).map _
  · exact external_ok _
  · exact external_ok _
  · exact external_ok _
  · exact external_ok _

theorem ArrayDescriptor.external_checkedRank (descriptor : ArrayDescriptor) :
    External descriptor.checkedRank := by
  rw [checkedRank]
  split
  · exact external_ok _
  · exact external_error rfl

namespace Store

variable {store : Store} {limit : Nat}

theorem external_readOperand {inner : TypeUsage → Except Fault TypeTree}
    (each : ∀ usage, External (inner usage)) (address : Address) :
    External (store.readOperand inner address) :=
  (external_recordAt _ _ _).bind each

theorem external_readComposite {inner : TypeUsage → Except Fault TypeTree}
    (each : ∀ usage, External (inner usage)) (found : Composite) :
    External (store.readComposite inner found) := by
  cases found with
  | genericInstance address =>
    exact (external_recordAt _ _ _).bind fun _ => (external_row _ _).bind fun _ =>
      (external_recordAt _ _ _).bind fun _ => (external_argumentAddresses _ _).bind fun _ =>
      (external_mapM (external_readOperand each) _).bind fun _ => external_ok _
  | array address =>
    exact (external_recordAt _ _ _).bind fun descriptor =>
      descriptor.external_checkedRank.bind fun _ =>
      (external_readOperand each _).bind fun _ => external_ok _
  | vector address => exact (external_readOperand each _).bind fun _ => external_ok _
  | pointer address => exact (external_readOperand each _).bind fun _ => external_ok _

theorem external_readByShape {nested : Composite → Except Fault TypeTree}
    (each : ∀ found, External (nested found)) (usage : TypeUsage) :
    External (store.readByShape nested usage) := by
  refine usage.external_shape.bind fun shape => ?_
  cases shape with
  | definition index => exact (external_row _ _).bind fun _ => external_ok _
  | primitive kind index => exact (external_row _ _).bind fun _ => external_ok _
  | genericParameter index ofMethod => exact (external_row _ _).bind fun _ => external_ok _
  | composite found => exact each found

/-- **Reading a tree raises no internal fault.** -/
theorem external_readTree (levels : Nat) (usage : TypeUsage) :
    External (store.readTree limit levels usage) := by
  induction levels generalizing usage with
  | zero => exact external_readByShape (fun _ => external_error rfl) usage
  | succ levels ih => exact external_readByShape (external_readComposite ih) usage

theorem external_readParent (row : TypeDefinition) : External (store.readParent limit row) := by
  rw [readParent]
  cases row.parent with
  | none => exact external_ok _
  | some parent =>
    rw [Option.mapM_some]
    exact External.map ((external_usage _).bind (external_readTree limit)) some

theorem external_readFields (owner : TypeId) (row : TypeDefinition) :
    External (row.readFields store owner) :=
  external_mapM (fun _ => (external_row _ _).bind fun _ => (external_string _).bind fun _ =>
    external_ok _) _

theorem external_readMethods (owner : TypeId) (row : TypeDefinition) :
    External (row.readMethods store owner) := by
  have hparameter (index : ParameterIndex) (position : Nat) :
      External (Parameter.read store index position) :=
    (external_row _ _).bind fun _ => (external_string _).bind fun _ => external_ok _
  exact external_mapM (fun _ => (external_row _ _).bind fun _ =>
    (external_mapM (fun _ => hparameter _ _) _).bind fun _ =>
    (external_string _).bind fun _ => external_ok _) _

/-- **Reading what a definition is filled with raises no internal fault.** -/
theorem external_readDefinition (index : DefinitionIndex) :
    External (store.readDefinition limit index) :=
  (external_row _ _).bind fun row => (external_string _).bind fun _ =>
    (external_string _).bind fun _ => (external_readParent row).bind fun _ =>
    (external_readFields _ row).bind fun _ => (external_readMethods _ row).bind fun _ =>
    external_ok _

end Store

theorem Query.external_readTree (store : Store) (limit : Nat) (query : Query) :
    External (query.readTree store limit) := by
  have hasked : External (query.asked store) := by
    cases query with
    | usageIndex index => exact Store.external_usage index
    | _ => exact external_ok _
  exact hasked.bind (Store.external_readTree limit)

/-- What a request comes to is no internal fault, unless reading its tree raised one. -/
theorem Ends.external {store : Store} {limit : Nat} {known : DefinitionIndex → Bool}
    {reading result : Except Fault TypeTree} (h : Ends store limit known reading result)
    (external : External reading) : External result := by
  cases h with
  | fails => exact external
  | @goesOn tree outcome settles =>
    cases outcome with
    | ok _ => exact external_ok _
    | error fault =>
      obtain ⟨-, -, broken, -, hbroken⟩ := settles.exists_of_error
      exact external_error (Store.external_readDefinition broken hbroken)

/-! ### Questions about operands -/

namespace Resolving

open Transaction

/-- A composite is opened: what is read before its operands can be read, and the definition of an
instantiation is met. There come the addresses of its operands, and the transaction in which the
first of them is resolved. -/
inductive Opens (store : Store) :
    TypeUsage → Transaction → List Address → Transaction → Prop where
  | genericInstance {found : TypeUsage} {address : Address} {generic : GenericClass} {head : TypeId}
      {before opened : Transaction} {instantiation : GenericInstantiation}
      {addresses : List Address} (shape : found.shape = .ok (.composite (.genericInstance address)))
      (applied : store.genericClass address = .ok generic)
      (meets : (definition store generic.definition).run before = .ok head opened)
      (applies : store.instantiation generic.instantiation = .ok instantiation)
      (listed : store.argumentAddresses instantiation.arguments instantiation.argumentCount =
        .ok addresses) :
      Opens store found before addresses opened
  | array {found : TypeUsage} {address : Address} {descriptor : ArrayDescriptor} {rank : UInt32}
      {before : Transaction} (shape : found.shape = .ok (.composite (.array address)))
      (described : store.arrayDescriptor address = .ok descriptor)
      (ranked : descriptor.checkedRank = .ok rank) :
      Opens store found before [descriptor.element] before
  | vector {found : TypeUsage} {address : Address} {before : Transaction}
      (shape : found.shape = .ok (.composite (.vector address))) :
      Opens store found before [address] before
  | pointer {found : TypeUsage} {address : Address} {before : Transaction}
      (shape : found.shape = .ok (.composite (.pointer address))) :
      Opens store found before [address] before

/-- While a usage is resolved, it is asked at the moment `now` whether a generic parameter occurs in
the type `id`: in an operand of the usage, once all of them are resolved, or deeper inside, while
one of them is. -/
inductive Asks (store : Store) (limit : Nat) :
    (levels : Nat) → TypeUsage → Transaction → Transaction → TypeId → Prop where
  | here {levels : Nat} {found : TypeUsage} {before opened now : Transaction}
      {addresses : List Address} {ids : List TypeId} {id : TypeId}
      (opens : Opens store found before addresses opened)
      (run : (addresses.mapM (operand store (usage store limit levels))).run opened = .ok ids now)
      (mem : id ∈ ids) : Asks store limit (levels + 1) found before now id
  | inside {levels : Nat} {found inner : TypeUsage} {before opened middle now : Transaction}
      {done rest : List Address} {address : Address} {ids : List TypeId} {id : TypeId}
      (opens : Opens store found before (done ++ address :: rest) opened)
      (run : (done.mapM (operand store (usage store limit levels))).run opened = .ok ids middle)
      (reads : store.usageAt address = .ok inner)
      (asks : Asks store limit levels inner middle now id) :
      Asks store limit (levels + 1) found before now id

variable {store : Store} {limit levels : Nat} {current : List Pending}
  {before opened now : Transaction} {found : TypeUsage} {addresses : List Address}

/-- What is left of a composite once it is opened: its operands are resolved one after the other,
each of them is asked about, and the type is found or made. -/
theorem Opens.exists_run_usage (h : Opens store found before addresses opened)
    (limit levels : Nat) :
    ∃ attributes : TypeAttributes, ∃ shape : List TypeId → TypeShape,
      (usage store limit (levels + 1) found).run before =
        (do
          let ids ← addresses.mapM (operand store (usage store limit levels))
          let flags ← ids.mapM containsParameters
          construct found attributes (flags.any id) (shape ids)).run opened := by
  cases h with
  | @genericInstance _ generic head _ _ _ _ shape applied meets applies listed =>
    refine ⟨.ofClass, .genericInstance head generic.definition, ?_⟩
    simp [usage, byShape, composite, EStateM.run_bind, shape, applied, meets, applies, listed]
  | @array _ _ rank _ shape described ranked =>
    refine ⟨.none, fun ids => .array ids.head! rank false, ?_⟩
    simp [usage, byShape, composite, EStateM.run_bind, shape, described, ranked]
  | vector shape =>
    refine ⟨.none, fun ids => .array ids.head! 1 true, ?_⟩
    simp [usage, byShape, composite, shape]
  | pointer shape =>
    refine ⟨.none, fun ids => .pointer ids.head!, ?_⟩
    simp [usage, byShape, composite, shape]

/-- A composite that is not opened is refused before anything is asked: it does not matter how its
operands would be resolved. -/
theorem opens_or_fails {composed : Composite} (shape : found.shape = .ok (.composite composed))
    (before : Transaction) :
    (∃ addresses opened, Opens store found before addresses opened) ∨
      ∃ fault failed, ∀ inner, (composite store inner found composed).run before =
        .error fault failed := by
  cases composed with
  | genericInstance address =>
    cases applied : store.genericClass address with
    | error fault => exact .inr ⟨fault, before, fun _ => by simp [composite, applied]⟩
    | ok generic =>
      cases meets : (definition store generic.definition).run before with
      | error fault failed =>
        exact .inr ⟨fault, failed, fun _ => by simp [composite, EStateM.run_bind, applied, meets]⟩
      | ok head opened =>
        cases applies : store.instantiation generic.instantiation with
        | error fault =>
          exact .inr ⟨fault, opened, fun _ => by
            simp [composite, EStateM.run_bind, applied, meets, applies]⟩
        | ok instantiation =>
          cases listed : store.argumentAddresses instantiation.arguments
              instantiation.argumentCount with
          | error fault =>
            exact .inr ⟨fault, opened, fun _ => by
              simp [composite, EStateM.run_bind, applied, meets, applies, listed]⟩
          | ok addresses =>
            exact .inl ⟨addresses, opened, .genericInstance shape applied meets applies listed⟩
  | array address =>
    cases described : store.arrayDescriptor address with
    | error fault => exact .inr ⟨fault, before, fun _ => by simp [composite, described]⟩
    | ok descriptor =>
      cases ranked : descriptor.checkedRank with
      | error fault =>
        exact .inr ⟨fault, before, fun _ => by
          simp [composite, EStateM.run_bind, described, ranked]⟩
      | ok rank => exact .inl ⟨_, before, .array shape described ranked⟩
  | vector address => exact .inl ⟨_, before, .vector shape⟩
  | pointer address => exact .inl ⟨_, before, .pointer shape⟩

theorem Opens.sound (h : Opens store found before addresses opened)
    (sound : (before.besides current).Sound store limit) :
    (opened.besides current).Sound store limit := by
  cases h with
  | @genericInstance _ generic _ _ _ _ _ shape applied meets applies listed =>
    have hmirrors := mirrors_definition sound generic.definition
    rw [meets] at hmirrors
    obtain ⟨-, -, hsteps, -⟩ := hmirrors.exists_of_ok
    exact sound.steps hsteps
  | array shape described ranked => exact sound
  | vector shape => exact sound
  | pointer shape => exact sound

/-- Once operands are resolved, keys lead to them. -/
theorem sound_of_operands {ids : List TypeId} (bound : levels ≤ limit)
    (sound : (before.besides current).Sound store limit)
    (run : (addresses.mapM (operand store (usage store limit levels))).run before = .ok ids now) :
    (now.besides current).Sound store limit ∧
      ∀ id ∈ ids, ∃ key, now.arena.reserved? key = some id := by
  have hmirrors := mirrors_operands sound (mirrors_usage bound) addresses
  rw [run] at hmirrors
  obtain ⟨trees, -, hsteps, hids, -⟩ := hmirrors.exists_of_ok
  exact ⟨sound.steps hsteps, fun id mem => Arena.exists_key_of_idsOf hids mem⟩

/-- **What is asked about is filled, or it is a definition that waits.** -/
theorem Asks.answerable {id : TypeId} (h : Asks store limit levels found before now id)
    (bound : levels ≤ limit) (sound : (before.besides current).Sound store limit) :
    (∃ entity, now.arena.get id = .ok entity) ∨
      ∃ index, now.arena.slot? id = some ⟨.definition index, none⟩ := by
  induction h with
  | here opens run mem =>
    obtain ⟨hsound, hkeys⟩ := sound_of_operands (Nat.le_of_succ_le bound) (opens.sound sound) run
    obtain ⟨key, hid⟩ := hkeys _ mem
    exact hsound.filled_or_definition hid
  | inside opens run reads _ ih =>
    have hbound := Nat.le_of_succ_le bound
    exact ih hbound (sound_of_operands hbound (opens.sound sound) run).1

/-! ### Definitions and their turns -/

/-- The loop of a request comes from one transaction to another one, by filling the definitions that
wait, the topmost first. -/
inductive Comes (store : Store) (limit : Nat) : Transaction → Transaction → Prop where
  | here {before : Transaction} : Comes store limit before before
  | later {before filled now : Transaction} {next : Pending} {rest : List Pending}
      (top : before.pending = next :: rest)
      (fill : (fillDefinition store limit next).run { before with pending := rest } =
        .ok () filled)
      (then_ : Comes store limit filled now) : Comes store limit before now

/-- The loop comes to where it is, and to whatever it comes to once the topmost definition is
filled. -/
theorem comes_iff : Comes store limit before now ↔
    now = before ∨ ∃ next rest filled, before.pending = next :: rest ∧
      (fillDefinition store limit next).run { before with pending := rest } = .ok () filled ∧
        Comes store limit filled now := by
  constructor
  · intro h
    cases h with
    | here => exact .inl rfl
    | later top fill then_ => exact .inr ⟨_, _, _, top, fill, then_⟩
  · rintro (rfl | ⟨next, rest, filled, top, fill, then_⟩)
    · exact .here
    · exact .later top fill then_

theorem Comes.sound (h : Comes store limit before now) (sound : before.Sound store limit) :
    now.Sound store limit := by
  induction h with
  | here => exact sound
  | later top fill _ ih => exact ih (sound_of_fillTop sound top fill)

/-- The slot of a definition that waits is empty. -/
theorem slot?_of_mem_pending (sound : now.Sound store limit) {waiting : Pending}
    (mem : waiting ∈ now.pending) :
    now.arena.slot? waiting.id = some ⟨.definition waiting.index, none⟩ := by
  obtain ⟨hid, hempty, -⟩ := sound.waits mem
  obtain ⟨⟨key, entity⟩, hslot, hkey⟩ := Option.map_eq_some_iff.mp (sound.keyed hid)
  rw [Arena.entity?, hslot] at hempty
  obtain rfl : key = .definition waiting.index := hkey
  obtain rfl : entity = none := hempty
  exact hslot

/-- No two definitions that wait are of one row. -/
theorem index_ne_of_pending (sound : now.Sound store limit) {next other : Pending}
    {rest : List Pending} (top : now.pending = next :: rest) (mem : other ∈ rest) :
    other.index ≠ next.index := by
  intro same
  have hnext : next ∈ now.pending := top ▸ List.mem_cons_self
  have hother : other ∈ now.pending := top ▸ List.mem_cons_of_mem _ mem
  have hid := (sound.waits hother).1
  rw [same, (sound.waits hnext).1] at hid
  obtain rfl := sound.queue.eq_of_id hnext hother (Option.some.inj hid).symm
  exact (List.nodup_cons.mp (top ▸ sound.distinct)).1 mem

/-- Resolving the base of a definition leaves its own slot empty. -/
theorem slot?_of_base (sound : now.Sound store limit) {next : Pending} {rest : List Pending}
    (top : now.pending = next :: rest) {parent : Option TypeId} {after : Transaction}
    (run : (base store limit next.row).run { now with pending := rest } = .ok parent after) :
    after.arena.slot? next.id = some ⟨.definition next.index, none⟩ := by
  have hsound : (besides [next] { now with pending := rest }).Sound store limit := by
    rwa [besides, List.singleton_append, ← top]
  have hmirrors := mirrors_base hsound next.row
  rw [run] at hmirrors
  obtain ⟨-, -, hsteps, -⟩ := hmirrors.exists_of_ok
  exact slot?_of_mem_pending (hsound.steps hsteps) List.mem_cons_self

end Resolving

/-! ### Requests -/

namespace Arena

variable {store : Store} {limit : Nat} {arena : Arena} {first : TypeUsage} {now : Transaction}

/-- A request for a usage has resolved the usage and comes to a moment of its loop. If anything
waits then, it is the turn of the topmost definition. -/
def Turn (store : Store) (limit : Nat) (arena : Arena) (first : TypeUsage) (now : Transaction) :
    Prop :=
  ∃ id reached, (Resolving.usage store limit limit first).run { arena } = .ok id reached ∧
    Resolving.Comes store limit reached now

/-- In the course of a request for a usage, it is asked at the moment `now` whether a generic
parameter occurs in the type `id`: while the usage is resolved, or while the parent is of a
definition whose turn it is. The names of the definition are read before its parent is resolved,
which is left out here, since nothing depends on it. -/
inductive Asks (store : Store) (limit : Nat) (arena : Arena) (first : TypeUsage) :
    Transaction → TypeId → Prop where
  | first {now : Transaction} {id : TypeId}
      (asks : Resolving.Asks store limit limit first { arena } now id) :
      Asks store limit arena first now id
  | base {turn now : Transaction} {next : Pending} {rest : List Pending} {position : UsageIndex}
      {found : TypeUsage} {id : TypeId} (comes : arena.Turn store limit first turn)
      (top : turn.pending = next :: rest) (derives : next.row.parent = some position)
      (reads : store.usage position = .ok found)
      (asks : Resolving.Asks store limit limit found { turn with pending := rest } now id) :
      Asks store limit arena first now id

theorem Turn.sound (h : arena.Turn store limit first now) (sound : arena.Sound store limit) :
    now.Sound store limit := by
  obtain ⟨id, reached, hrun, hcomes⟩ := h
  exact hcomes.sound (sound.of_run_usage hrun)

theorem Asks.answerable {id : TypeId} (h : arena.Asks store limit first now id)
    (sound : arena.Sound store limit) :
    (∃ entity, now.arena.get id = .ok entity) ∨
      ∃ index, now.arena.slot? id = some ⟨.definition index, none⟩ := by
  cases h with
  | first asks =>
    have hbesides : (Transaction.besides [] { arena }).Sound store limit := sound
    exact asks.answerable (Nat.le_refl limit) hbesides
  | @base turn now next rest position found id comes top derives reads asks =>
    have hbesides :
        (Transaction.besides [next] { turn with pending := rest }).Sound store limit := by
      rw [Transaction.besides, List.singleton_append, ← top]
      exact comes.sound sound
    exact asks.answerable (Nat.le_refl limit) hbesides

end Arena

namespace TypeModel

variable {store : Store} {config : Config} {model : TypeModel}

/-- No question for a type raises an internal fault. -/
theorem external_resolve (sound : model.Sound) (query : Query) :
    External (query.resolve model).1 := by
  intro fault failed
  obtain ⟨result, hends, hanswers⟩ := exists_answers sound query
  have hsame : outcome (query.resolve model).1 = outcome result := hanswers.outcome_eq
  rw [failed] at hsame
  exact hends.external (query.external_readTree _ _) (map_eq_error_iff.mp hsame.symm)

theorem external_resolveLink (sound : model.Sound) (link : TypeLink) :
    External (model.resolveLink link).1 := by
  cases hlink : link.resolved with
  | some id =>
    rw [resolveLink_of_resolved hlink]
    exact external_ok id
  | none =>
    rw [answer_resolveLink hlink]
    exact external_resolve sound _

/-- A model raises no internal fault, and no request comes to a place where it would. -/
structure Guarded (model : TypeModel) : Prop where
  /-- No definition, usage or row of the usage table is answered with an internal fault. -/
  query {query : Query} {fault : Fault} :
    (query.resolve model).1 = .error fault → fault.isInternal = false
  /-- Nor is a link. -/
  link {link : TypeLink} {fault : Fault} :
    (model.resolveLink link).1 = .error fault → fault.isInternal = false
  /-- Nor does a survey record one. -/
  survey {index : DefinitionIndex} {fault : Fault} :
    (index, fault) ∈ model.resolveAll.1.failures → fault.isInternal = false
  /-- An operand is filled, or it is a definition that is not filled yet, whenever it is asked
  whether a generic parameter occurs in it. -/
  asked {query : Query} {found : TypeUsage} {now : Transaction} {id : TypeId} :
    query.asked model.store = .ok found →
      model.arena.Asks model.store model.config.maxDepth found now id →
      (∃ entity, now.arena.get id = .ok entity) ∨
        ∃ index, now.arena.slot? id = some ⟨.definition index, none⟩
  /-- A definition is not filled when its turn comes, nor once its base is resolved, and no other
  one of its row waits. -/
  turn {query : Query} {found : TypeUsage} {now : Transaction} {next : Pending}
    {rest : List Pending} :
    query.asked model.store = .ok found →
      model.arena.Turn model.store model.config.maxDepth found now → now.pending = next :: rest →
      now.arena.slot? next.id = some ⟨.definition next.index, none⟩ ∧
        (∀ other ∈ rest, other.index ≠ next.index) ∧
        ∀ parent after, (Resolving.base model.store model.config.maxDepth next.row).run
            { now with pending := rest } = .ok parent after →
          after.arena.slot? next.id = some ⟨.definition next.index, none⟩

/-- **Internal faults are out of reach.** Every reachable model is guarded. -/
theorem Reachable.guarded (h : Reachable store config model) : model.Guarded := by
  constructor
  case query => exact fun {query fault} failed => external_resolve h.sound query failed
  case link => exact fun {link fault} failed => external_resolveLink h.sound link failed
  case survey =>
    intro index fault mem
    rw [h.resolveAll_eq] at mem
    obtain ⟨-, hfails⟩ := (mem_failures_ofAnswers (h.reports _)).mp mem
    exact external_resolve (sound_new store config) (.definition index) hfails
  case asked => exact fun {query found now id} _ asks => asks.answerable h.sound
  case turn =>
    intro query found now next rest _ hturn top
    have hsound := hturn.sound h.sound
    refine ⟨Resolving.slot?_of_mem_pending hsound (top ▸ List.mem_cons_self), ?_, ?_⟩
    · exact fun other => Resolving.index_ne_of_pending hsound top
    · exact fun parent after => Resolving.slot?_of_base hsound top

end TypeModel

/-- In an image with a broken definition, the definition that derives from a vector of it has been
asked for once. When it is asked for again, and fails again, the element of the vector is asked
about while it is only reserved. -/
theorem TypeModel.guarded_broken :
    (∃ now, ((TypeModel.new .broken .standard).askEach [.definition ⟨1⟩]).2.arena.Asks .broken
        Config.standard.maxDepth (.definition ⟨1⟩) now ⟨4⟩ ∧
          now.arena.slot? ⟨4⟩ = some ⟨.definition ⟨2⟩, none⟩) ∧
      ((TypeModel.new .broken .standard).askEach [.definition ⟨1⟩]).2.Guarded := by
  refine ⟨?_, Reachable.guarded (reachable_askEach .new [.definition ⟨1⟩])⟩
  have hturn : (Resolving.usage .broken 100 100 (.definition ⟨1⟩)).run
      { arena := ((TypeModel.new .broken .standard).askEach [.definition ⟨1⟩]).2.arena } =
        .ok ⟨3⟩ {
          arena := (((TypeModel.new .broken .standard).askEach
            [.definition ⟨1⟩]).2.arena.reserve (.definition ⟨1⟩)).2
          journal := [(.definition ⟨1⟩, ⟨3⟩)]
          pending := [⟨⟨1⟩, ⟨3⟩, { parent := some ⟨0⟩ }⟩] } := by
    cbv
  have hoperand : ([⟨2⟩].mapM (Resolving.operand .broken (Resolving.usage .broken 100 99))).run {
          arena := (((TypeModel.new .broken .standard).askEach
            [.definition ⟨1⟩]).2.arena.reserve (.definition ⟨1⟩)).2
          journal := [(.definition ⟨1⟩, ⟨3⟩)] } =
        .ok [⟨4⟩] {
          arena := ((((TypeModel.new .broken .standard).askEach
            [.definition ⟨1⟩]).2.arena.reserve (.definition ⟨1⟩)).2.reserve (.definition ⟨2⟩)).2
          journal := [(.definition ⟨2⟩, ⟨4⟩), (.definition ⟨1⟩, ⟨3⟩)]
          pending := [⟨⟨2⟩, ⟨4⟩, { name := ⟨9⟩ }⟩] } := by
    cbv
  have hreads : Store.broken.usage ⟨0⟩ = .ok (.vector ⟨2⟩) := by cbv
  have hshape : (TypeUsage.vector ⟨2⟩).shape = .ok (.composite (.vector ⟨2⟩)) := by cbv
  refine ⟨_, .base ⟨_, _, hturn, .here⟩ rfl rfl hreads
    (.here (.vector hshape) hoperand List.mem_cons_self), ?_⟩
  cbv

end TypeGraph
