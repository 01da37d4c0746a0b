import TypeGraph.Proofs.Mirror
import TypeGraph.Proofs.Rollback
import TypeGraph.Resolve.Trace

/-!
# Requests in flight

Between requests every live slot is filled. While a request is in flight this is not so, but it is
known which slots are empty: those of the definitions that wait, and that of the definition which is
being filled. Each of them waits once, with its own index and with its own row. The journal lists
what has been reserved since the request began, and nothing else.

## Main definitions

* `Transaction.Journaled` — the journal lists what was reserved since the transaction began
* `Moment.InFlight` — what holds in the middle of a request
* `Transaction.Accounted` — the same for a transaction by itself, in a form that steps preserve
* `Resolving.Accountable` — a step that preserves it, whether it succeeds or fails

## Main results

* `Moment.inFlight_of_accounted` — what is preserved is what holds in the middle of a request
* `Resolving.accountable_definition`, `Resolving.accountable_construct` — the steps that reserve
  anything preserve it
* `Transaction.Accounted.fill` — so does filling the definition that is being filled
-/

namespace TypeGraph

/-! ### The invariant -/

/-- The journal of a transaction lists what was reserved since the transaction began. -/
structure Transaction.Journaled (start : Arena) (transaction : Transaction) : Prop where
  /-- It lists the slots that have been opened since, each with the key it was opened for. -/
  listed {key : TypeKey} {id : TypeId} : (key, id) ∈ transaction.journal ↔
    start.slots.size ≤ id.index ∧ transaction.arena.keyAt? id = some key
  /-- Each of these keys leads to its slot. -/
  live {key : TypeKey} {id : TypeId} :
    (key, id) ∈ transaction.journal → transaction.arena.reserved? key = some id
  /-- No key is listed twice. -/
  distinct : (transaction.journal.map Prod.fst).Nodup
  /-- The handles follow each other, from the number of slots that there were at the beginning. -/
  consecutive : transaction.journal.reverse.map (fun entry => entry.2.index) =
    List.range' start.slots.size transaction.journal.length

/-- The definitions that are reserved but not filled: the one that is being filled, and those that
wait. -/
def Moment.unfilled (moment : Moment) : List Pending := moment.current.toList ++ moment.pending

/-- What holds in the middle of a request that began with the arena `start`. -/
structure Moment.InFlight (store : Store) (start : Arena) (moment : Moment) : Prop where
  /-- The live slots without an entity are those of the definitions that are not filled. -/
  unfilled_iff {id : TypeId} :
    moment.arena.isLive id = true ∧ moment.arena.entity? id = none ↔
      ∃ waiting ∈ moment.unfilled, waiting.id = id
  /-- No slot is to be filled twice. -/
  once : (moment.unfilled.map Pending.id).Nodup
  /-- A definition that is not filled has its own slot, and comes with its own row. -/
  own {waiting : Pending} : waiting ∈ moment.unfilled →
    moment.arena.keyAt? waiting.id = some (.definition waiting.index) ∧
      store.definition waiting.index = .ok waiting.row
  /-- A live slot that was not reserved for a definition is filled. -/
  filled {key : TypeKey} {id : TypeId} :
    moment.arena.isLive id = true → moment.arena.keyAt? id = some key →
      (∀ index, key ≠ .definition index) → ∃ entity, moment.arena.entity? id = some entity
  /-- The journal lists what was reserved since the beginning. -/
  journaled : moment.Journaled start

/-- A transaction is accounted for if its empty slots are those of the definitions that wait, and if
its journal lists what was reserved since the arena `start`. -/
structure Transaction.Accounted (store : Store) (start : Arena) (transaction : Transaction) :
    Prop where
  queue : transaction.Queued store
  since : Since start transaction

namespace Transaction.Accounted

variable {store : Store} {limit : Nat} {start : Arena} {transaction : Transaction}

/-- Between requests there is nothing to account for. -/
theorem of_sound (sound : start.Sound store limit) : Accounted store start { arena := start } where
  queue := Transaction.Sound.queue sound
  since := .refl start

theorem journaled (accounted : transaction.Accounted store start) :
    transaction.Journaled start := by
  have hkeyed {key : TypeKey} {id : TypeId} (mem : (key, id) ∈ transaction.journal) :
      transaction.arena.keyAt? id = some key :=
    accounted.queue.keyed (accounted.since.keys.mpr (.inl mem))
  constructor
  case listed =>
    intro key id
    constructor
    · exact fun mem => ⟨accounted.since.le_index mem, hkeyed mem⟩
    · rintro ⟨hstart, hkey⟩
      -- every slot since the beginning is one of the journal, which says for which key it is
      have hbound := Arena.index_lt_of_keyAt? hkey
      rw [accounted.since.size] at hbound
      have hlisted : id.index ∈ transaction.journal.map fun entry => entry.2.index := by
        rw [accounted.since.handles, List.mem_reverse, List.mem_range'_1]
        exact ⟨hstart, hbound⟩
      obtain ⟨⟨key', ⟨position⟩⟩, mem, rfl⟩ := List.mem_map.mp hlisted
      obtain rfl : key' = key := Option.some.inj ((hkeyed mem).symm.trans hkey)
      exact mem
  case live => exact fun mem => accounted.since.keys.mpr (.inl mem)
  case distinct => exact accounted.since.distinct
  case consecutive =>
    rw [List.map_reverse, accounted.since.handles, List.reverse_reverse]

/-- Filling the definition that is being filled leaves a transaction accounted for. -/
theorem fill {waiting : Pending} {entity : TypeEntity} {filled : Arena}
    (accounted : (transaction.besides [waiting]).Accounted store start)
    (fills : transaction.arena.fill waiting.id entity = .ok filled) :
    Accounted store start { transaction with arena := filled } where
  queue := accounted.queue.fill (.refl _) fills
  since := accounted.since.fill (accounted.since.waits List.mem_cons_self) fills fun _ =>
    List.mem_cons_of_mem _

/-- The slot of the definition that is being filled can be filled. -/
theorem exists_fill {waiting : Pending}
    (accounted : (transaction.besides [waiting]).Accounted store start) (entity : TypeEntity) :
    ∃ filled, transaction.arena.fill waiting.id entity = .ok filled := by
  obtain ⟨hid, hempty, -⟩ := accounted.queue.waits List.mem_cons_self
  exact Arena.exists_fill (accounted.queue.keyed hid) hempty entity

end Transaction.Accounted

/-- **What holds in the middle of a request**, if everything is accounted for: what is being filled
counts as waiting. -/
theorem Moment.inFlight_of_accounted {store : Store} {start : Arena} {moment : Moment}
    (accounted : (moment.besides moment.current.toList).Accounted store start) :
    moment.InFlight store start := by
  have hqueue := accounted.queue
  have hjournaled := accounted.journaled
  constructor
  case unfilled_iff =>
    intro id
    constructor
    · rintro ⟨hlive, hempty⟩
      obtain ⟨key, -, hid⟩ := Arena.isLive_iff.mp hlive
      obtain ⟨waiting, mem, -, rfl⟩ := hqueue.awaited hid hempty
      exact ⟨waiting, mem, rfl⟩
    · rintro ⟨waiting, mem, rfl⟩
      obtain ⟨hid, hempty, -⟩ := hqueue.waits mem
      exact ⟨Arena.isLive_iff.mpr ⟨_, hqueue.keyed hid, hid⟩, hempty⟩
  case once =>
    refine List.pairwise_map.mpr (hqueue.distinct.imp_of_mem fun {waiting other} mem mem' hne => ?_)
    exact fun same => hne (hqueue.eq_of_id mem' mem same)
  case own =>
    intro waiting mem
    obtain ⟨hid, -, hrow⟩ := hqueue.waits mem
    exact ⟨hqueue.keyed hid, hrow⟩
  case filled =>
    intro key id hlive hkey other
    obtain ⟨key', hkey', hid⟩ := Arena.isLive_iff.mp hlive
    obtain rfl : key' = key := Option.some.inj (hkey'.symm.trans hkey)
    cases hentity : moment.arena.entity? id with
    | some entity => exact ⟨entity, rfl⟩
    | none =>
      obtain ⟨waiting, -, hdefinition, -⟩ := hqueue.awaited hid hentity
      exact absurd hdefinition (other waiting.index)
  case journaled =>
    exact ⟨hjournaled.listed, hjournaled.live, hjournaled.distinct, hjournaled.consecutive⟩

/-! ### Steps that preserve it -/

namespace Resolving

variable {α : Type} {store : Store} {start : Arena} {current : List Pending}

/-- A step leaves a transaction accounted for, whether it succeeds or fails, while the definitions
`current` are being filled. -/
def Accountable (store : Store) (start : Arena) (current : List Pending) (step : Resolving α) :
    Prop :=
  ∀ before : Transaction, (before.besides current).Accounted store start →
    ((left (step.run before)).besides current).Accounted store start

theorem accountable_pure (value : α) : Accountable store start current (pure value) :=
  fun _ accounted => accounted

theorem accountable_throw (fault : Fault) :
    Accountable store start current (throw fault : Resolving α) :=
  fun _ accounted => accounted

theorem accountable_lift (reading : Except Fault α) :
    Accountable store start current (monadLift reading : Resolving α) := by
  cases reading with
  | ok value => exact accountable_pure value
  | error fault => exact accountable_throw fault

theorem accountable_reserved? (key : TypeKey) :
    Accountable store start current (reserved? key) :=
  fun _ accounted => accounted

theorem accountable_containsParameters (id : TypeId) :
    Accountable store start current (containsParameters id) :=
  fun before accounted => accountable_lift (before.arena.containsParameters id) before accounted

/-- A definition that is met for the first time waits from then on. -/
theorem accountable_definition (index : DefinitionIndex) :
    Accountable store start current (definition store index) := by
  intro before accounted
  cases hid : before.arena.reserved? (.definition index) with
  | some id =>
    rw [run_definition_of_reserved hid]
    exact accounted
  | none =>
    cases hrow : store.definition index with
    | error fault =>
      rw [run_definition_of_error hid hrow]
      exact accounted
    | ok row =>
      rw [run_definition_of_row hid hrow]
      refine ⟨accounted.queue.reserve hid hrow List.perm_middle,
        accounted.since.reserve hid fun waiting mem => ?_⟩
      rcases List.mem_cons.mp (List.perm_middle.mem_iff.mp mem) with rfl | hold
      · exact .inr rfl
      · exact .inl hold

/-- What is constructed is filled as soon as it is reserved. -/
theorem accountable_construct (usage : TypeUsage) (attributes : TypeAttributes) (flag : Bool)
    (shape : TypeShape) :
    Accountable store start current (construct usage attributes flag shape) := by
  intro before accounted
  cases hid : before.arena.reserved? shape.key with
  | some id =>
    rw [run_construct_of_reserved hid]
    exact accounted
  | none =>
    obtain ⟨filled, hfills⟩ := before.arena.exists_fill_reserve shape.key
      ⟨(before.arena.reserve shape.key).1, .usage usage, attributes, flag, shape⟩
    have hreserved := accounted.since.reserve hid fun waiting mem => .inl mem
    rw [run_construct_of_free hid hfills]
    exact ⟨accounted.queue.make hid hfills,
      hreserved.fill List.mem_cons_self hfills fun _ mem => mem⟩

end Resolving

end TypeGraph
