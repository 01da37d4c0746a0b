import Mathlib
import TypeGraph.Proofs.InFlight
import TypeGraph.Proofs.InternalFaults

/-!
# What the record of a request says

A request that keeps a record is the request itself: it has the same answer and leaves the same
arena, every recorded call does to the transaction what the resolver does there, and the recorded
rounds are those of the loop. So what the record says holds of every request. It says that the
invariant of a request in flight holds before and after every call and in every round, whether the
calls succeed or fail, and that every call returns at the depth at which it was made.

`Tracing.Tracks` relates a recorded step to a step of the resolver. It is closed under sequence, so
it follows the resolver function by function; the depth at which a step is taken is part of it,
because the levels that the resolver is left with are those between the depth and the limit.

## Main definitions

* `Return.Sound` — what is said of a recorded call
* `Tracing.Tracks` — a recorded step does what a step of the resolver does, and keeps the invariant
* `FirstStep.Recorded` — what is said of the record of a request

## Main results

* `Tracing.tracks_usage`, `Tracing.tracks_fillDefinition`, `Tracing.loopAgrees_complete` — the
  recorded resolver is the resolver
* `TypeModel.Reachable.recorded` — what the record of a request to a reachable model says
-/

namespace TypeGraph

/-! ### What is said of a call -/

/-- A recorded call does to the transaction what the resolver does, finds and leaves the invariant
of a request in flight, and returns at the depth at which it was made. -/
structure Return.Sound (store : Store) (limit : Nat) (start : Arena) (made : Return) : Prop where
  /-- The record is true: from there, the resolver comes to this end. -/
  runs : made.call.run store limit made.before.depth made.before.toTransaction =
    (made.fault, made.after.toTransaction)
  found : made.before.InFlight store start
  /-- Also if the call has failed; a definition that could not be filled is still being filled. -/
  left : made.after.InFlight store start
  depth : made.after.depth = made.before.depth

/-- What holds when the loop looks at its stack: nothing is open and nothing is being filled, so the
empty slots are those of the definitions that wait. -/
structure Moment.AtTurn (store : Store) (start : Arena) (moment : Moment) : Prop where
  inFlight : moment.InFlight store start
  depth : moment.depth = 0
  current : moment.current = none

/-- What a request that keeps a record preserves: its transaction is accounted for, where the
definition that is being filled counts as waiting, and every call of the record is sound. -/
structure Trace.Kept (store : Store) (limit : Nat) (start : Arena) (trace : Trace) : Prop where
  accounted : (trace.besides trace.current.toList).Accounted store start
  returned {made : Return} : made ∈ trace.returns → made.Sound store limit start

namespace Trace.Kept

variable {store : Store} {limit : Nat} {start : Arena} {trace : Trace}

theorem inFlight (kept : trace.Kept store limit start) : trace.InFlight store start :=
  Moment.inFlight_of_accounted kept.accounted

/-- Taken off the stack, the topmost definition is the one that is being filled. -/
theorem pop {waiting : Pending} {rest : List Pending} (kept : trace.Kept store limit start)
    (idle : trace.current = none) (top : trace.pending = waiting :: rest) (rounds : List Moment) :
    Trace.Kept store limit start
      { trace with pending := rest, current := some waiting, rounds } := by
  have haccounted := kept.accounted
  rw [idle, Transaction.besides, top] at haccounted
  exact ⟨haccounted, kept.returned⟩

end Trace.Kept

namespace Tracing

open Resolving (Accountable)

variable {α β : Type} {store : Store} {limit depth : Nat} {start : Arena}
  {current current' current'' : Option Pending} {before : Trace}

/-! ### Tracking a step -/

/-- The result of a recorded step agrees with that of a step of the resolver. It has kept the
invariant, has returned to the depth at which it began, and leaves the record of the rounds alone;
and if it has succeeded, the definition `current` is being filled. -/
inductive Agrees (store : Store) (limit : Nat) (start : Arena) (depth : Nat) (rounds : List Moment)
    (current : Option Pending) :
    EStateM.Result Fault Trace α → EStateM.Result Fault Transaction α → Prop where
  | ok {value : α} {after : Trace} (kept : after.Kept store limit start)
      (same : after.depth = depth) (untouched : after.rounds = rounds)
      (filling : after.current = current) :
      Agrees store limit start depth rounds current (.ok value after)
        (.ok value after.toTransaction)
  | error {fault : Fault} {after : Trace} (kept : after.Kept store limit start)
      (same : after.depth = depth) (untouched : after.rounds = rounds) :
      Agrees store limit start depth rounds current (.error fault after)
        (.error fault after.toTransaction)

/-- What a recorded step leaves behind keeps the invariant, whether it has succeeded or failed. -/
theorem Agrees.final {rounds : List Moment} {traced : EStateM.Result Fault Trace α}
    {result : EStateM.Result Fault Transaction α}
    (h : Agrees store limit start depth rounds current traced result) :
    (Tracing.final traced).Kept store limit start ∧ (Tracing.final traced).rounds = rounds := by
  cases h with
  | ok kept _ untouched _ => exact ⟨kept, untouched⟩
  | error kept _ untouched => exact ⟨kept, untouched⟩

/-- A recorded step tracks a step of the resolver, if it is taken at a certain depth, while the
definition `current` is being filled; after it, that is the definition `current'`. -/
def Tracks (store : Store) (limit : Nat) (start : Arena) (depth : Nat)
    (current current' : Option Pending) (traced : Tracing α) (step : Resolving α) : Prop :=
  ∀ before : Trace, before.Kept store limit start → before.depth = depth →
    before.current = current →
      Agrees store limit start depth before.rounds current' (traced.run before)
        (step.run before.toTransaction)

theorem tracks_pure (value : α) :
    Tracks store limit start depth current current (pure value) (pure value) :=
  fun _ kept hdepth hcurrent => .ok kept hdepth rfl hcurrent

theorem tracks_throw (fault : Fault) :
    Tracks store limit start depth current current' (throw fault : Tracing α) (throw fault) :=
  fun _ kept hdepth _ => .error kept hdepth rfl

/-- Recorded steps track the steps of the resolver in sequence. -/
theorem Tracks.bind {traced : Tracing α} {step : Resolving α} {next : α → Tracing β}
    {next' : α → Resolving β}
    (first : Tracks store limit start depth current current' traced step)
    (second : ∀ value,
      Tracks store limit start depth current' current'' (next value) (next' value)) :
    Tracks store limit start depth current current'' (traced >>= next) (step >>= next') := by
  intro before kept hdepth hcurrent
  have hfirst := first before kept hdepth hcurrent
  rw [EStateM.run_bind, EStateM.run_bind]
  generalize traced.run before = result, step.run before.toTransaction = result' at hfirst ⊢
  cases hfirst with
  | ok kept same untouched filling => exact untouched ▸ second _ _ kept same filling
  | error kept same untouched => exact .error kept same untouched

/-- A step of the resolver that is taken as it is tracks itself. -/
theorem tracks_lift {step : Resolving α}
    (accountable : Accountable store start current.toList step) :
    Tracks store limit start depth current current (monadLift step) step := by
  intro before kept hdepth hcurrent
  subst hcurrent
  have haccounted := accountable before.toTransaction kept.accounted
  rw [run_lift]
  cases hstep : step.run before.toTransaction with
  | ok value after =>
    rw [hstep] at haccounted
    exact .ok ⟨haccounted, kept.returned⟩ hdepth rfl rfl
  | error fault after =>
    rw [hstep] at haccounted
    exact .error ⟨haccounted, kept.returned⟩ hdepth rfl

theorem tracks_reading (reading : Except Fault α) :
    Tracks store limit start depth current current (monadLift reading : Tracing α)
      (monadLift reading : Resolving α) :=
  tracks_lift (Resolving.accountable_lift reading)

theorem tracks_listMapM {traced : α → Tracing β} {step : α → Resolving β}
    (each : ∀ value, Tracks store limit start depth current current (traced value) (step value))
    (values : List α) :
    Tracks store limit start depth current current (values.mapM traced) (values.mapM step) := by
  induction values with
  | nil => exact tracks_pure _
  | cons value values ih =>
    rw [List.mapM_cons, List.mapM_cons]
    exact (each value).bind fun _ => ih.bind fun _ => tracks_pure _

theorem tracks_optionMapM {traced : α → Tracing β} {step : α → Resolving β}
    (each : ∀ value, Tracks store limit start depth current current (traced value) (step value))
    (value : Option α) :
    Tracks store limit start depth current current (value.mapM traced) (value.mapM step) := by
  cases value with
  | none => exact tracks_pure _
  | some value => exact (each value).bind fun _ => tracks_pure _

/-! ### Calls and depths -/

/-- Recording a call changes nothing, and the record is sound: the call does what it says, and
comes back to its depth. -/
theorem Tracks.call {made : Call} {traced : Tracing α} {step : Resolving α}
    (tracks : Tracks store limit start depth current current' traced step)
    (runs : ∀ transaction,
      made.run store limit depth transaction = Resolving.ending (step.run transaction)) :
    Tracks store limit start depth current current' (Tracing.call made traced) step := by
  intro before kept hdepth hcurrent
  subst hdepth
  have hagrees := tracks before kept rfl hcurrent
  have hruns := runs before.toTransaction
  have hkept {fault : Option Fault} {after : Trace} (hafter : after.Kept store limit start)
      (same : after.depth = before.depth)
      (hends : made.run store limit before.depth before.toTransaction =
        (fault, after.toTransaction)) :
      Trace.Kept store limit start
        { after with
          returns := ⟨made, before.toMoment, after.toMoment, fault⟩ :: after.returns } := by
    refine ⟨hafter.accounted, fun mem => ?_⟩
    rcases List.mem_cons.mp mem with rfl | mem
    · exact ⟨hends, kept.inFlight, hafter.inFlight, same⟩
    · exact hafter.returned mem
  rw [run_call]
  generalize traced.run before = result, step.run before.toTransaction = result' at hagrees hruns ⊢
  cases hagrees with
  | ok hafter same untouched filling =>
    exact .ok (hkept hafter same hruns) same untouched filling
  | error hafter same untouched => exact .error (hkept hafter same hruns) same untouched

/-- One level further in the depth is one higher, and back out it is what it was. -/
theorem Tracks.descend {traced : Tracing α} {step : Resolving α} (room : depth < limit)
    (tracks : Tracks store limit start (depth + 1) current current' traced step) :
    Tracks store limit start depth current current' (Tracing.descend limit traced) step := by
  intro before kept hdepth hcurrent
  subst hdepth
  have hagrees := tracks { before with depth := before.depth + 1 } ⟨kept.accounted, kept.returned⟩
    rfl hcurrent
  rw [run_descend_of_lt room]
  generalize traced.run _ = result, step.run _ = result' at hagrees ⊢
  cases hagrees with
  | ok kept same untouched filling =>
    exact .ok ⟨kept.accounted, kept.returned⟩ (congrArg (· - 1) same) untouched filling
  | error kept same untouched =>
    exact .error ⟨kept.accounted, kept.returned⟩ (congrArg (· - 1) same) untouched

/-- At the limit, the next composite is refused. -/
theorem tracks_descend_of_le {traced : Tracing α} (full : limit ≤ depth) :
    Tracks store limit start depth current current' (Tracing.descend limit traced)
      (throw (.recursionLimit limit)) := by
  intro before kept hdepth _
  rw [run_descend_of_le (hdepth ▸ full)]
  exact .error kept hdepth rfl

/-! ### By shape -/

theorem tracks_definition (index : DefinitionIndex) :
    Tracks store limit start depth current current (definition store index)
      (Resolving.definition store index) :=
  (tracks_lift (Resolving.accountable_definition index)).call fun _ => rfl

theorem tracks_construct (usage : TypeUsage) (attributes : TypeAttributes) (flag : Bool)
    (shape : TypeShape) :
    Tracks store limit start depth current current (construct usage attributes flag shape)
      (Resolving.construct usage attributes flag shape) :=
  (tracks_lift (Resolving.accountable_construct usage attributes flag shape)).call fun _ => rfl

theorem tracks_containsParameters (id : TypeId) :
    Tracks store limit start depth current current
      (monadLift (Resolving.containsParameters id)) (Resolving.containsParameters id) :=
  tracks_lift (Resolving.accountable_containsParameters id)

theorem tracks_genericParameter (usage : TypeUsage) (index : GenericParameterIndex)
    (ofMethod : Bool) :
    Tracks store limit start depth current current (genericParameter store usage index ofMethod)
      (Resolving.genericParameter store usage index ofMethod) := by
  refine (tracks_lift (Resolving.accountable_reserved? _)).bind fun found => ?_
  cases found with
  | some id => exact tracks_pure _
  | none => exact (tracks_reading _).bind fun _ => tracks_construct _ _ _ _

section Operands

variable {inner : TypeUsage → Tracing TypeId}
  (each : ∀ found, Tracks store limit start depth current current (inner found)
    (Resolving.usage store limit (limit - depth) found))

include each

theorem tracks_usageAt (address : Address) :
    Tracks store limit start depth current current (usageAt store inner address)
      (Resolving.operand store (Resolving.usage store limit (limit - depth)) address) :=
  Tracks.call ((tracks_reading _).bind each) fun _ => rfl

/-- A composite is tracked if its operands are. -/
theorem tracks_composite (usage : TypeUsage) (found : Composite) :
    Tracks store limit start depth current current (composite store inner usage found)
      (Resolving.composite store (Resolving.usage store limit (limit - depth)) usage found) := by
  cases found with
  | genericInstance address =>
    exact (tracks_reading _).bind fun _ => (tracks_definition _).bind fun _ =>
      (tracks_reading _).bind fun _ => (tracks_reading _).bind fun _ =>
      (tracks_listMapM (tracks_usageAt each) _).bind fun _ =>
      (tracks_listMapM tracks_containsParameters _).bind fun _ => tracks_construct _ _ _ _
  | array address =>
    exact (tracks_reading _).bind fun _ => (tracks_reading _).bind fun _ =>
      (tracks_usageAt each _).bind fun _ =>
      (tracks_containsParameters _).bind fun _ => tracks_construct _ _ _ _
  | vector address =>
    exact (tracks_usageAt each _).bind fun _ =>
      (tracks_containsParameters _).bind fun _ => tracks_construct _ _ _ _
  | pointer address =>
    exact (tracks_usageAt each _).bind fun _ =>
      (tracks_containsParameters _).bind fun _ => tracks_construct _ _ _ _

end Operands

theorem tracks_byShape {nested : TypeUsage → Composite → Tracing TypeId}
    {nested' : TypeUsage → Composite → Resolving TypeId}
    (each : ∀ usage found,
      Tracks store limit start depth current current (nested usage found) (nested' usage found))
    (usage : TypeUsage) :
    Tracks store limit start depth current current (byShape store nested usage)
      (Resolving.byShape store nested' usage) := by
  refine (tracks_reading _).bind fun shape => ?_
  cases shape with
  | definition index => exact tracks_definition index
  | primitive kind index => exact tracks_definition index
  | composite found => exact each usage found
  | genericParameter index ofMethod => exact tracks_genericParameter usage index ofMethod

/-! ### Usages -/

/-- **A recorded usage is the usage.** The levels that the resolver is left with are those between
the depth and the limit. -/
theorem tracks_usage {levels : Nat} (room : limit ≤ depth + levels) (found : TypeUsage) :
    Tracks store limit start depth current current (usage store limit levels found)
      (Resolving.usage store limit (limit - depth) found) := by
  induction levels generalizing depth found with
  | zero =>
    have hnone : limit - depth = 0 := Nat.sub_eq_zero_of_le room
    refine Tracks.call ?_ fun _ => rfl
    rw [hnone]
    exact tracks_byShape (fun _ _ => tracks_throw _) found
  | succ levels ih =>
    refine Tracks.call ?_ fun _ => rfl
    rcases Nat.lt_or_ge depth limit with hroom | hfull
    · have hsome : limit - depth = limit - (depth + 1) + 1 := by omega
      rw [hsome]
      refine tracks_byShape (fun outer inner => ?_) found
      exact Tracks.descend hroom (tracks_composite (ih (by omega)) outer inner)
    · rw [Nat.sub_eq_zero_of_le hfull]
      exact tracks_byShape (fun _ _ => tracks_descend_of_le hfull) found

theorem tracks_base (row : TypeDefinition) :
    Tracks store limit start 0 current current (base store limit row)
      (Resolving.base store limit row) :=
  tracks_optionMapM
    (fun _ => (tracks_reading _).bind (tracks_usage (Nat.le_of_eq (Nat.zero_add limit).symm))) _

/-! ### Definitions -/

/-- Once the slot of the definition that is being filled has its entity, nothing is being filled. -/
theorem tracks_finish (waiting : Pending) (entity : TypeEntity) :
    Tracks store limit start depth (some waiting) none (finish waiting entity)
      (Resolving.fill waiting.id entity) := by
  intro before kept hdepth hcurrent
  have haccounted := kept.accounted
  rw [hcurrent] at haccounted
  obtain ⟨filled, hfills⟩ := haccounted.exists_fill entity
  have hstep : (Resolving.fill waiting.id entity).run before.toTransaction =
      .ok () { before.toTransaction with arena := filled } := by
    rw [Resolving.run_fill, hfills]
  rw [finish, EStateM.run_bind, run_lift, hstep]
  exact .ok ⟨haccounted.fill hfills, kept.returned⟩ hdepth rfl rfl

/-- **Filling a definition in a recorded request is filling the definition.** -/
theorem tracks_fillDefinition (waiting : Pending) :
    Tracks store limit start 0 (some waiting) none (fillDefinition store limit waiting)
      (Resolving.fillDefinition store limit waiting) := by
  refine Tracks.call ?_ fun _ => rfl
  exact (tracks_reading _).bind fun _ => (tracks_reading _).bind fun _ =>
    (tracks_base _).bind fun _ => (tracks_reading _).bind fun _ =>
    (tracks_reading _).bind fun _ => tracks_finish _ _

/-! ### The loop -/

/-- The loop of a recorded request, run from the trace `before`, agrees with the loop. It has
recorded a moment for each transaction that the loop comes to, and for no other. -/
def LoopAgrees (store : Store) (limit : Nat) (start : Arena) (before : Trace)
    (traced : EStateM.Result Fault Trace Unit) (result : EStateM.Result Fault Transaction Unit) :
    Prop :=
  ∃ looks : List Moment, Agrees store limit start 0 (looks ++ before.rounds) none traced result ∧
    (∀ moment ∈ looks, moment.AtTurn store start) ∧
    ∀ now, Resolving.Comes store limit before.toTransaction now ↔
      ∃ moment ∈ looks, moment.toTransaction = now

theorem loopAgrees_of_nil (kept : before.Kept store limit start) (hdepth : before.depth = 0)
    (hcurrent : before.current = none) (idle : before.pending = []) (rounds : Nat) :
    LoopAgrees store limit start before ((complete store limit rounds).run before)
      ((Resolving.complete store limit).run before.toTransaction) := by
  rw [run_complete_of_nil idle, Resolving.complete_of_pending_nil idle]
  refine ⟨[before.toMoment], .ok ⟨kept.accounted, kept.returned⟩ hdepth rfl hcurrent, ?_,
    fun now => ?_⟩
  · exact List.forall_mem_singleton.mpr ⟨kept.inFlight, hdepth, hcurrent⟩
  · rw [Resolving.comes_iff]
    simp [idle, eq_comm]

/-- **The recorded loop is the loop**, if it may take as many rounds as work is outstanding. -/
theorem loopAgrees_complete {rounds : Nat} (kept : before.Kept store limit start)
    (hdepth : before.depth = 0) (hcurrent : before.current = none)
    (enough : before.outstanding store ≤ rounds) :
    LoopAgrees store limit start before ((complete store limit rounds).run before)
      ((Resolving.complete store limit).run before.toTransaction) := by
  induction rounds generalizing before with
  | zero =>
    refine loopAgrees_of_nil kept hdepth hcurrent (List.eq_nil_of_length_eq_zero ?_) 0
    exact Nat.eq_zero_of_le_zero (Nat.le_trans (Nat.le_add_right _ _) enough)
  | succ rounds ih =>
    cases hpending : before.pending with
    | nil => exact loopAgrees_of_nil kept hdepth hcurrent hpending _
    | cons waiting rest =>
      have hturn : before.AtTurn store start := ⟨kept.inFlight, hdepth, hcurrent⟩
      have hless : (Resolving.left ((Resolving.fillDefinition store limit waiting).run
          { before.toTransaction with pending := rest })).outstanding store <
            before.outstanding store :=
        Resolving.outstanding_fillDefinition_lt hpending
      have hfill := tracks_fillDefinition waiting _
        (kept.pop hcurrent hpending (before.toMoment :: before.rounds)) hdepth rfl
      rw [run_complete_of_cons hpending, Resolving.complete_of_pending_cons hpending,
        EStateM.run_bind, EStateM.run_bind]
      have hcomes (now : Transaction) :
          Resolving.Comes store limit before.toTransaction now ↔ _ := Resolving.comes_iff
      generalize (fillDefinition store limit waiting).run _ = traced at hfill ⊢
      generalize hresult : (Resolving.fillDefinition store limit waiting).run _ = result
        at hfill hless ⊢
      cases hfill with
      | error kept same untouched =>
        refine ⟨[before.toMoment], .error kept same untouched,
          List.forall_mem_singleton.mpr hturn, fun now => ?_⟩
        rw [hcomes]
        simp [hpending, hresult, eq_comm]
      | @ok _ after kept same untouched filling =>
        obtain ⟨looks, hagrees, hturns, hrest⟩ :=
          ih kept same filling (Nat.le_of_lt_succ (Nat.lt_of_lt_of_le hless enough))
        refine ⟨looks ++ [before.toMoment], ?_, ?_, fun now => ?_⟩
        · rw [untouched] at hagrees
          simpa using hagrees
        · exact List.forall_mem_append.mpr ⟨hturns, List.forall_mem_singleton.mpr hturn⟩
        · rw [hcomes]
          simp [hpending, hresult, hrest, or_comm, or_and_right, exists_or, eq_comm]

end Tracing

/-! ### Requests -/

namespace FirstStep

open Tracing (final)

variable {store : Store} {limit : Nat} {start : Arena}

theorem tracks (first : FirstStep) :
    Tracing.Tracks store limit start 0 none none (first.tracing store limit)
      (first.step store limit) := by
  cases first with
  | definition index => exact Tracing.tracks_definition index
  | usage found => exact Tracing.tracks_usage (Nat.le_of_eq (Nat.zero_add limit).symm) found

/-- A recorded request agrees with the request, and records the rounds of its loop, if it has one:
where the first step fails, there is none. -/
theorem exists_agrees (sound : start.Sound store limit) (first : FirstStep) :
    ∃ looks : List Moment,
      Tracing.Agrees store limit start 0 looks none (first.trace store limit start)
        ((do
          let id ← first.step store limit
          Resolving.complete store limit
          return id : Resolving TypeId).run { arena := start }) ∧
      (∀ moment ∈ looks, moment.AtTurn store start) ∧
      ∀ now, (∃ moment ∈ looks, moment.toTransaction = now) ↔
        ∃ id reached, (first.step store limit).run { arena := start } = .ok id reached ∧
          Resolving.Comes store limit reached now := by
  have hkept : Trace.Kept store limit start { arena := start } :=
    ⟨.of_sound sound, fun mem => nomatch mem⟩
  have hfirst := first.tracks { arena := start } hkept rfl rfl
  rw [trace, EStateM.run_bind, EStateM.run_bind]
  generalize (first.tracing store limit).run _ = traced at hfirst ⊢
  generalize (first.step store limit).run _ = result at hfirst ⊢
  cases hfirst with
  | error kept same untouched =>
    refine ⟨[], .error kept same untouched, List.forall_mem_nil _, fun now => ?_⟩
    simp
  | @ok id after kept same untouched filling =>
    obtain ⟨looks, hagrees, hturns, hcomes⟩ :=
      Tracing.loopAgrees_complete kept same filling (Nat.le_refl _)
    rw [untouched, List.append_nil] at hagrees
    refine ⟨looks, ?_, hturns, fun now => ?_⟩
    · simp only [EStateM.run_bind, EStateM.run_get]
      generalize (Tracing.complete store limit _).run after = traced at hagrees ⊢
      generalize (Resolving.complete store limit).run after.toTransaction = result at hagrees ⊢
      cases hagrees with
      | ok kept same untouched filling => exact .ok kept same untouched filling
      | error kept same untouched => exact .error kept same untouched
    · rw [← hcomes]
      simp

/-- What is said of the record of a request that begins with the arena `start`. -/
structure Recorded (store : Store) (limit : Nat) (start : Arena) (first : FirstStep) : Prop where
  /-- The request that keeps the record is the request. -/
  same : Tracing.answer (first.trace store limit start) =
    start.request store limit (first.step store limit)
  /-- When it begins, nothing is reserved but not filled. -/
  begun : Moment.InFlight store start { arena := start }
  /-- The calls of the record are sound, those that failed as well as those that succeeded. -/
  returned {made : Return} :
    made ∈ (final (first.trace store limit start)).returns → made.Sound store limit start
  /-- The rounds of the record are those of the loop. -/
  rounds_iff {now : Transaction} :
    (∃ moment ∈ (final (first.trace store limit start)).rounds, moment.toTransaction = now) ↔
      ∃ id reached, (first.step store limit).run { arena := start } = .ok id reached ∧
        Resolving.Comes store limit reached now
  /-- In every round nothing is open, and the invariant of a request in flight holds. -/
  turned {moment : Moment} :
    moment ∈ (final (first.trace store limit start)).rounds → moment.AtTurn store start
  /-- The invariant holds when the request has come to an end; if it has failed, nothing has been
  withdrawn yet. -/
  ended : (final (first.trace store limit start)).InFlight store start

/-- **What the record of a request says**, if the request begins with a sound arena. -/
theorem recorded_of_sound (sound : start.Sound store limit) (first : FirstStep) :
    first.Recorded store limit start := by
  have hbegun : Transaction.Accounted store start { arena := start } := .of_sound sound
  obtain ⟨looks, hagrees, hturns, hrounds⟩ := exists_agrees sound first
  have hsame : Tracing.answer (first.trace store limit start) =
      start.request store limit (first.step store limit) := by
    rw [Arena.request]
    generalize first.trace store limit start = traced at hagrees ⊢
    generalize (first.step store limit >>= _).run _ = result at hagrees ⊢
    cases hagrees with
    | ok => rfl
    | error => rfl
  obtain ⟨hkept, rfl⟩ := hagrees.final
  constructor
  case same => exact hsame
  case begun => exact Moment.inFlight_of_accounted hbegun
  case returned => exact hkept.returned
  case rounds_iff => exact fun {now} => hrounds now
  case turned => exact fun {moment} => hturns moment
  case ended => exact hkept.inFlight

end FirstStep

/-- **What the record of a request says**, whatever a model was asked before: the invariant of a
request in flight holds after every call and in every round. -/
theorem TypeModel.Reachable.recorded {store : Store} {config : Config} {model : TypeModel}
    (h : Reachable store config model) (first : FirstStep) :
    first.Recorded store config.maxDepth model.arena :=
  FirstStep.recorded_of_sound h.arenaSound first

/-- A definition that could not be resolved is asked for again. Fifteen calls are made at depths of
up to two, the last of which fails in the second round, when two definitions still wait and six
slots have been opened. -/
theorem TypeModel.recorded_tangle :
    ((Tracing.final ((FirstStep.definition ⟨2⟩).trace .tangle 100
        ((TypeModel.new .tangle .standard).askEach [.definition ⟨2⟩]).2.arena)).returns.map
          fun made => (made.after.depth, made.fault)) =
        (0, some (.indexOutOfRange .string 9 1)) ::
          [0, 0, 1, 1, 1, 1, 1, 1, 2, 2, 2, 2, 1, 0].map (·, none) ∧
      (Tracing.final ((FirstStep.definition ⟨2⟩).trace .tangle 100
        ((TypeModel.new .tangle .standard).askEach [.definition ⟨2⟩]).2.arena)).rounds.map
          (fun moment => moment.pending.map Pending.id) = [[⟨10⟩, ⟨8⟩, ⟨7⟩], [⟨6⟩]] ∧
      (FirstStep.definition ⟨2⟩).Recorded .tangle Config.standard.maxDepth
        ((TypeModel.new .tangle .standard).askEach [.definition ⟨2⟩]).2.arena := by
  refine ⟨by cbv, by cbv, ?_⟩
  exact Reachable.recorded (reachable_askEach .new [.definition ⟨2⟩]) (.definition ⟨2⟩)

end TypeGraph
