import TypeGraph.Resolve.Outstanding

/-!
# Requests

A request is a first step, and then the work that the step left behind: every waiting definition is
filled, also those that are queued while others are filled, the last queued first. The request has
its answer only when nothing waits any more. If anything fails on the way, the whole request fails
and every reservation it made is withdrawn.

## Main definitions

* `Resolving.complete` — fills everything that waits
* `Resolving.Completes` — a run of this loop, round by round
* `Arena.request` — runs a step as a request of its own

## Main results

* `Resolving.complete_of_pending_nil`, `Resolving.complete_of_pending_cons` — one definition at a
  time
* `Resolving.exists_completes` — the loop has a run from every transaction
-/

namespace TypeGraph

namespace Resolving

/-- Filling the topmost definition leaves less to do than before, whether it succeeds or fails. -/
theorem outstanding_fillDefinition_lt {store : Store} {limit : Nat} {next : Pending}
    {rest : List Pending} {transaction : Transaction} (top : transaction.pending = next :: rest) :
    (left ((fillDefinition store limit next).run { transaction with pending := rest })).outstanding
      store < transaction.outstanding store := by
  have adds : AddsNoWork store (fillDefinition store limit next) :=
    addsNoWork_fillDefinition limit next
  refine Nat.lt_of_le_of_lt (adds { transaction with pending := rest }) ?_
  simp only [Transaction.outstanding, top, List.length_cons]
  omega

/-- Fills the topmost definition. The result comes with the reason why it can be gone on from. -/
def fillTop (store : Store) (limit : Nat) (transaction : Transaction) {next : Pending}
    {rest : List Pending} (top : transaction.pending = next :: rest) :
    { result : EStateM.Result Fault Transaction Unit //
      (left result).outstanding store < transaction.outstanding store } :=
  ⟨(fillDefinition store limit next).run { transaction with pending := rest },
    outstanding_fillDefinition_lt top⟩

/-- Fills every definition that waits, the topmost first. -/
def complete (store : Store) (limit : Nat) : Resolving Unit := go
where
  /-- Fills the topmost definition and goes on with whatever waits then. -/
  go (transaction : Transaction) : EStateM.Result Fault Transaction Unit :=
    match top : transaction.pending with
    | [] => .ok () transaction
    | _ :: _ =>
      match fillTop store limit transaction top with
      | ⟨.error fault reached, _⟩ => .error fault reached
      | ⟨.ok () filled, _⟩ => go filled
  termination_by transaction.outstanding store
  decreasing_by assumption

/-- Where nothing waits, there is nothing to do. -/
theorem complete_of_pending_nil {store : Store} {limit : Nat} {transaction : Transaction}
    (h : transaction.pending = []) :
    (complete store limit).run transaction = .ok () transaction := by
  unfold complete EStateM.run complete.go
  split
  · rfl
  · simp_all

/-- The topmost definition is filled before all others. -/
theorem complete_of_pending_cons {store : Store} {limit : Nat} {transaction : Transaction}
    {waiting : Pending} {rest : List Pending} (h : transaction.pending = waiting :: rest) :
    (complete store limit).run transaction =
      (do fillDefinition store limit waiting; complete store limit).run
        { transaction with pending := rest } := by
  rw [EStateM.run_bind]
  conv => lhs; unfold complete EStateM.run complete.go
  split
  · simp_all
  · next waiting' rest' top =>
    obtain ⟨rfl, rfl⟩ : waiting' = waiting ∧ rest' = rest := by simpa [top] using h
    split
    · next result =>
      have run : (fillDefinition store limit waiting').run _ = _ := congrArg Subtype.val result
      rw [run]
    · next filled _ result =>
      have run : (fillDefinition store limit waiting').run _ = _ := congrArg Subtype.val result
      rw [run]
      rfl

/-! ### Runs of the loop -/

/-- A run of the loop that fills whatever waits: the definitions that it takes off the stack, in
their order, and what it comes to. -/
inductive Completes (store : Store) (limit : Nat) :
    Transaction → List Pending → EStateM.Result Fault Transaction Unit → Prop where
  | done {before : Transaction} (idle : before.pending = []) :
      Completes store limit before [] (.ok () before)
  | fails {before failed : Transaction} {next : Pending} {rest : List Pending} {fault : Fault}
      (top : before.pending = next :: rest)
      (fill : (fillDefinition store limit next).run { before with pending := rest } =
        .error fault failed) :
      Completes store limit before [next] (.error fault failed)
  | goesOn {before filled : Transaction} {next : Pending} {rest taken : List Pending}
      {result : EStateM.Result Fault Transaction Unit} (top : before.pending = next :: rest)
      (fill : (fillDefinition store limit next).run { before with pending := rest } =
        .ok () filled)
      (then_ : Completes store limit filled taken result) :
      Completes store limit before (next :: taken) result

/-- The loop comes to an end from every transaction, sound or not. -/
theorem exists_completes (store : Store) (limit : Nat) (before : Transaction) :
    ∃ taken, Completes store limit before taken ((complete store limit).run before) := by
  -- every definition that is filled leaves less outstanding, however much it lets wait
  induction hwork : before.outstanding store using Nat.strongRecOn generalizing before with
  | ind work ih =>
    cases hpending : before.pending with
    | nil =>
      rw [complete_of_pending_nil hpending]
      exact ⟨[], .done hpending⟩
    | cons next rest =>
      have hless : (left ((fillDefinition store limit next).run
          { before with pending := rest })).outstanding store < before.outstanding store :=
        outstanding_fillDefinition_lt hpending
      rw [complete_of_pending_cons hpending, EStateM.run_bind]
      cases hrun : (fillDefinition store limit next).run { before with pending := rest } with
      | error fault failed => exact ⟨[next], .fails hpending hrun⟩
      | ok _ filled =>
        rw [hrun] at hless
        obtain ⟨taken, hthen⟩ := ih _ (hwork ▸ hless) filled rfl
        exact ⟨next :: taken, .goesOn hpending hrun hthen⟩

/-- The loop comes to one end. -/
theorem Completes.result_eq {store : Store} {limit : Nat} {before : Transaction}
    {taken : List Pending} {result : EStateM.Result Fault Transaction Unit}
    (h : Completes store limit before taken result) :
    (complete store limit).run before = result := by
  induction h with
  | done idle => exact complete_of_pending_nil idle
  | fails top fill => rw [complete_of_pending_cons top, EStateM.run_bind, fill]
  | goesOn top fill _ ih =>
    rw [complete_of_pending_cons top, EStateM.run_bind, fill]
    exact ih

end Resolving

/-- Runs a step as a request, with all the work that it leaves behind. The arena comes back with the
answer; if there is none, every reservation has been withdrawn from it. -/
def Arena.request {α : Type} (store : Store) (limit : Nat) (step : Resolving α) (arena : Arena) :
    Except Fault α × Arena :=
  match (do let value ← step; Resolving.complete store limit; return value).run { arena } with
  | .ok value reached => (.ok value, reached.arena)
  | .error fault reached => (.error fault, reached.rollback)

end TypeGraph
