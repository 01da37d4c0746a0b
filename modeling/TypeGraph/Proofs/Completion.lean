import TypeGraph.Proofs.Mirror
import TypeGraph.Proofs.Rollback
import TypeGraph.Resolve.Request

/-!
# What a request comes to

Filling a waiting definition mirrors reading it, so working off everything that waits mirrors
settling the agenda of the transaction. With this a request for a usage can be described without
any arena: its tree is read, and then whatever the tree names that was not known before is settled.
`Ends` does so. The arena only matters for which definitions are known.

## Main definitions

* `Ends` — what a request for a usage comes to, given the definitions that are known
* `Arena.Answers` — the answer to a request and the arena after it agree with such an end

## Main results

* `Resolving.mirrors_fillDefinition` — filling a definition mirrors reading it
* `Resolving.exists_settles` — completing a request mirrors settling its agenda
* `Ends.unique`, `Ends.knowing` — a request comes to one end, whatever was known before
* `Arena.exists_answers` — a request on a sound arena has an end, and answers accordingly
-/

namespace TypeGraph

namespace Resolving

open Transaction

variable {store : Store} {limit : Nat} {current : List Pending} {before : Transaction}

/-! ### Filling a definition -/

/-- A base is the handle of the tree of a parent, whose definitions have been met. -/
def FoundBase (agenda : Agenda) (parent : Option TypeTree) (base : Option TypeId)
    (after : Transaction) : Prop :=
  parent.map after.arena.idOf = base.map some ∧ after.agenda = agenda.meetAll (named parent)

theorem mirrors_base (sound : (before.besides current).Sound store limit) (row : TypeDefinition) :
    Mirrors store limit (before.besides current) current (FoundBase before.agenda)
      ((base store limit row).run before) (store.readParent limit row) := by
  rw [base, Store.readParent]
  cases row.parent with
  | none => exact .ok .refl ⟨rfl, rfl⟩
  | some parent =>
    rw [Option.mapM_some, Option.mapM_some, map_eq_pure_bind, map_eq_pure_bind]
    refine Mirrors.bind (.lift_bind fun found _ => mirrors_usage (Nat.le_refl limit) sound found) ?_
    rintro tree id after - - ⟨hid, hmet⟩
    exact .ok .refl ⟨congrArg some hid, hmet⟩

/-- **Filling a definition mirrors reading it.** Until it is filled it still counts as waiting. -/
theorem mirrors_fillDefinition {waiting : Pending}
    (sound : (before.besides [waiting]).Sound store limit) :
    Mirrors store limit (before.besides [waiting]) []
      (fun parent _ after => after.agenda = before.agenda.meetAll (named parent))
      ((fillDefinition store limit waiting).run before)
      (store.readDefinition limit waiting.index) := by
  obtain ⟨-, -, hrow⟩ := sound.waits List.mem_cons_self
  rw [Store.readDefinition, hrow]
  refine Mirrors.lift_bind fun namespaceName hnamespaceName => ?_
  refine Mirrors.lift_bind fun name hname => ?_
  refine (mirrors_base sound waiting.row).bind ?_
  rintro parent base after hparent hsteps ⟨hbase, hmet⟩
  refine .lift_bind_of_outcome (Store.outcome_readFields _ _ _) fun fields _ hfields _ => ?_
  refine .lift_bind_of_outcome (Store.outcome_readMethods _ _ _) fun methods _ hmethods _ => ?_
  -- the slot of the definition is still empty, so it can be filled
  obtain ⟨hid, hempty, -⟩ := (sound.steps hsteps).waits List.mem_cons_self
  obtain ⟨filled, hfills⟩ : ∃ filled, after.arena.fill waiting.id
      (waiting.entity ⟨waiting.index, namespaceName, name, base, fields, methods⟩) = .ok filled :=
    Arena.exists_fill ((sound.steps hsteps).keyed hid) hempty _
  have hrun : (fill waiting.id
      (waiting.entity ⟨waiting.index, namespaceName, name, base, fields, methods⟩)).run after =
        .ok () { after with arena := filled } := by
    rw [run_fill, hfills]
  have hportrays : after.arena.Portrays store limit waiting
      ⟨waiting.index, namespaceName, name, base, fields, methods⟩ :=
    ⟨rfl, hnamespaceName, hname, ⟨parent, hparent, hbase⟩, hfields, hmethods⟩
  have hmet' : agenda { after with arena := filled } = after.agenda := by
    rw [agenda, agenda]
    congr 1
    funext index
    rw [Arena.knows, Arena.knows, Arena.reserved?_fill hfills]
  exact hrun ▸ .ok (.single (.fill (.refl _) hportrays hfills)) (hmet'.trans hmet)

/-! ### Completing a request -/

/-- Taking the topmost definition off the stack and filling it mirrors reading it. -/
theorem mirrors_fillTop {transaction : Transaction} {waiting : Pending} {rest : List Pending}
    (sound : transaction.Sound store limit) (top : transaction.pending = waiting :: rest) :
    Mirrors store limit transaction []
      (fun parent _ after => after.agenda =
        Agenda.meetAll ⟨transaction.arena.knows, rest.map Pending.index⟩ (named parent))
      ((fillDefinition store limit waiting).run { transaction with pending := rest })
      (store.readDefinition limit waiting.index) := by
  have hsame : besides [waiting] { transaction with pending := rest } = transaction := by
    rw [besides, List.singleton_append, ← top]
  have hsound : (besides [waiting] { transaction with pending := rest }).Sound store limit :=
    hsame.symm ▸ sound
  have hfill := mirrors_fillDefinition hsound
  rwa [hsame] at hfill

/-- **Completing a request mirrors settling its agenda.** -/
theorem exists_settles {transaction : Transaction} (sound : transaction.Sound store limit) :
    ∃ outcome, Settles store limit transaction.agenda outcome ∧
      Mirrors store limit transaction [] (fun _ _ after => after.pending = [])
        ((complete store limit).run transaction) outcome := by
  obtain ⟨taken, hruns⟩ := exists_completes store limit transaction
  generalize (complete store limit).run transaction = result at hruns ⊢
  induction hruns with
  | done idle =>
    rw [agenda, idle]
    exact ⟨.ok (), .done, .ok .refl idle⟩
  | @fails before failed next rest fault top fill =>
    have hfill := mirrors_fillTop sound top
    rw [fill] at hfill
    generalize hread : store.readDefinition limit next.index = reading at hfill
    rw [agenda, top]
    cases hfill with
    | error pending steps => exact ⟨.error fault, .fails hread, .error pending steps⟩
  | @goesOn before filled next rest taken result top fill _ ih =>
    have hfill := mirrors_fillTop sound top
    rw [fill] at hfill
    generalize hread : store.readDefinition limit next.index = reading at hfill
    rw [agenda, top]
    cases hfill with
    | ok steps hmet =>
      obtain ⟨outcome, hsettles, hmirrors⟩ := ih (sound.steps steps)
      exact ⟨outcome, .goesOn hread (hmet ▸ hsettles), .of_steps steps hmirrors⟩

end Resolving

/-! ### What a request comes to -/

/-- What a request comes to, if `reading` is the tree that it asks for, and the definitions are
known of which `known` is true: once the tree is read, what it names is settled. -/
inductive Ends (store : Store) (limit : Nat) (known : DefinitionIndex → Bool) :
    Except Fault TypeTree → Except Fault TypeTree → Prop where
  | fails {fault : Fault} : Ends store limit known (.error fault) (.error fault)
  | goesOn {tree : TypeTree} {outcome : Except Fault Unit}
      (settles : Settles store limit (Agenda.meetAll ⟨known, []⟩ tree.definitions) outcome) :
      Ends store limit known (.ok tree) (outcome.map fun _ => tree)

namespace Ends

variable {store : Store} {limit : Nat} {known : DefinitionIndex → Bool}
  {reading result result' : Except Fault TypeTree}

/-- A request comes to one end. -/
theorem unique (h : Ends store limit known reading result)
    (h' : Ends store limit known reading result') : result = result' := by
  cases h with
  | fails => cases h'; rfl
  | goesOn settles =>
    cases h' with
    | goesOn settles' => rw [settles.unique settles']

/-- A request goes well only if its tree can be read, and if what the tree names can be settled. -/
theorem of_ok {tree : TypeTree} (h : Ends store limit known reading (.ok tree)) :
    reading = .ok tree ∧
      Settles store limit (Agenda.meetAll ⟨known, []⟩ tree.definitions) (.ok ()) := by
  generalize hresult : Except.ok tree = result at h
  cases h with
  | fails => cases hresult
  | @goesOn tree' outcome settles =>
    cases outcome with
    | ok _ =>
      obtain rfl := Except.ok.inj hresult
      exact ⟨rfl, settles⟩
    | error fault => cases hresult

/-- **What a request comes to does not depend on what was known**, if that is settled. -/
theorem knowing (settled : store.Settled limit known)
    (h : Ends store limit (fun _ => false) reading result) :
    Ends store limit known reading result := by
  cases h with
  | fails => exact .fails
  | goesOn settles =>
    have hknowing := settles.knowing settled
    rw [Agenda.knowing_meetAll] at hknowing
    refine .goesOn ?_
    simpa [Agenda.knowing] using hknowing

end Ends

/-! ### Answers -/

namespace Arena

variable {store : Store} {limit : Nat} {arena : Arena}

/-- The answer to a request and the arena after it agree with what the request comes to: the answer
is the handle of the tree, and nothing waits any more; or it is the fault, and the request has been
rolled back. -/
inductive Answers (store : Store) (limit : Nat) (arena : Arena) :
    Except Fault TypeTree → Except Fault TypeId × Arena → Prop where
  | ok {tree : TypeTree} {id : TypeId} {after : Transaction}
      (steps : Transaction.Steps store limit { arena } after) (idle : after.pending = [])
      (found : after.arena.idOf tree = some id) :
      Answers store limit arena (.ok tree) (.ok id, after.arena)
  | error {fault : Fault} {after : Transaction}
      (steps : Transaction.Steps store limit { arena } after) :
      Answers store limit arena (.error fault) (.error fault, after.rollback)

theorem Answers.outcome_eq {result : Except Fault TypeTree} {answer : Except Fault TypeId × Arena}
    (h : Answers store limit arena result answer) : outcome answer.1 = outcome result := by
  cases h <;> rfl

/-- What was left waiting makes no difference to how a request is rolled back. -/
theorem Answers.error_of_pending {fault : Fault} {after : Transaction} {pending : List Pending}
    (steps : Transaction.Steps store limit { arena } { after with pending }) :
    Answers store limit arena (.error fault) (.error fault, after.rollback) := by
  have hanswers : Answers store limit arena (.error fault)
    (.error fault, Transaction.rollback { after with pending }) := .error steps
  exact hanswers

/-- **A request on a sound arena comes to an end, and answers accordingly.** -/
theorem exists_answers (sound : arena.Sound store limit) (usage : TypeUsage) :
    ∃ result, Ends store limit arena.knows (store.readTree limit limit usage) result ∧
      arena.Answers store limit result
        (arena.request store limit (Resolving.usage store limit limit usage)) := by
  have hsound : (Transaction.besides [] { arena }).Sound store limit := sound
  have husage : Resolving.Mirrors store limit { arena } []
      (Resolving.Found ⟨arena.knows, []⟩) _ (store.readTree limit limit usage) :=
    Resolving.mirrors_usage (Nat.le_refl limit) hsound usage
  rw [request, EStateM.run_bind]
  generalize store.readTree limit limit usage = reading at husage ⊢
  cases hrun : (Resolving.usage store limit limit usage).run { arena } with
  | error fault failed =>
    rw [hrun] at husage
    cases husage with
    | error pending steps => exact ⟨_, .fails, .error_of_pending steps⟩
  | ok id reached =>
    rw [hrun] at husage
    cases husage with
    | @ok _ tree _ steps post =>
      obtain ⟨hid, hmet⟩ := post
      have hreached : reached.Sound store limit := Transaction.Sound.steps sound steps
      obtain ⟨outcome, hsettles, hmirrors⟩ := Resolving.exists_settles hreached
      refine ⟨outcome.map fun _ => tree, .goesOn (hmet ▸ hsettles), ?_⟩
      simp only [EStateM.run_bind]
      cases hcomplete : (Resolving.complete store limit).run reached with
      | error fault failed =>
        rw [hcomplete] at hmirrors
        cases hmirrors with
        | error pending steps' => exact .error_of_pending (steps.trans steps')
      | ok _ after =>
        rw [hcomplete] at hmirrors
        cases hmirrors with
        | ok steps' idle => exact .ok (steps.trans steps') idle (steps'.remembers.idOf hid)

end Arena

end TypeGraph
