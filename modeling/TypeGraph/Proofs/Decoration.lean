import Mathlib
import TypeGraph.Proofs.KeyIndex
import TypeGraph.Proofs.Likeness

/-!
# Decoration makes no difference

Two models whose images differ in the decoration of usages only cannot be told apart by what they
are asked. Run side by side on requests that differ in such decoration too, they reserve the same
keys in the same order, hand out the same handles, and fail at the same places for the same reasons.

So the steps of resolution are compared one by one, from transactions that are alike to transactions
that are alike. A step may look at a usage in two ways only: it takes its shape, which is the same
up to which definitions are built-in types, or it hands the usage on as an origin.

## Main definitions

* `Transaction.Alike` — transactions whose arenas are alike, with the same journal and queue
* `Resolving.RunsAlike` — steps that lead from transactions that are alike to such transactions
* `TypeModel.Alike`, `Request.Alike` — models and requests that differ in decoration only
* `TypeModel.Indistinguishable` — all that can be asked of two models without changing them

## Main results

* `Resolving.runsAlike_usage`, `Resolving.runsAlike_complete` — resolution runs alike
* `TypeModel.Alike.askEach` — requests that are alike keep models alike
* `TypeModel.indistinguishable_of_alike` — decoration makes no difference to any history
-/

namespace TypeGraph

/-! ### Transactions -/

/-- Two transactions are alike if their arenas are, and both have reserved and queued the same. -/
structure Transaction.Alike (transaction transaction' : Transaction) : Prop where
  arena : transaction.arena.Alike transaction'.arena
  journal : transaction'.journal = transaction.journal
  pending : transaction'.pending = transaction.pending

theorem Transaction.Alike.withPending {transaction transaction' : Transaction}
    (h : transaction.Alike transaction') (pending : List Pending) :
    Transaction.Alike { transaction with pending } { transaction' with pending } :=
  ⟨h.arena, h.journal, rfl⟩

/-- What is left of transactions that are alike once they are rolled back is alike. -/
theorem Transaction.Alike.rollback {transaction transaction' : Transaction}
    (h : transaction.Alike transaction') : transaction.rollback.Alike transaction'.rollback := by
  have hwithdrawn := h.arena.withdrawAll transaction.journal
  rw [Transaction.rollback, Transaction.rollback, h.journal]
  exact hwithdrawn

namespace Resolving

variable {α β γ δ : Type} {rel : α → β → Prop} {rel' : γ → δ → Prop}

/-- Two results of steps are alike if they have the same outcome and leave transactions behind that
are alike. -/
inductive EndsAlike (rel : α → β → Prop) :
    EStateM.Result Fault Transaction α → EStateM.Result Fault Transaction β → Prop where
  | ok {value : α} {value' : β} {after after' : Transaction} (related : rel value value')
      (alike : after.Alike after') : EndsAlike rel (.ok value after) (.ok value' after')
  | error {fault fault' : Fault} {after after' : Transaction} (faults : fault.Alike fault')
      (alike : after.Alike after') : EndsAlike rel (.error fault after) (.error fault' after')

variable {after : Transaction} {result' : EStateM.Result Fault Transaction β}

theorem EndsAlike.exists_of_ok {value : α} (h : EndsAlike rel (.ok value after) result') :
    ∃ value' after', result' = .ok value' after' ∧ rel value value' ∧ after.Alike after' := by
  cases h with
  | ok related alike => exact ⟨_, _, rfl, related, alike⟩

theorem EndsAlike.exists_of_error {fault : Fault} (h : EndsAlike rel (.error fault after) result') :
    ∃ fault' after', result' = .error fault' after' ∧ fault.Alike fault' ∧ after.Alike after' := by
  cases h with
  | error faults alike => exact ⟨_, _, rfl, faults, alike⟩

/-- Two steps run alike if from transactions that are alike they end alike. -/
def RunsAlike (rel : α → β → Prop) (step : Resolving α) (step' : Resolving β) : Prop :=
  ∀ ⦃before before'⦄, before.Alike before' → EndsAlike rel (step.run before) (step'.run before')

theorem RunsAlike.pure {value : α} {value' : β} (related : rel value value') :
    RunsAlike rel (Pure.pure value) (Pure.pure value') := fun _ _ => .ok related

/-- Steps that run alike can be taken one after the other. -/
theorem RunsAlike.bind {step : Resolving α} {step' : Resolving β} {next : α → Resolving γ}
    {next' : β → Resolving δ} (first : RunsAlike rel step step')
    (second : ∀ value value', rel value value' → RunsAlike rel' (next value) (next' value')) :
    RunsAlike rel' (step >>= next) (step' >>= next') := by
  intro before before' alike
  have hfirst := first alike
  rw [EStateM.run_bind, EStateM.run_bind]
  generalize step.run before = result at hfirst ⊢
  generalize step'.run before' = result' at hfirst ⊢
  cases hfirst with
  | ok related alike => exact second _ _ related alike
  | error faults alike => exact .error faults alike

/-- Where steps that run alike have the same value, what follows has only to run alike from it. -/
theorem RunsAlike.andThen {step step' : Resolving α} {next : α → Resolving γ}
    {next' : α → Resolving δ} (first : RunsAlike Eq step step')
    (second : ∀ value, RunsAlike rel' (next value) (next' value)) :
    RunsAlike rel' (step >>= next) (step' >>= next') := by
  refine first.bind ?_
  rintro value _ rfl
  exact second value

theorem runsAlike_lift {reading : Except Fault α} {reading' : Except Fault β}
    (same : SameOutcome rel reading reading') :
    RunsAlike rel (monadLift reading) (monadLift reading') := by
  intro before before' alike
  rw [run_lift, run_lift]
  cases same with
  | ok related => exact .ok related alike
  | error faults => exact .error faults alike

theorem runsAlike_listMapM {step step' : α → Resolving β}
    (each : ∀ value, RunsAlike Eq (step value) (step' value)) (values : List α) :
    RunsAlike Eq (values.mapM step) (values.mapM step') := by
  induction values with
  | nil => exact .pure rfl
  | cons value values ih =>
    rw [List.mapM_cons, List.mapM_cons]
    exact (each value).andThen fun _ => ih.andThen fun _ => .pure rfl

theorem runsAlike_optionMapM {step step' : α → Resolving β}
    (each : ∀ value, RunsAlike Eq (step value) (step' value)) (value : Option α) :
    RunsAlike Eq (value.mapM step) (value.mapM step') := by
  cases value with
  | none => exact .pure rfl
  | some value => exact (each value).andThen fun _ => .pure rfl

/-! ### Steps that touch the arena -/

theorem runsAlike_reserved? (key : TypeKey) : RunsAlike Eq (reserved? key) (reserved? key) :=
  fun _ _ alike => .ok (alike.arena.reserved? key).symm alike

theorem runsAlike_containsParameters (id : TypeId) :
    RunsAlike Eq (containsParameters id) (containsParameters id) := by
  have hget : RunsAlike Transaction.Alike get get := fun _ _ alike => .ok alike alike
  refine hget.bind fun transaction transaction' alike => ?_
  rw [alike.arena.containsParameters_eq]
  exact runsAlike_lift (.refl (fun _ => rfl) _)

theorem runsAlike_reserve (key : TypeKey) : RunsAlike Eq (reserve key) (reserve key) := by
  intro before before' alike
  rw [run_reserve, run_reserve, alike.arena.reserve_fst_eq]
  exact .ok rfl ⟨alike.arena.reserve key, congrArg (List.cons _) alike.journal, alike.pending⟩

theorem runsAlike_enqueue (waiting : Pending) :
    RunsAlike Eq (enqueue waiting) (enqueue waiting) := by
  intro before before' alike
  rw [run_enqueue, run_enqueue]
  exact .ok rfl ⟨alike.arena, alike.journal, congrArg (List.cons _) alike.pending⟩

theorem runsAlike_fill {entity entity' : TypeEntity} (entities : entity.Alike entity')
    (id : TypeId) : RunsAlike Eq (fill id entity) (fill id entity') := by
  intro before before' alike
  have hfill := alike.arena.fill entities id
  rw [run_fill, run_fill]
  generalize before.arena.fill id entity = reading at hfill ⊢
  generalize before'.arena.fill id entity' = reading' at hfill ⊢
  cases hfill with
  | ok filled => exact .ok rfl ⟨filled, alike.journal, alike.pending⟩
  | error faults => exact .error faults alike

variable {store store' : Store} {limit levels : Nat} {usage usage' : TypeUsage}

/-- A type that is no definition is found or made alike from usages that are alike. -/
theorem runsAlike_construct {shape : TypeShape} (alike : usage.Alike usage')
    (attributes : TypeAttributes) (flag : Bool)
    (composed : ∀ definition, shape ≠ .definition definition) :
    RunsAlike Eq (construct usage attributes flag shape)
      (construct usage' attributes flag shape) := by
  refine (runsAlike_reserved? _).andThen fun found => ?_
  cases found with
  | some id => exact .pure rfl
  | none =>
    refine (runsAlike_reserve _).andThen fun id => ?_
    exact (runsAlike_fill (.usage alike composed) id).andThen fun _ => .pure rfl

/-! ### Steps of resolution -/

theorem runsAlike_definition (stores : store.Alike store') (index : DefinitionIndex) :
    RunsAlike Eq (definition store index) (definition store' index) := by
  have hrow : SameOutcome Eq (store.definition index) (store'.definition index) :=
    stores.sameOutcome (Store.definition · index) fun _ _ => rfl
  refine (runsAlike_reserved? _).andThen fun found => ?_
  cases found with
  | some id => exact .pure rfl
  | none =>
    exact (runsAlike_lift hrow).andThen fun _ => (runsAlike_reserve _).andThen fun _ =>
      (runsAlike_enqueue _).andThen fun _ => .pure rfl

theorem runsAlike_genericParameter (stores : store.Alike store') (alike : usage.Alike usage')
    (index : GenericParameterIndex) (ofMethod : Bool) :
    RunsAlike Eq (genericParameter store usage index ofMethod)
      (genericParameter store' usage' index ofMethod) := by
  have hrow : SameOutcome Eq (store.genericParameter index) (store'.genericParameter index) :=
    stores.sameOutcome (Store.genericParameter · index) fun _ _ => rfl
  refine (runsAlike_reserved? _).andThen fun found => ?_
  cases found with
  | some id => exact .pure rfl
  | none => exact (runsAlike_lift hrow).andThen fun _ => runsAlike_construct alike _ _ nofun

/-- A composite is resolved alike if its operands are. -/
theorem runsAlike_composite (stores : store.Alike store')
    {inner inner' : TypeUsage → Resolving TypeId}
    (each : ∀ ⦃usage usage'⦄, usage.Alike usage' → RunsAlike Eq (inner usage) (inner' usage'))
    (alike : usage.Alike usage') (found : Composite) :
    RunsAlike Eq (composite store inner usage found) (composite store' inner' usage' found) := by
  have hoperand (address : Address) :
      RunsAlike Eq (operand store inner address) (operand store' inner' address) :=
    (runsAlike_lift (stores.usageAt address)).bind fun _ _ operands => each operands
  cases found with
  | genericInstance address =>
    exact (runsAlike_lift (stores.genericClass _)).andThen fun _ =>
      (runsAlike_definition stores _).andThen fun _ =>
      (runsAlike_lift (stores.instantiation _)).andThen fun _ =>
      (runsAlike_lift (stores.argumentAddresses _ _)).andThen fun _ =>
      (runsAlike_listMapM hoperand _).andThen fun _ =>
      (runsAlike_listMapM runsAlike_containsParameters _).andThen fun _ =>
      runsAlike_construct alike _ _ nofun
  | array address =>
    exact (runsAlike_lift (stores.arrayDescriptor _)).andThen fun descriptor =>
      (runsAlike_lift (.refl (fun _ => rfl) descriptor.checkedRank)).andThen fun _ =>
      (hoperand _).andThen fun _ => (runsAlike_containsParameters _).andThen fun _ =>
      runsAlike_construct alike _ _ nofun
  | vector address | pointer address =>
    exact (hoperand _).andThen fun _ => (runsAlike_containsParameters _).andThen fun _ =>
      runsAlike_construct alike _ _ nofun

/-- A usage is resolved alike if composites are. -/
theorem runsAlike_byShape (stores : store.Alike store')
    {nested nested' : TypeUsage → Composite → Resolving TypeId}
    (each : ∀ ⦃usage usage'⦄, usage.Alike usage' → ∀ found,
      RunsAlike Eq (nested usage found) (nested' usage' found)) (alike : usage.Alike usage') :
    RunsAlike Eq (byShape store nested usage) (byShape store' nested' usage') := by
  refine (runsAlike_lift alike.shape).bind fun shape shape' shapes => ?_
  cases shapes with
  | same =>
    cases shape with
    | definition index | primitive kind index => exact runsAlike_definition stores index
    | composite found => exact each alike found
    | genericParameter index ofMethod =>
      exact runsAlike_genericParameter stores alike index ofMethod
  | definition first second =>
    cases first <;> cases second <;> exact runsAlike_definition stores _

/-- **Usages that are alike are resolved alike**, at any depth. -/
theorem runsAlike_usage (stores : store.Alike store') (alike : usage.Alike usage') :
    RunsAlike Eq (Resolving.usage store limit levels usage)
      (Resolving.usage store' limit levels usage') := by
  induction levels generalizing usage usage' with
  | zero =>
    refine runsAlike_byShape stores (fun _ _ _ _ => ?_) alike
    exact fun _ _ before => .error (.same _) before
  | succ levels ih =>
    refine runsAlike_byShape stores (fun _ _ operands => ?_) alike
    exact runsAlike_composite stores (fun _ _ => ih) operands

theorem runsAlike_base (stores : store.Alike store') (row : TypeDefinition) :
    RunsAlike Eq (base store limit row) (base store' limit row) :=
  runsAlike_optionMapM (fun parent => (runsAlike_lift (stores.usage parent)).bind fun _ _ =>
    runsAlike_usage stores) _

/-- A waiting definition is filled alike. Nothing that it holds is a usage. -/
theorem runsAlike_fillDefinition (stores : store.Alike store') (waiting : Pending) :
    RunsAlike Eq (fillDefinition store limit waiting) (fillDefinition store' limit waiting) := by
  have hstring (offset : StringOffset) :
      SameOutcome Eq (store.string offset) (store'.string offset) :=
    stores.sameOutcome (Store.string · offset) fun _ _ => rfl
  have hfields : SameOutcome Eq (waiting.row.readFields store waiting.id)
      (waiting.row.readFields store' waiting.id) :=
    stores.sameOutcome (waiting.row.readFields · waiting.id) fun _ _ => rfl
  have hmethods : SameOutcome Eq (waiting.row.readMethods store waiting.id)
      (waiting.row.readMethods store' waiting.id) :=
    stores.sameOutcome (waiting.row.readMethods · waiting.id) fun _ _ => rfl
  exact (runsAlike_lift (hstring _)).andThen fun _ => (runsAlike_lift (hstring _)).andThen fun _ =>
    (runsAlike_base stores _).andThen fun _ => (runsAlike_lift hfields).andThen fun _ =>
    (runsAlike_lift hmethods).andThen fun _ => runsAlike_fill (.same _) _

/-- **The work that is left behind is worked off alike**, definition by definition. -/
theorem runsAlike_complete (stores : store.Alike store') :
    RunsAlike Eq (complete store limit) (complete store' limit) := by
  intro before before' alike
  obtain ⟨taken, hruns⟩ := exists_completes store limit before
  generalize (complete store limit).run before = result at hruns ⊢
  induction hruns generalizing before' with
  | done idle =>
    rw [complete_of_pending_nil (alike.pending.trans idle)]
    exact .ok rfl alike
  | @fails before failed next rest fault top fill =>
    obtain ⟨fault', failed', hfill', hfaults, hfailed⟩ :=
      (fill ▸ runsAlike_fillDefinition stores next (alike.withPending rest)).exists_of_error
    rw [complete_of_pending_cons (alike.pending.trans top), EStateM.run_bind, hfill']
    exact .error hfaults hfailed
  | @goesOn before filled next rest taken result top fill _ ih =>
    obtain ⟨_, filled', hfill', -, hfilled⟩ :=
      (fill ▸ runsAlike_fillDefinition stores next (alike.withPending rest)).exists_of_ok
    rw [complete_of_pending_cons (alike.pending.trans top), EStateM.run_bind, hfill']
    exact ih hfilled

end Resolving

/-- **Steps that run alike are alike as requests**, whether they go through or are rolled back. -/
theorem Arena.Alike.request {store store' : Store} {limit : Nat} {arena arena' : Arena}
    {step step' : Resolving TypeId} (arenas : arena.Alike arena') (stores : store.Alike store')
    (steps : Resolving.RunsAlike Eq step step') :
    SameOutcome Eq (arena.request store limit step).1 (arena'.request store' limit step').1 ∧
      (arena.request store limit step).2.Alike (arena'.request store' limit step').2 := by
  have hrequest : Resolving.RunsAlike Eq
      (do let value ← step; Resolving.complete store limit; return value)
      (do let value ← step'; Resolving.complete store' limit; return value) :=
    steps.andThen fun _ => (Resolving.runsAlike_complete stores).andThen fun _ => .pure rfl
  have hends := hrequest (⟨arenas, rfl, rfl⟩ : Transaction.Alike { arena } { arena := arena' })
  rw [Arena.request, Arena.request]
  generalize EStateM.run _ _ = result at hends ⊢
  generalize EStateM.run _ _ = result' at hends ⊢
  cases hends with
  | ok related alike => exact ⟨.ok related, alike.arena⟩
  | error faults alike => exact ⟨.error faults, alike.rollback⟩

/-! ### Models -/

/-- Two models are alike if their images and their arenas are, and they are configured alike. -/
structure TypeModel.Alike (model model' : TypeModel) : Prop where
  store : model.store.Alike model'.store
  config : model'.config = model.config
  arena : model.arena.Alike model'.arena

/-- Two requests are alike if they are the same, or ask for usages that are alike. -/
inductive Request.Alike : Request → Request → Prop where
  | same (request : Request) : Alike request request
  | usage {usage usage' : TypeUsage} (alike : usage.Alike usage') :
      Alike (.usage usage) (.usage usage')

namespace TypeModel

/-- Two requests went alike if they have the same outcome and leave models behind that are alike. -/
structure WentAlike {α : Type} (result result' : Except Fault α × TypeModel) : Prop where
  answer : SameOutcome Eq result.1 result'.1
  model : result.2.Alike result'.2

/-- An answer that is a type is an answer to a request. -/
theorem WentAlike.mapSome {result result' : Except Fault TypeId × TypeModel}
    (h : WentAlike result result') :
    WentAlike (result.1.map some, result.2) (result'.1.map some, result'.2) :=
  ⟨h.answer.map fun _ _ => congrArg some, h.model⟩

namespace Alike

variable {model model' : TypeModel} {usage usage' : TypeUsage}

theorem request (h : model.Alike model') {step step' : Resolving TypeId}
    (steps : Resolving.RunsAlike Eq step step') :
    WentAlike (model.request step) (model'.request step') := by
  obtain ⟨hanswer, harena⟩ :
      SameOutcome Eq (model.arena.request model.store model.config.maxDepth step).1
          (model'.arena.request model'.store model.config.maxDepth step').1 ∧
        (model.arena.request model.store model.config.maxDepth step).2.Alike
          (model'.arena.request model'.store model.config.maxDepth step').2 :=
    h.arena.request h.store steps
  simp only [TypeModel.request, h.config]
  exact ⟨hanswer, h.store, rfl, harena⟩

theorem resolveDefinition (h : model.Alike model') (index : DefinitionIndex) :
    WentAlike (model.resolveDefinition index) (model'.resolveDefinition index) := by
  rw [TypeModel.resolveDefinition, TypeModel.resolveDefinition, TypeModel.lookup?,
    TypeModel.lookup?, h.arena.lookup?_eq]
  cases model.arena.lookup? (.definition index) with
  | some id => exact ⟨.ok rfl, h⟩
  | none => exact h.request (Resolving.runsAlike_definition h.store index)

/-- **Usages that are alike are asked for alike**, also by the shortcut for definitions. -/
theorem resolveUsage (h : model.Alike model') (alike : usage.Alike usage') :
    WentAlike (model.resolveUsage usage) (model'.resolveUsage usage') := by
  have hrequest :
      WentAlike
        (model.request
          (Resolving.usage model.store model.config.maxDepth model.config.maxDepth usage))
        (model'.request
          (Resolving.usage model'.store model'.config.maxDepth model'.config.maxDepth usage')) := by
    rw [h.config]
    exact h.request (Resolving.runsAlike_usage h.store alike)
  have hshape := alike.shape
  rw [TypeModel.resolveUsage, TypeModel.resolveUsage]
  generalize usage.shape = reading at hshape ⊢
  generalize usage'.shape = reading' at hshape ⊢
  cases hshape with
  | error faults => exact ⟨.error faults, h⟩
  | @ok shape _ shapes =>
    cases shapes with
    | same =>
      cases shape with
      | definition index | primitive kind index => exact h.resolveDefinition index
      | composite found | genericParameter index ofMethod => exact hrequest
    | definition first second => cases first <;> cases second <;> exact h.resolveDefinition _

theorem resolveUsageIndex (h : model.Alike model') (index : UsageIndex) :
    WentAlike (model.resolveUsageIndex index) (model'.resolveUsageIndex index) := by
  have husage := h.store.usage index
  rw [TypeModel.resolveUsageIndex, TypeModel.resolveUsageIndex]
  generalize model.store.usage index = reading at husage ⊢
  generalize model'.store.usage index = reading' at husage ⊢
  cases husage with
  | error faults => exact ⟨.error faults, h⟩
  | ok alike => exact h.resolveUsage alike

/-- A link is resolved alike, and comes to remember the same. -/
theorem resolveLink (h : model.Alike model') (link : TypeLink) :
    SameOutcome Eq (model.resolveLink link).1 (model'.resolveLink link).1 ∧
      (model'.resolveLink link).2.1 = (model.resolveLink link).2.1 ∧
      (model.resolveLink link).2.2.Alike (model'.resolveLink link).2.2 := by
  cases hlink : link.resolved with
  | some id =>
    rw [resolveLink_of_resolved hlink, resolveLink_of_resolved hlink]
    exact ⟨.ok rfl, rfl, h⟩
  | none =>
    have hresolve := h.resolveUsageIndex link.usage
    simp only [TypeModel.resolveLink, hlink]
    generalize model.resolveUsageIndex link.usage = result at hresolve ⊢
    generalize model'.resolveUsageIndex link.usage = result' at hresolve ⊢
    obtain ⟨answer, after⟩ := result
    obtain ⟨answer', after'⟩ := result'
    obtain ⟨hanswer, hafter⟩ := hresolve
    cases hanswer with
    | ok same =>
      obtain rfl := same
      exact ⟨.ok rfl, rfl, hafter⟩
    | error faults => exact ⟨.error faults, rfl, hafter⟩

theorem memberLink_eq (h : model.Alike model') (id : TypeId) (site : MemberSite) :
    model'.memberLink id site = model.memberLink id site := by
  rw [memberLink, memberLink, TypeModel.get, TypeModel.get]
  rcases h.arena.get_cases id with ⟨entity, entity', hget, hget', halike⟩ | ⟨fault, hget, hget'⟩
  · rw [hget, hget']
    exact congrArg Except.ok (halike.link?_eq site)
  · rw [hget, hget']

theorem resolveMember (h : model.Alike model') (id : TypeId) (site : MemberSite) :
    WentAlike (model.resolveMember id site) (model'.resolveMember id site) := by
  rw [TypeModel.resolveMember, TypeModel.resolveMember, h.memberLink_eq]
  cases model.memberLink id site with
  | error fault => exact ⟨.error (.same fault), h⟩
  | ok found =>
    cases found with
    | none => exact ⟨.ok rfl, h⟩
    | some link =>
      have hresolve := h.resolveLink link
      simp only
      generalize model.resolveLink link = result at hresolve ⊢
      generalize model'.resolveLink link = result' at hresolve ⊢
      obtain ⟨answer, link', after⟩ := result
      obtain ⟨answer', link'', after'⟩ := result'
      obtain ⟨hanswer, -, hafter⟩ := hresolve
      cases hanswer with
      | ok same =>
        obtain rfl := same
        exact ⟨.ok rfl, hafter.store, hafter.config, hafter.arena.memoize site _ id⟩
      | error faults => exact ⟨.error faults, hafter⟩

/-! ### Histories -/

/-- **Requests that are alike go alike.** -/
theorem ask (h : model.Alike model') {request request' : Request} (alike : request.Alike request') :
    WentAlike (model.ask request) (model'.ask request') := by
  cases alike with
  | usage alike => exact (h.resolveUsage alike).mapSome
  | same =>
    cases request with
    | definition index => exact (h.resolveDefinition index).mapSome
    | usage usage => exact (h.resolveUsage (.refl usage)).mapSome
    | usageIndex index => exact (h.resolveUsageIndex index).mapSome
    | link link =>
      obtain ⟨hanswer, -, hmodel⟩ := h.resolveLink link
      exact ⟨hanswer.map fun _ _ => congrArg some, hmodel⟩
    | member id site => exact h.resolveMember id site

/-- **Histories that are alike go alike, step by step.** -/
theorem askEach (h : model.Alike model') {requests requests' : List Request}
    (alike : List.Forall₂ Request.Alike requests requests') :
    List.Forall₂ (SameOutcome Eq) (model.askEach requests).1 (model'.askEach requests').1 ∧
      (model.askEach requests).2.Alike (model'.askEach requests').2 := by
  induction alike generalizing model model' with
  | nil => exact ⟨.nil, h⟩
  | cons first _ ih =>
    obtain ⟨hanswer, hmodel⟩ := h.ask first
    obtain ⟨hanswers, hlast⟩ := ih hmodel
    exact ⟨.cons hanswer hanswers, hlast⟩

/-- All definitions are asked for alike. -/
theorem resolveEach (h : model.Alike model') (indices : List DefinitionIndex) :
    List.Forall₂ (fun entry entry' => entry'.1 = entry.1 ∧ SameOutcome Eq entry.2 entry'.2)
      (model.resolveEach indices).1 (model'.resolveEach indices).1 := by
  induction indices generalizing model model' with
  | nil => exact .nil
  | cons index rest ih =>
    obtain ⟨hanswer, hmodel⟩ := h.resolveDefinition index
    exact .cons ⟨rfl, hanswer⟩ (ih hmodel)

end Alike

end TypeModel

/-- Two surveys are alike if they list the same types, and failures of the same definitions with
faults that are alike. -/
structure Survey.Alike (survey survey' : Survey) : Prop where
  types : survey'.types = survey.types
  failures : List.Forall₂ (fun failure failure' => failure'.1 = failure.1 ∧
    failure.2.Alike failure'.2) survey.failures survey'.failures

theorem Survey.alike_ofAnswers {answers answers' : List (DefinitionIndex × Except Fault TypeId)}
    (h : List.Forall₂ (fun entry entry' => entry'.1 = entry.1 ∧ SameOutcome Eq entry.2 entry'.2)
      answers answers') : (Survey.ofAnswers answers).Alike (Survey.ofAnswers answers') := by
  induction h with
  | nil => exact ⟨rfl, .nil⟩
  | @cons entry entry' _ _ first _ ih =>
    obtain ⟨index, answer⟩ := entry
    obtain ⟨index', answer'⟩ := entry'
    obtain ⟨rfl, houtcome⟩ := first
    cases houtcome with
    | ok same => exact ⟨congrArg₂ List.cons same.symm ih.types, ih.failures⟩
    | error faults => exact ⟨ih.types, .cons ⟨rfl, faults⟩ ih.failures⟩

namespace TypeModel

/-- Two models cannot be told apart by anything that can be read off them, except by the usages that
entities come from. The links that they resolve remember the same, and their surveys are alike. -/
structure Indistinguishable (model model' : TypeModel) : Prop where
  lookup? (key : TypeKey) : model'.lookup? key = model.lookup? key
  find? (fullName : String) : model'.find? fullName = model.find? fullName
  all : model'.all = model.all
  size : model'.size = model.size
  namespaceName (id : TypeId) : model'.namespaceName id = model.namespaceName id
  name (id : TypeId) : model'.name id = model.name id
  fullName (id : TypeId) : model'.fullName id = model.fullName id
  displayName (id : TypeId) : model'.displayName id = model.displayName id
  get (id : TypeId) :
    (∃ entity entity', model.get id = .ok entity ∧ model'.get id = .ok entity' ∧
      entity.Alike entity') ∨ ∃ fault, model.get id = .error fault ∧ model'.get id = .error fault
  resolveLink (link : TypeLink) : (model'.resolveLink link).2.1 = (model.resolveLink link).2.1
  resolveAll : model.resolveAll.1.Alike model'.resolveAll.1

/-- **Models that are alike cannot be told apart.** -/
theorem Alike.indistinguishable {model model' : TypeModel} (h : model.Alike model') :
    model.Indistinguishable model' where
  lookup? := h.arena.lookup?_eq
  find? := h.arena.find?
  all := h.arena.all_eq
  size := h.arena.size_eq
  namespaceName := congrFun h.arena.namespaceName_eq
  name := by
    rw [TypeModel.name, TypeModel.name, h.config]
    exact congrFun (h.arena.render_eq _ _)
  fullName := by
    rw [TypeModel.fullName, TypeModel.fullName, h.config]
    exact congrFun (h.arena.fullName_eq _)
  displayName := by
    rw [TypeModel.displayName, TypeModel.displayName, h.config]
    exact congrFun (h.arena.render_eq _ _)
  get := h.arena.get_cases
  resolveLink link := (h.resolveLink link).2.1
  resolveAll := by
    rw [TypeModel.resolveAll, TypeModel.resolveAll,
      h.store.eq_of_read Store.definitionIndices fun _ _ => rfl]
    exact Survey.alike_ofAnswers (h.resolveEach _)

/-- **Decoration makes no difference.** Over images that differ in the decoration of usages only,
and under the same configuration, histories that differ in such decoration only have the same
answers, step by step, and the models cannot be told apart after any of the steps. -/
theorem indistinguishable_of_alike {store store' : Store} (stores : store.Alike store')
    (config : Config) {requests requests' : List Request}
    (alike : List.Forall₂ Request.Alike requests requests') :
    List.Forall₂ (SameOutcome Eq) ((TypeModel.new store config).askEach requests).1
        ((TypeModel.new store' config).askEach requests').1 ∧
      ∀ count, ((TypeModel.new store config).askEach (requests.take count)).2.Indistinguishable
        ((TypeModel.new store' config).askEach (requests'.take count)).2 := by
  have hnew : (TypeModel.new store config).Alike (.new store' config) := ⟨stores, rfl, .empty⟩
  refine ⟨(hnew.askEach alike).1, fun count => ?_⟩
  exact (hnew.askEach (List.forall₂_take count alike)).2.indistinguishable

end TypeModel

/-! ### An image with another decoration -/

/-- The image whose types are tangled, in which the operand of the vector is a value type and passed
by reference. -/
def Store.redecorated : Store :=
  Store.tangle.mapRecord ⟨8⟩ (.usage { TypeUsage.valueType ⟨0⟩ with attrs := 7, byRef := true })

theorem Store.alike_redecorated : Store.tangle.Alike .redecorated := by
  have hfound : Store.tangle.mapped[Address.mk 8]? = some (.usage (.definition ⟨0⟩)) := by cbv
  refine .mapRecord hfound ⟨rfl, .inr ⟨⟨.classType, ?_, rfl⟩, ⟨.valueType, ?_, rfl⟩⟩⟩
  · exact ElementKind.ofByte?_byte .classType
  · exact ElementKind.ofByte?_byte .valueType

/-- The first request fails over both images, and the last one asks over one of them for a class and
over the other for a built-in type. Where the operand does not fit, the message shows the kind. -/
theorem TypeModel.indistinguishable_of_alike_tangle :
    ((TypeModel.new .tangle .standard).askEach [.definition ⟨2⟩, .definition ⟨0⟩,
        .usage { data := 0x100000000, kind := 0x12 }]).1 =
        [.error (.indexOutOfRange .string 9 1), .ok (some ⟨6⟩),
          .error (.malformed (.oversizedOperand 0x100000000 0x12))] ∧
      ((TypeModel.new .redecorated .standard).askEach [.definition ⟨2⟩, .definition ⟨0⟩,
        .usage { data := 0x100000000, kind := 0x08, byRef := true }]).1 =
        [.error (.indexOutOfRange .string 9 1), .ok (some ⟨6⟩),
          .error (.malformed (.oversizedOperand 0x100000000 0x08))] ∧
      ((TypeModel.new .tangle .standard).askEach [.definition ⟨2⟩, .definition ⟨0⟩,
        .usage { data := 0x100000000, kind := 0x12 }]).2.Indistinguishable
          ((TypeModel.new .redecorated .standard).askEach [.definition ⟨2⟩, .definition ⟨0⟩,
            .usage { data := 0x100000000, kind := 0x08, byRef := true }]).2 := by
  have hoversized : (TypeUsage.mk 0x100000000 0 0x12 false).Alike
      (TypeUsage.mk 0x100000000 0 0x08 true) :=
    ⟨rfl, .inr ⟨⟨.classType, ElementKind.ofByte?_byte .classType, rfl⟩,
      ⟨.primitive .i4, ElementKind.ofByte?_byte (.primitive .i4), rfl⟩⟩⟩
  refine ⟨by cbv, by cbv, ?_⟩
  exact (indistinguishable_of_alike Store.alike_redecorated .standard
    (.cons (.same _) (.cons (.same _) (.cons (.usage hoversized) .nil)))).2 3

end TypeGraph
