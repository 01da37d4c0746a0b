import TypeGraph.Model.History
import TypeGraph.Proofs.Completion

/-!
# Questions for one type

Whatever a model is asked, it looks its answer up first and may skip a request altogether. In a
sound model this makes no difference: the shortcut is taken exactly where the request would find its
answer without reserving anything. So every question for a type, be it by definition, by usage or by
row of the usage table, is a request for a usage, and `Arena.exists_answers` says what becomes of
it.

## Main definitions

* `Query` — a question for one type, with `Query.resolve` and `Query.Denotes`
* `TypeModel.Sound` — a model whose arena is sound

## Main results

* `TypeModel.resolveUsage_eq_request` — the shortcut of a lookup makes no difference
* `TypeModel.exists_answers` — a question for a type comes to an end, and is answered accordingly
* `TypeModel.exists_of_resolve_eq_ok`, `TypeModel.exists_of_resolve_eq_error` — what a model is like
  after a question
-/

namespace TypeGraph

/-! ### Questions for one type -/

/-- A question for one type. -/
inductive Query where
  | definition (index : DefinitionIndex)
  | usage (usage : TypeUsage)
  | usageIndex (index : UsageIndex)
  deriving DecidableEq, Repr

namespace Query

variable {store : Store} {limit : Nat} {tree : TypeTree}

/-- A question for one type, as a request. -/
def request : Query → Request
  | .definition index => .definition index
  | .usage found => .usage found
  | .usageIndex index => .usageIndex index

/-- Asks a model for one type. -/
def resolve : Query → TypeModel → Except Fault TypeId × TypeModel
  | .definition index => TypeModel.resolveDefinition index
  | .usage found => TypeModel.resolveUsage found
  | .usageIndex index => TypeModel.resolveUsageIndex index

/-- The usage that is asked for. A definition is asked for as a usage of it would. -/
def asked (store : Store) : Query → Except Fault TypeUsage
  | .definition index => .ok (.definition index)
  | .usage found => .ok found
  | .usageIndex index => store.usage index

/-- The tree of the type that is asked for. -/
def Denotes (store : Store) : Query → TypeTree → Prop
  | .definition index, tree => tree = .definition index
  | .usage found, tree => TypeGraph.Denotes store found tree
  | .usageIndex index, tree =>
    ∃ found, store.usage index = .ok found ∧ TypeGraph.Denotes store found tree

/-- Reads the tree of the type that is asked for. -/
def readTree (store : Store) (limit : Nat) (query : Query) : Except Fault TypeTree := do
  store.readTree limit limit (← query.asked store)

end Query

/-- The operand of a usage that was made from a row is that row. -/
@[simp] theorem TypeUsage.operandIndex_ofIndex {table : Table} (kind : UInt8)
    (index : Index table) : (TypeUsage.ofIndex kind index).operandIndex = .ok index := by
  have hbound : index.value.toNat < UInt32.size := index.value.toNat_lt_size
  simp [operandIndex, ofIndex, hbound]

/-- A usage of a definition stands for it. -/
theorem TypeUsage.shape_definition (index : DefinitionIndex) :
    (TypeUsage.definition index).shape = .ok (.definition index) := by
  have hkind : ElementKind.ofByte? (TypeUsage.definition index).kind = some .classType :=
    ElementKind.ofByte?_byte .classType
  rw [shape, hkind, TypeUsage.definition, operandIndex_ofIndex]
  rfl

/-- A usage of a definition denotes it, if its row exists, and denotes nothing else. -/
theorem denotes_definition_iff {store : Store} {index : DefinitionIndex} {tree : TypeTree} :
    Denotes store (.definition index) tree ↔
      (∃ row, store.definition index = .ok row) ∧ tree = .definition index := by
  have hshape := TypeUsage.shape_definition index
  constructor
  · intro h
    cases h <;> simp_all
  · rintro ⟨⟨row, hrow⟩, rfl⟩
    exact .definition hshape hrow

/-- A question asks for at most one type. -/
theorem Query.Denotes.unique {store : Store} {query : Query} {tree tree' : TypeTree}
    (h : query.Denotes store tree) (h' : query.Denotes store tree') : tree = tree' := by
  cases query with
  | definition index => exact Eq.trans h (Eq.symm h')
  | usage found => exact TypeGraph.Denotes.unique h h'
  | usageIndex index =>
    obtain ⟨found, hfound, hdenotes⟩ := h
    obtain ⟨found', hfound', hdenotes'⟩ := h'
    obtain rfl := Except.ok.inj (hfound.symm.trans hfound')
    exact hdenotes.unique hdenotes'

/-- What is read for a question is what it asks for. -/
theorem Query.denotes_of_readTree {store : Store} {limit : Nat} {query : Query} {tree : TypeTree}
    (read : query.readTree store limit = .ok tree) : query.Denotes store tree := by
  obtain ⟨usage, hasked, hread⟩ := bind_eq_ok_iff.mp read
  obtain ⟨hdenotes, -⟩ := Store.readTree_eq_ok_iff.mp hread
  cases query with
  | definition index =>
    obtain rfl := Except.ok.inj hasked
    exact (denotes_definition_iff.mp hdenotes).2
  | usage found =>
    obtain rfl := Except.ok.inj hasked
    exact hdenotes
  | usageIndex index => exact ⟨usage, hasked, hdenotes⟩

/-! ### Shortcuts -/

namespace TypeModel

variable {model : TypeModel} {store : Store} {limit levels : Nat} {usage : TypeUsage}
  {index : DefinitionIndex}

/-- A model is sound if its arena is. -/
abbrev Sound (model : TypeModel) : Prop := model.arena.Sound model.store model.config.maxDepth

/-- A definition that is resolved is found without being asked for. -/
theorem resolveDefinition_eq_request (sound : model.Sound) (index : DefinitionIndex) :
    model.resolveDefinition index = model.request (Resolving.definition model.store index) := by
  rw [resolveDefinition, lookup?, sound.lookup?_eq]
  cases hid : model.arena.reserved? (.definition index) with
  | none => rfl
  | some id =>
    -- the request finds the definition reserved, and nothing is left waiting
    have hrun : (Resolving.definition model.store index).run { arena := model.arena } =
        .ok id { arena := model.arena } := Resolving.run_definition_of_reserved hid
    have hidle : (Resolving.complete model.store model.config.maxDepth).run
        { arena := model.arena } = .ok () { arena := model.arena } :=
      Resolving.complete_of_pending_nil rfl
    have hrequest : model.arena.request model.store model.config.maxDepth
        (Resolving.definition model.store index) = (.ok id, model.arena) := by
      rw [Arena.request, EStateM.run_bind, hrun]
      simp only [EStateM.run_bind, hidle, EStateM.run_pure]
    rw [request, hrequest]

theorem usage_eq_definition (levels : Nat)
    (shape : usage.shape = .ok (.definition index) ∨
      ∃ kind, usage.shape = .ok (.primitive kind index)) :
    Resolving.usage store limit levels usage = Resolving.definition store index := by
  rcases shape with hshape | ⟨kind, hshape⟩ <;> cases levels <;>
    rw [Resolving.usage, Resolving.byShape, hshape] <;> rfl

theorem run_usage_of_error {fault : Fault} (shape : usage.shape = .error fault)
    (transaction : Transaction) :
    (Resolving.usage store limit levels usage).run transaction = .error fault transaction := by
  cases levels <;> rw [Resolving.usage, Resolving.byShape, shape] <;> rfl

/-- Asking for a usage is a request for it, whatever its shape. -/
theorem resolveUsage_eq_request (sound : model.Sound) (usage : TypeUsage) :
    model.resolveUsage usage =
      model.request
        (Resolving.usage model.store model.config.maxDepth model.config.maxDepth usage) := by
  rw [resolveUsage]
  cases hshape : usage.shape with
  | error fault =>
    rw [request, Arena.request, EStateM.run_bind, run_usage_of_error hshape]
    rfl
  | ok shape =>
    cases shape with
    | definition index =>
      rw [usage_eq_definition _ (.inl hshape)]
      exact resolveDefinition_eq_request sound index
    | primitive kind index =>
      rw [usage_eq_definition _ (.inr ⟨kind, hshape⟩)]
      exact resolveDefinition_eq_request sound index
    | composite found => rfl
    | genericParameter index ofMethod => rfl

/-- The answer to a question for one type, and the arena after it. -/
def answer (query : Query) (model : TypeModel) : Except Fault TypeId × Arena :=
  ((query.resolve model).1, (query.resolve model).2.arena)

theorem answer_of_asked {query : Query} (sound : model.Sound)
    (asked : query.asked model.store = .ok usage) :
    model.answer query = model.arena.request model.store model.config.maxDepth
      (Resolving.usage model.store model.config.maxDepth model.config.maxDepth usage) := by
  have hresolve : query.resolve model =
      model.request
        (Resolving.usage model.store model.config.maxDepth model.config.maxDepth usage) := by
    cases query with
    | definition index =>
      obtain rfl := Except.ok.inj asked
      rw [usage_eq_definition _ (.inl (TypeUsage.shape_definition index))]
      exact resolveDefinition_eq_request sound index
    | usage found =>
      obtain rfl := Except.ok.inj asked
      exact resolveUsage_eq_request sound found
    | usageIndex index =>
      have hindex : model.resolveUsageIndex index = model.resolveUsage usage := by
        rw [resolveUsageIndex, show model.store.usage index = .ok usage from asked]
      exact hindex.trans (resolveUsage_eq_request sound usage)
  rw [answer, hresolve]
  rfl

/-- **A question for one type comes to an end, and is answered accordingly.** -/
theorem exists_answers (sound : model.Sound) (query : Query) :
    ∃ result, Ends model.store model.config.maxDepth model.arena.knows
        (query.readTree model.store model.config.maxDepth) result ∧
      model.arena.Answers model.store model.config.maxDepth result (model.answer query) := by
  cases hasked : query.asked model.store with
  | error fault =>
    have hread : query.readTree model.store model.config.maxDepth = .error fault := by
      rw [Query.readTree, hasked]
      rfl
    have hanswer : model.answer query =
        (.error fault, Transaction.rollback { arena := model.arena }) := by
      cases query with
      | definition index => cases hasked
      | usage found => cases hasked
      | usageIndex index =>
        rw [answer, Query.resolve, resolveUsageIndex, show model.store.usage index = _ from hasked]
        rfl
    rw [hread, hanswer]
    exact ⟨_, .fails, .error .refl⟩
  | ok usage =>
    have hread : query.readTree model.store model.config.maxDepth =
        model.store.readTree model.config.maxDepth model.config.maxDepth usage := by
      rw [Query.readTree, hasked]
      rfl
    rw [hread, answer_of_asked sound hasked]
    exact Arena.exists_answers sound usage

/-- A question that is answered is answered with the handle of its tree, by a request that went
through. -/
theorem exists_of_resolve_eq_ok (sound : model.Sound) {query : Query} {id : TypeId}
    (answered : (query.resolve model).1 = .ok id) :
    ∃ tree after, query.readTree model.store model.config.maxDepth = .ok tree ∧
      Transaction.Steps model.store model.config.maxDepth { arena := model.arena } after ∧
      after.pending = [] ∧ after.arena.idOf tree = some id ∧
      (query.resolve model).2.arena = after.arena := by
  obtain ⟨result, hends, hanswers⟩ := exists_answers sound query
  generalize hanswer : model.answer query = answer at hanswers
  obtain ⟨hfst, hsnd⟩ := Prod.mk.inj hanswer
  rw [answered] at hfst
  cases hanswers with
  | ok steps idle found =>
    obtain rfl := Except.ok.inj hfst
    exact ⟨_, _, hends.of_ok.1, steps, idle, found, hsnd⟩
  | error steps => cases hfst

/-- A question that fails is rolled back. -/
theorem exists_of_resolve_eq_error (sound : model.Sound) {query : Query} {fault : Fault}
    (answered : (query.resolve model).1 = .error fault) :
    ∃ after, Transaction.Steps model.store model.config.maxDepth { arena := model.arena } after ∧
      (query.resolve model).2.arena = after.rollback := by
  obtain ⟨result, hends, hanswers⟩ := exists_answers sound query
  generalize hanswer : model.answer query = answer at hanswers
  obtain ⟨hfst, hsnd⟩ := Prod.mk.inj hanswer
  rw [answered] at hfst
  cases hanswers with
  | ok steps idle found => cases hfst
  | error steps => exact ⟨_, steps, hsnd⟩

/-! ### Questions as requests -/

theorem ask_request (query : Query) (model : TypeModel) :
    model.ask query.request = (some <$> (query.resolve model).1, (query.resolve model).2) := by
  cases query <;> rfl

theorem sameImage_resolve (query : Query) (model : TypeModel) :
    SameImage model (query.resolve model).2 := by
  have hask := sameImage_ask query.request model
  rwa [ask_request] at hask

/-- A question changes the arena of a model and nothing else. -/
theorem resolve_eq (query : Query) (model : TypeModel) :
    query.resolve model =
      ((query.resolve model).1, { model with arena := (query.resolve model).2.arena }) := by
  obtain ⟨hstore, hconfig⟩ := sameImage_resolve query model
  generalize query.resolve model = result at hstore hconfig ⊢
  obtain ⟨answer, ⟨store, config, arena⟩⟩ := result
  obtain rfl : store = model.store := hstore
  obtain rfl : config = model.config := hconfig
  rfl

theorem Reachable.resolve {store : Store} {config : Config} (h : Reachable store config model)
    (query : Query) : Reachable store config (query.resolve model).2 := by
  have hask := h.ask query.request
  rwa [ask_request] at hask

theorem ask_link (link : TypeLink) (model : TypeModel) :
    model.ask (.link link) = (some <$> (model.resolveLink link).1, (model.resolveLink link).2.2) :=
  rfl

end TypeModel

end TypeGraph
