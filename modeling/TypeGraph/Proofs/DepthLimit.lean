import Mathlib
import TypeGraph.Proofs.LiveSet
import TypeGraph.Proofs.SuccessCondition

/-!
# The limit on nesting

The limit bounds how many composites lie inside each other in one usage. It plays no other part:
a step that does not meet it does what it would do under any higher limit, reservation by
reservation. So a request under a lower limit either is the request under the higher one, or ends by
reporting the lower limit.

Which of the two it is can be told from the image. Every usage that is read, be it the request's own
or that of a parent, starts at the outermost level again. So neither the number of definitions nor
the length of a chain of parents counts, but only the depth of each of these trees.

## Main definitions

* `Resolving.Refines` — a step does what another one does, or meets the limit
* `Store.Fits` — neither a tree nor any parent that it leads to is too deep

## Main results

* `Resolving.refines_usage`, `Resolving.refines_complete` — a lower limit makes no other difference
* `TypeModel.resolve_isOk_iff_fits` — when a request goes well under a lower limit
* `TypeModel.ask_of_lower_limit` — the limit is exact and monotone
-/

namespace TypeGraph

/-! ### Steps under two limits -/

namespace Resolving

/-- A step does what another one does, or ends by reporting the limit. -/
def Refines {α : Type} (limit : Nat) (step step' : Resolving α) : Prop :=
  ∀ before, step.run before = step'.run before ∨
    ∃ after, step.run before = .error (.recursionLimit limit) after

variable {α β : Type} {store : Store} {limit limit' levels levels' : Nat}

theorem Refines.refl (step : Resolving α) : Refines limit step step := fun _ => .inl rfl

theorem refines_throw (step : Resolving α) :
    Refines limit (throw (.recursionLimit limit)) step := fun before => .inr ⟨before, rfl⟩

/-- Steps that refine others can be taken one after the other. -/
theorem Refines.bind {step step' : Resolving α} {next next' : α → Resolving β}
    (first : Refines limit step step')
    (second : ∀ value, Refines limit (next value) (next' value)) :
    Refines limit (step >>= next) (step' >>= next') := by
  intro before
  rw [EStateM.run_bind, EStateM.run_bind]
  rcases first before with hsame | ⟨after, hlimit⟩
  · rw [hsame]
    cases step'.run before with
    | error fault after => exact .inl rfl
    | ok value middle => exact second value middle
  · rw [hlimit]
    exact .inr ⟨after, rfl⟩

/-- What a step is followed by may be refined. -/
theorem Refines.andThen (step : Resolving α) {next next' : α → Resolving β}
    (second : ∀ value, Refines limit (next value) (next' value)) :
    Refines limit (step >>= next) (step >>= next') :=
  Refines.bind (.refl step) second

theorem refines_listMapM {step step' : α → Resolving β}
    (each : ∀ value, Refines limit (step value) (step' value)) (values : List α) :
    Refines limit (values.mapM step) (values.mapM step') := by
  induction values with
  | nil => exact .refl _
  | cons value values ih =>
    rw [List.mapM_cons, List.mapM_cons]
    exact (each value).bind fun _ => ih.bind fun _ => .refl _

theorem refines_optionMapM {step step' : α → Resolving β}
    (each : ∀ value, Refines limit (step value) (step' value)) (value : Option α) :
    Refines limit (value.mapM step) (value.mapM step') := by
  cases value with
  | none => exact .refl _
  | some value => exact (each value).bind fun _ => .refl _

/-! ### Resolution under two limits -/

/-- A composite is refined if its operands are. -/
theorem refines_composite {inner inner' : TypeUsage → Resolving TypeId}
    (each : ∀ usage, Refines limit (inner usage) (inner' usage)) (usage : TypeUsage)
    (found : Composite) :
    Refines limit (composite store inner usage found) (composite store inner' usage found) := by
  have hoperand (address : Address) :
      Refines limit (operand store inner address) (operand store inner' address) :=
    .andThen _ each
  cases found with
  | genericInstance address =>
    exact .andThen _ fun _ => .andThen _ fun _ => .andThen _ fun _ => .andThen _ fun _ =>
      (refines_listMapM hoperand _).bind fun _ => .refl _
  | array address =>
    exact .andThen _ fun _ => .andThen _ fun _ => (hoperand _).bind fun _ => .refl _
  | vector address => exact (hoperand _).bind fun _ => .refl _
  | pointer address => exact (hoperand _).bind fun _ => .refl _

theorem refines_byShape {nested nested' : TypeUsage → Composite → Resolving TypeId}
    (each : ∀ usage found, Refines limit (nested usage found) (nested' usage found))
    (usage : TypeUsage) :
    Refines limit (byShape store nested usage) (byShape store nested' usage) := by
  refine .andThen _ fun shape => ?_
  cases shape with
  | composite found => exact each usage found
  | _ => exact .refl _

/-- **Fewer levels make no difference to a usage** unless it nests deeper. -/
theorem refines_usage (fewer : levels ≤ levels') (found : TypeUsage) :
    Refines limit (usage store limit levels found) (usage store limit' levels' found) := by
  induction levels generalizing levels' found with
  | zero =>
    -- whatever the other step does with a composite, this one reports the limit
    have hbyShape (nested : TypeUsage → Composite → Resolving TypeId) :
        Refines limit (usage store limit 0 found) (byShape store nested found) :=
      refines_byShape (fun _ _ => refines_throw _) found
    cases levels' with
    | zero => exact hbyShape _
    | succ levels' => exact hbyShape _
  | succ levels ih =>
    cases levels' with
    | zero => exact absurd fewer (Nat.not_succ_le_zero _)
    | succ levels' =>
      exact refines_byShape (refines_composite (ih (Nat.le_of_succ_le_succ fewer))) found

theorem refines_base (lower : limit ≤ limit') (row : TypeDefinition) :
    Refines limit (base store limit row) (base store limit' row) :=
  refines_optionMapM (fun _ => .andThen _ (refines_usage lower)) _

theorem refines_fillDefinition (lower : limit ≤ limit') (waiting : Pending) :
    Refines limit (fillDefinition store limit waiting) (fillDefinition store limit' waiting) :=
  .andThen _ fun _ => .andThen _ fun _ => (refines_base lower _).bind fun _ => .refl _

/-- **A lower limit makes no difference to the work that is left behind** unless it is met. -/
theorem refines_complete (lower : limit ≤ limit') :
    Refines limit (complete store limit) (complete store limit') := by
  intro before
  obtain ⟨taken, hruns⟩ := exists_completes store limit before
  generalize (complete store limit).run before = result at hruns
  induction hruns with
  | done idle => exact .inl (complete_of_pending_nil idle).symm
  | @fails before failed next rest fault top fill =>
    have hfill : Refines limit (fillDefinition store limit next)
        (fillDefinition store limit' next) := refines_fillDefinition lower next
    rcases hfill { before with pending := rest } with hsame | ⟨after, hlimit⟩
    · left
      rw [complete_of_pending_cons top, EStateM.run_bind, ← hsame, fill]
    · rw [fill] at hlimit
      exact .inr ⟨failed, by rw [(EStateM.Result.error.inj hlimit).1]⟩
  | @goesOn before filled next rest taken result top fill _ ih =>
    have hfill : Refines limit (fillDefinition store limit next)
        (fillDefinition store limit' next) := refines_fillDefinition lower next
    rcases hfill { before with pending := rest } with hsame | ⟨after, hlimit⟩
    · rw [complete_of_pending_cons top, EStateM.run_bind, ← hsame, fill]
      exact ih
    · rw [fill] at hlimit
      cases hlimit

end Resolving

/-- **A request under a lower limit is the request under the higher one**, or reports the limit. -/
theorem Arena.request_of_refines {store : Store} {limit limit' : Nat}
    {step step' : Resolving TypeId} (lower : limit ≤ limit')
    (refines : Resolving.Refines limit step step') (arena : Arena) :
    arena.request store limit step = arena.request store limit' step' ∨
      (arena.request store limit step).1 = .error (.recursionLimit limit) := by
  have hrequest : Resolving.Refines limit
      (do let value ← step; Resolving.complete store limit; return value)
      (do let value ← step'; Resolving.complete store limit'; return value) :=
    refines.bind fun value => (Resolving.refines_complete lower).bind fun _ => .refl _
  rcases hrequest { arena } with hsame | ⟨after, hlimit⟩
  · left
    rw [request, request, hsame]
  · right
    rw [request, hlimit]

/-! ### Trees that fit -/

namespace Store

/-- A definition derives from a tree if the usage denotes it that the definition names as its
parent. -/
def DerivesFrom (store : Store) (index : DefinitionIndex) (parent : TypeTree) : Prop :=
  ∃ row position usage, store.definition index = .ok row ∧ row.parent = some position ∧
    store.usage position = .ok usage ∧ Denotes store usage parent

/-- A tree fits under a limit if it is no deeper, nor is any tree that one of the definitions
derives from which the tree leads to. -/
structure Fits (store : Store) (limit : Nat) (tree : TypeTree) : Prop where
  own : tree.depth ≤ limit
  parents {index other : DefinitionIndex} {parent : TypeTree} : index ∈ tree.definitions →
    store.LeadsTo index other → store.DerivesFrom other parent → parent.depth ≤ limit

variable {store : Store} {limit limit' : Nat} {index : DefinitionIndex}

/-- The parent of a locally sound definition is not too deep. -/
theorem LocallySound.depth_le (h : store.LocallySound limit index) {parent : TypeTree}
    (derives : store.DerivesFrom index parent) : parent.depth ≤ limit := by
  obtain ⟨row, hrow, -, -, hparent, -⟩ := h
  obtain ⟨row', position, usage, hrow', hposition, husage, hdenotes⟩ := derives
  obtain rfl := Except.ok.inj (hrow.symm.trans hrow')
  obtain ⟨usage', tree, husage', hdenotes', hdepth⟩ := hparent position hposition
  obtain rfl := Except.ok.inj (husage.symm.trans husage')
  rwa [hdenotes.unique hdenotes']

/-- A definition that is locally sound under one limit is so under any other that its parent does
not exceed. -/
theorem LocallySound.of_depth_le (h : store.LocallySound limit' index)
    (shallow : ∀ parent, store.DerivesFrom index parent → parent.depth ≤ limit) :
    store.LocallySound limit index := by
  obtain ⟨row, hrow, hnamespaceName, hname, hparent, hmembers⟩ := h
  refine ⟨row, hrow, hnamespaceName, hname, fun position hposition => ?_, hmembers⟩
  obtain ⟨usage, tree, husage, hdenotes, -⟩ := hparent position hposition
  exact ⟨usage, tree, husage, hdenotes,
    shallow tree ⟨row, position, usage, hrow, hposition, husage, hdenotes⟩⟩

/-- Where parents are plain definitions, a definition fits under every limit, however long the
chains of parents are. -/
theorem fits_of_plain (plain : ∀ other parent, store.LeadsTo index other →
      store.DerivesFrom other parent → ∃ base, parent = .definition base) :
    store.Fits limit (.definition index) where
  own := Nat.zero_le _
  parents hindex leads derives := by
    obtain rfl := List.mem_singleton.mp hindex
    obtain ⟨base, rfl⟩ := plain _ _ leads derives
    exact Nat.zero_le _

end Store

/-- The tree that a question asks for is read if it is not too deep. -/
theorem Query.readTree_eq_ok_iff {store : Store} {limit : Nat} {query : Query} {tree : TypeTree} :
    query.readTree store limit = .ok tree ↔
      (∃ usage, query.asked store = .ok usage ∧ TypeGraph.Denotes store usage tree) ∧
        tree.depth ≤ limit := by
  rw [readTree, bind_eq_ok_iff]
  simp only [Store.readTree_eq_ok_iff, ← and_assoc, exists_and_right]

/-! ### New models under two limits -/

namespace TypeModel

variable {store : Store} {config config' : Config} {query : Query} {tree : TypeTree} {id : TypeId}

/-- **A question under a lower limit is the question under the higher one**, or reports the
limit. -/
theorem resolve_of_lower_limit (lower : config'.maxDepth ≤ config.maxDepth) (query : Query) :
    query.resolve (.new store config') = ((query.resolve (.new store config)).1,
        { (query.resolve (.new store config)).2 with config := config' }) ∨
      (query.resolve (.new store config')).1 = .error (.recursionLimit config'.maxDepth) := by
  have hanswer : (TypeModel.new store config').answer query =
        (TypeModel.new store config).answer query ∨
      ((TypeModel.new store config').answer query).1 =
        .error (.recursionLimit config'.maxDepth) := by
    cases hasked : query.asked store with
    | ok usage =>
      rw [answer_of_asked (sound_new store config') hasked,
        answer_of_asked (sound_new store config) hasked]
      exact Arena.request_of_refines lower (Resolving.refines_usage lower usage) .empty
    | error fault =>
      -- a row of the usage table that cannot be read is refused before anything is resolved
      cases query with
      | usageIndex index =>
        have hfails (config : Config) : (Query.usageIndex index).resolve (.new store config) =
            (.error fault, .new store config) := by
          have hstore : (TypeModel.new store config).store.usage index = .error fault := hasked
          rw [Query.resolve, resolveUsageIndex, hstore]
        left
        rw [answer, answer, hfails, hfails]
        rfl
      | _ => cases hasked
  rcases hanswer with hsame | hlimit
  · obtain ⟨hfst, hsnd⟩ := Prod.mk.inj hsame
    left
    rw [resolve_eq query (.new store config'), hfst, hsnd, resolve_eq query (.new store config)]
    rfl
  · exact .inr hlimit

/-- **When a question goes well under another limit**, if it goes well under one. -/
theorem resolve_isOk_iff_fits (answered : (query.resolve (.new store config)).1 = .ok id)
    (denotes : query.Denotes store tree) :
    (∃ id', (query.resolve (.new store config')).1 = .ok id') ↔
      store.Fits config'.maxDepth tree := by
  obtain ⟨tree', hread, hsound⟩ := locallySound_of_resolve_eq_ok (sound_new store config) answered
  obtain rfl := (Query.denotes_of_readTree hread).unique denotes
  obtain ⟨hdenotes, -⟩ := Query.readTree_eq_ok_iff.mp hread
  constructor
  · rintro ⟨id', answered'⟩
    obtain ⟨tree, hread', hsound'⟩ :=
      locallySound_of_resolve_eq_ok (sound_new store config') answered'
    obtain rfl := (Query.denotes_of_readTree hread').unique denotes
    exact ⟨(Query.readTree_eq_ok_iff.mp hread').2, fun hindex hleads =>
      (hsound' _ hindex _ hleads).depth_le⟩
  · intro hfits
    refine (resolve_isOk_iff (sound_new store config') query).mpr
      ⟨tree', Query.readTree_eq_ok_iff.mpr ⟨hdenotes, hfits.own⟩, ?_⟩
    intro index hindex other hleads
    exact (hsound index hindex other hleads).of_depth_le fun parent => hfits.parents hindex hleads

/-- A request that a new model answers comes down to a question, unless it is for a link that
remembers a type of another model. -/
theorem exists_query_of_ask_new {request : Request}
    (plain : ∀ link, request = .link link → link.resolved = none)
    (answered : ((TypeModel.new store config).ask request).1 = .ok (some id)) :
    ∃ query, (TypeModel.new store config).query? request = some query ∧
      ∀ config, (TypeModel.new store config).ask request =
        (some <$> (query.resolve (.new store config)).1,
          (query.resolve (.new store config)).2) := by
  cases request with
  | definition index => exact ⟨.definition index, rfl, fun _ => ask_request (.definition index) _⟩
  | usage found => exact ⟨.usage found, rfl, fun _ => ask_request (.usage found) _⟩
  | usageIndex index => exact ⟨.usageIndex index, rfl, fun _ => ask_request (.usageIndex index) _⟩
  | link link =>
    refine ⟨.usageIndex link.usage, rfl, fun config => ?_⟩
    rw [ask_link, answer_resolveLink (plain link rfl), model_resolveLink (plain link rfl)]
  | member holder site => cases answered

/-- What becomes of a request of a new model under another limit. -/
structure LimitDecides (store : Store) (config config' : Config) (request : Request)
    (tree : TypeTree) (id : TypeId) : Prop where
  /-- If the tree fits, the answer is the same, and so is the arena with all its types. -/
  succeeds : store.Fits config'.maxDepth tree → (TypeModel.new store config').ask request =
    (.ok (some id), { ((TypeModel.new store config).ask request).2 with config := config' })
  /-- If it does not, the limit is reported, and nothing else. -/
  fails : ¬ store.Fits config'.maxDepth tree →
    ((TypeModel.new store config').ask request).1 = .error (.recursionLimit config'.maxDepth)
  /-- Where all parents are plain definitions, a definition is resolved under every limit. -/
  plain {index : DefinitionIndex} : tree = .definition index →
    (∀ other parent, store.LeadsTo index other → store.DerivesFrom other parent →
      ∃ base, parent = .definition base) →
    ((TypeModel.new store config').ask request).1 = .ok (some id)

/-- **The limit on nesting is exact and monotone.** Under a lower limit, a request that goes well
does so again if neither its tree nor any parent that the tree leads to is deeper than the limit.
Otherwise the limit is what it reports. -/
theorem ask_of_lower_limit {request : Request}
    (plain : ∀ link, request = .link link → link.resolved = none)
    (lower : config'.maxDepth ≤ config.maxDepth)
    (answered : ((TypeModel.new store config).ask request).1 = .ok (some id)) :
    ∃ tree, (∀ other, (TypeModel.new store config).AsksFor request other ↔ other = tree) ∧
      LimitDecides store config config' request tree id := by
  obtain ⟨query, hquery, hask⟩ := exists_query_of_ask_new plain answered
  rw [hask] at answered
  obtain ⟨id', hanswer, hid⟩ := map_eq_ok_iff.mp answered
  obtain rfl := Option.some.inj hid
  obtain ⟨tree, hread, -⟩ := locallySound_of_resolve_eq_ok (sound_new store config) hanswer
  have hdenotes : query.Denotes store tree := Query.denotes_of_readTree hread
  have hasks : (TypeModel.new store config).AsksFor request tree := ⟨query, hquery, hdenotes⟩
  have hsucceeds (hfits : store.Fits config'.maxDepth tree) :
      (TypeModel.new store config').ask request = (.ok (some id'),
        { ((TypeModel.new store config).ask request).2 with config := config' }) := by
    obtain ⟨id'', hanswer'⟩ := (resolve_isOk_iff_fits hanswer hdenotes).mpr hfits
    rw [hask, hask]
    rcases resolve_of_lower_limit lower query with hsame | hlimit
    · rw [hsame, hanswer]
      rfl
    · rw [hanswer'] at hlimit
      cases hlimit
  refine ⟨tree, fun other => ⟨fun h => h.unique hasks, fun h => h ▸ hasks⟩, hsucceeds, ?_, ?_⟩
  · intro hdeep
    rw [hask]
    rcases resolve_of_lower_limit lower query with hsame | hlimit
    · -- the same answer would mean that the tree fits
      rw [hanswer] at hsame
      exact absurd ((resolve_isOk_iff_fits hanswer hdenotes).mp ⟨id', by rw [hsame]⟩) hdeep
    · rw [hlimit]
      rfl
  · rintro index rfl hplain
    rw [hsucceeds (Store.fits_of_plain hplain)]

end TypeModel

/-- In an image in which a definition derives from a vector of another one, and that one from the
first, one level of nesting is enough for both of them, and none is too few. -/
theorem TypeModel.ask_of_lower_limit_cycle :
    ((TypeModel.new .cycle .standard).ask (.definition ⟨1⟩)).1 = .ok (some ⟨0⟩) ∧
      ((TypeModel.new .cycle { maxDepth := 1 }).ask (.definition ⟨1⟩)).1 = .ok (some ⟨0⟩) ∧
      ((TypeModel.new .cycle { maxDepth := 0 }).ask (.definition ⟨1⟩)).1 =
        .error (.recursionLimit 0) ∧
      ∃ tree, (∀ other, (TypeModel.new .cycle .standard).AsksFor (.definition ⟨1⟩) other ↔
          other = tree) ∧
        LimitDecides .cycle .standard { maxDepth := 0 } (.definition ⟨1⟩) tree ⟨0⟩ := by
  have hanswer : ((TypeModel.new .cycle .standard).ask (.definition ⟨1⟩)).1 = .ok (some ⟨0⟩) := by
    cbv
  refine ⟨hanswer, by cbv, by cbv, ask_of_lower_limit (fun link same => ?_) (Nat.zero_le _) hanswer⟩
  cases same

end TypeGraph
