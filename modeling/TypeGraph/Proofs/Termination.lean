import Mathlib
import TypeGraph.Proofs.Growth
import TypeGraph.Proofs.Reachability

/-!
# Every request returns

Nothing in an image keeps records from leading to themselves. Usages are walked without a memory of
where the walk has been, and the stack of waiting definitions grows while it is worked off. What
ends a walk is the count of the composites around it, and what ends the work is that a definition
waits only once.

The loops are written here as they run, without a measure that would have to go down. A walk counts
the composites around it upwards, and `Resolving.walk` unrolls it as often as one likes; what it
would have to do after that is a parameter, and makes no difference once the walk is unrolled as
often as the limit says. Working off the stack is a relation between a transaction and its result,
`Resolving.Completes`, which also lists the definitions that were taken off: it holds of a result
only if the loop gets there after finitely many rounds.

## Main definitions

* `Resolving.walk` — a walk of a usage, unrolled a number of times
* `Resolving.Completes`, `Arena.Runs`, `TypeModel.Runs`, `TypeModel.RunsEach` — runs of the loop, of
  a step as a request, of a request, and of requests for several definitions
* `Store.FillsOnce` — no definition is taken off the stack twice
* `TypeModel.Terminates` — every request returns, within its bounds

## Main results

* `Resolving.walk_eq_usage` — a walk never gets beyond the limit
* `Resolving.Completes.fillsOnce` — the loop takes no definition off the stack twice
* `TypeModel.exists_runs`, `TypeModel.Runs.ask_eq` — a request has a run, which ends with its answer
* `TypeModel.Reachable.terminates` — every request to a reachable model returns
-/

namespace TypeGraph

/-! ### Walks -/

namespace Resolving

variable {store : Store} {limit : Nat}

/-- Resolves a usage around which `depth` composites lie. A composite is entered only while there
are fewer than `limit` around it. The walk is unrolled `levels` times, and then goes on with
`beyond`. -/
def walk (store : Store) (limit : Nat) (beyond : TypeUsage → Composite → Resolving TypeId) :
    (levels depth : Nat) → TypeUsage → Resolving TypeId
  | 0, depth => byShape store fun usage found =>
    if depth < limit then beyond usage found else throw (.recursionLimit limit)
  | levels + 1, depth => byShape store fun usage found =>
    if depth < limit then composite store (walk store limit beyond levels (depth + 1)) usage found
    else throw (.recursionLimit limit)

/-- **A walk never gets beyond the limit.** Counting up to the limit is counting down from it, and
whatever would come beyond is not entered. -/
theorem walk_eq_usage (beyond : TypeUsage → Composite → Resolving TypeId) {levels depth : Nat}
    (room : limit ≤ depth + levels) :
    walk store limit beyond levels depth = usage store limit (limit - depth) := by
  induction levels generalizing depth with
  | zero =>
    have hover : limit ≤ depth := room
    rw [Nat.sub_eq_zero_of_le hover, walk, usage]
    simp only [if_neg (Nat.not_lt.mpr hover)]
  | succ levels ih =>
    rw [walk]
    by_cases hdepth : depth < limit
    · have hlevels : limit - depth = limit - (depth + 1) + 1 := by omega
      rw [hlevels, usage]
      simp only [if_pos hdepth]
      rw [ih (by omega)]
    · rw [Nat.sub_eq_zero_of_le (Nat.not_lt.mp hdepth), usage]
      simp only [if_neg hdepth]

end Resolving

/-! ### No definition is filled twice -/

/-- Definitions are filled at most once each, so that there are no more of them than rows. -/
structure Store.FillsOnce (store : Store) (taken : List Pending) : Prop where
  nodup : (taken.map Pending.index).Nodup
  length_le : taken.length ≤ store.definitions.size

theorem Store.FillsOnce.nil (store : Store) : store.FillsOnce [] := ⟨.nil, Nat.zero_le _⟩

/-- Definitions that have rows and are all different are no more than the rows. -/
theorem Store.FillsOnce.of_nodup {store : Store} {taken : List Pending}
    (rows : ∀ waiting ∈ taken, ∃ row, store.definition waiting.index = .ok row)
    (nodup : (taken.map Pending.index).Nodup) : store.FillsOnce taken := by
  refine ⟨nodup, ?_⟩
  have hinjective : Function.Injective (Index.toNat : DefinitionIndex → Nat) :=
    fun _ _ => Index.eq_of_toNat_eq
  have hsubset : (taken.map Pending.index).map Index.toNat ⊆
      List.range store.definitions.size := by
    intro place mem
    obtain ⟨index, hindex, rfl⟩ := List.mem_map.mp mem
    obtain ⟨waiting, hwaiting, rfl⟩ := List.mem_map.mp hindex
    obtain ⟨row, hrow⟩ := rows waiting hwaiting
    exact List.mem_range.mpr (Store.lt_of_row hrow)
  have hlength := (List.subperm_of_subset (nodup.map hinjective) hsubset).length_le
  simpa using hlength

theorem Arena.lookup?_eq_some_iff {arena : Arena} {key : TypeKey} {id : TypeId} :
    arena.lookup? key = some id ↔
      arena.reserved? key = some id ∧ ∃ entity, arena.entity? id = some entity := by
  rw [lookup?, Option.filter_eq_some_iff, Option.isSome_iff_exists]

/-- What is filled stays filled. -/
theorem Transaction.Grows.lookup? {roots : List TypeId} {before after : Transaction}
    (h : Grows roots before after) {key : TypeKey} {id : TypeId}
    (found : before.arena.lookup? key = some id) : after.arena.lookup? key = some id := by
  obtain ⟨hid, entity, hentity⟩ := Arena.lookup?_eq_some_iff.mp found
  exact Arena.lookup?_eq_some_iff.mpr ⟨h.remembers hid, entity, h.keeps hentity⟩

/-- A definition that waits is not filled yet. -/
theorem Transaction.Sound.lookup?_of_mem_pending {store : Store} {limit : Nat}
    {transaction : Transaction} (sound : transaction.Sound store limit) {waiting : Pending}
    (mem : waiting ∈ transaction.pending) :
    transaction.arena.lookup? (.definition waiting.index) = none := by
  obtain ⟨hid, hempty, -⟩ := sound.waits mem
  rw [Arena.lookup?, hid, Option.filter_some, hempty]
  rfl

namespace Resolving

variable {store : Store} {limit : Nat} {before filled : Transaction} {next : Pending}
  {rest taken : List Pending} {result : EStateM.Result Fault Transaction Unit}

/-- Filling the topmost definition keeps a transaction sound. -/
theorem sound_of_fillTop (sound : before.Sound store limit) (top : before.pending = next :: rest)
    (fill : (fillDefinition store limit next).run { before with pending := rest } =
      .ok () filled) : filled.Sound store limit := by
  have hmirrors := mirrors_fillTop sound top
  rw [fill] at hmirrors
  obtain ⟨-, -, hsteps, -⟩ := hmirrors.exists_of_ok
  exact sound.steps hsteps

/-- The definition that was on top is filled then. -/
theorem lookup?_of_fillTop (sound : before.Sound store limit) (top : before.pending = next :: rest)
    (fill : (fillDefinition store limit next).run { before with pending := rest } =
      .ok () filled) : filled.arena.lookup? (.definition next.index) = some next.id := by
  obtain ⟨hid, -⟩ := sound.waits (top ▸ List.mem_cons_self)
  have hkept := (grows_fillDefinition fill).remembers hid
  obtain ⟨definition, middle, arena, -, hfills, rfl⟩ := exists_fill_of_fillDefinition fill
  refine Arena.lookup?_eq_some_iff.mpr ⟨hkept, next.entity definition, ?_⟩
  rw [Arena.entity?_fill hfills, if_pos rfl]

/-- A definition that is filled does not come up again. -/
theorem Completes.not_mem_of_lookup? (h : Completes store limit before taken result)
    (sound : before.Sound store limit) {index : DefinitionIndex} {id : TypeId}
    (found : before.arena.lookup? (.definition index) = some id) :
    index ∉ taken.map Pending.index := by
  have hnext {before : Transaction} {next : Pending} {rest : List Pending}
      (sound : before.Sound store limit) (top : before.pending = next :: rest)
      (found : before.arena.lookup? (.definition index) = some id) : index ≠ next.index := by
    rintro rfl
    rw [sound.lookup?_of_mem_pending (top ▸ List.mem_cons_self)] at found
    cases found
  induction h with
  | done => exact List.not_mem_nil
  | fails top fill => exact fun mem => hnext sound top found (List.mem_singleton.mp mem)
  | goesOn top fill _ ih =>
    have hlater := (grows_fillDefinition fill).lookup? found
    rw [List.map_cons, List.mem_cons, not_or]
    exact ⟨hnext sound top found, ih (sound_of_fillTop sound top fill) hlater⟩

/-- **The loop takes no definition off the stack twice.** -/
theorem Completes.fillsOnce (h : Completes store limit before taken result)
    (sound : before.Sound store limit) : store.FillsOnce taken := by
  have hrow {before : Transaction} {next : Pending} {rest : List Pending}
      (sound : before.Sound store limit) (top : before.pending = next :: rest) :
      ∃ row, store.definition next.index = .ok row :=
    ⟨_, (sound.waits (top ▸ List.mem_cons_self)).2.2⟩
  refine .of_nodup ?_ ?_
  · induction h with
    | done => exact nofun
    | fails top fill => exact List.forall_mem_singleton.mpr (hrow sound top)
    | goesOn top fill _ ih =>
      exact List.forall_mem_cons.mpr ⟨hrow sound top, ih (sound_of_fillTop sound top fill)⟩
  · induction h with
    | done => exact .nil
    | fails top fill => exact List.nodup_singleton _
    | goesOn top fill then_ ih =>
      have hsound := sound_of_fillTop sound top fill
      have hfilled := lookup?_of_fillTop sound top fill
      exact List.nodup_cons.mpr ⟨then_.not_mem_of_lookup? hsound hfilled, ih hsound⟩

end Resolving

/-! ### Steps as requests -/

namespace Arena

/-- A run of a step as a request: the definitions that are taken off the stack once the step has
been taken, the answer, and the arena after it. -/
inductive Runs {α : Type} (store : Store) (limit : Nat) (step : Resolving α) (arena : Arena) :
    List Pending → Except Fault α × Arena → Prop where
  | refused {fault : Fault} {failed : Transaction}
      (run : step.run { arena } = .error fault failed) :
      Runs store limit step arena [] (.error fault, failed.rollback)
  | breaks {value : α} {reached failed : Transaction} {taken : List Pending} {fault : Fault}
      (run : step.run { arena } = .ok value reached)
      (loop : Resolving.Completes store limit reached taken (.error fault failed)) :
      Runs store limit step arena taken (.error fault, failed.rollback)
  | answers {value : α} {reached after : Transaction} {taken : List Pending}
      (run : step.run { arena } = .ok value reached)
      (loop : Resolving.Completes store limit reached taken (.ok () after)) :
      Runs store limit step arena taken (.ok value, after.arena)

variable {α : Type} {store : Store} {limit : Nat} {step : Resolving α} {arena : Arena}
  {taken : List Pending}

theorem exists_runs (store : Store) (limit : Nat) (step : Resolving α) (arena : Arena) :
    ∃ taken, arena.Runs store limit step taken (arena.request store limit step) := by
  rw [request, EStateM.run_bind]
  cases hstep : step.run { arena } with
  | error fault failed => exact ⟨[], .refused hstep⟩
  | ok value reached =>
    obtain ⟨taken, hloop⟩ := Resolving.exists_completes store limit reached
    simp only [EStateM.run_bind]
    cases hrun : (Resolving.complete store limit).run reached with
    | error fault failed => exact ⟨taken, .breaks hstep (hrun ▸ hloop)⟩
    | ok _ after => exact ⟨taken, .answers hstep (hrun ▸ hloop)⟩

theorem Runs.request_eq {result : Except Fault α × Arena}
    (h : arena.Runs store limit step taken result) : arena.request store limit step = result := by
  rw [request, EStateM.run_bind]
  cases h with
  | refused run => rw [run]
  | breaks run loop =>
    rw [run]
    simp only [EStateM.run_bind, loop.result_eq]
  | answers run loop =>
    rw [run]
    simp only [EStateM.run_bind, loop.result_eq, EStateM.run_pure]

/-- The first step of a request for a usage on a sound arena keeps it sound. -/
theorem Sound.of_run_usage (sound : arena.Sound store limit) {usage : TypeUsage} {id : TypeId}
    {reached : Transaction}
    (run : (Resolving.usage store limit limit usage).run { arena } = .ok id reached) :
    reached.Sound store limit := by
  have hbesides : (Transaction.besides [] { arena }).Sound store limit := sound
  have hmirrors := Resolving.mirrors_usage (Nat.le_refl limit) hbesides usage
  rw [run] at hmirrors
  obtain ⟨-, -, hsteps, -⟩ := hmirrors.exists_of_ok
  exact hbesides.steps hsteps

/-- A request for a usage on a sound arena fills no definition twice. -/
theorem Runs.fillsOnce {usage : TypeUsage} {result : Except Fault TypeId × Arena}
    (h : arena.Runs store limit (Resolving.usage store limit limit usage) taken result)
    (sound : arena.Sound store limit) : store.FillsOnce taken := by
  cases h with
  | refused run => exact .nil store
  | breaks run loop | answers run loop => exact loop.fillsOnce (sound.of_run_usage run)

end Arena

/-! ### Requests -/

namespace TypeModel

/-- A run of a request: the definitions that it takes off the stack, the answer, and the model after
it. -/
inductive Runs (model : TypeModel) :
    Request → List Pending → Except Fault (Option TypeId) × TypeModel → Prop where
  | known {index : DefinitionIndex} {id : TypeId}
      (found : model.lookup? (.definition index) = some id) :
      Runs model (.definition index) [] (.ok (some id), model)
  | definition {index : DefinitionIndex} {taken : List Pending} {answer : Except Fault TypeId}
      {arena : Arena} (unknown : model.lookup? (.definition index) = none)
      (run : model.arena.Runs model.store model.config.maxDepth
        (Resolving.definition model.store index) taken (answer, arena)) :
      Runs model (.definition index) taken (some <$> answer, { model with arena })
  | shapeless {usage : TypeUsage} {fault : Fault} (shape : usage.shape = .error fault) :
      Runs model (.usage usage) [] (.error fault, model)
  | direct {usage : TypeUsage} {index : DefinitionIndex} {taken : List Pending}
      {result : Except Fault (Option TypeId) × TypeModel}
      (shape : usage.shape = .ok (.definition index) ∨
        ∃ kind, usage.shape = .ok (.primitive kind index))
      (run : Runs model (.definition index) taken result) : Runs model (.usage usage) taken result
  | walked {usage : TypeUsage} {taken : List Pending} {answer : Except Fault TypeId} {arena : Arena}
      (shape : (∃ found, usage.shape = .ok (.composite found)) ∨
        ∃ index ofMethod, usage.shape = .ok (.genericParameter index ofMethod))
      (run : model.arena.Runs model.store model.config.maxDepth
        (Resolving.usage model.store model.config.maxDepth model.config.maxDepth usage) taken
        (answer, arena)) :
      Runs model (.usage usage) taken (some <$> answer, { model with arena })
  | unread {index : UsageIndex} {fault : Fault} (read : model.store.usage index = .error fault) :
      Runs model (.usageIndex index) [] (.error fault, model)
  | read {index : UsageIndex} {usage : TypeUsage} {taken : List Pending}
      {result : Except Fault (Option TypeId) × TypeModel}
      (read : model.store.usage index = .ok usage) (run : Runs model (.usage usage) taken result) :
      Runs model (.usageIndex index) taken result
  | remembered {link : TypeLink} {id : TypeId} (resolved : link.resolved = some id) :
      Runs model (.link link) [] (.ok (some id), model)
  | followed {link : TypeLink} {taken : List Pending}
      {result : Except Fault (Option TypeId) × TypeModel} (unresolved : link.resolved = none)
      (run : Runs model (.usageIndex link.usage) taken result) :
      Runs model (.link link) taken result
  | unreadable {id : TypeId} {site : MemberSite} {fault : Fault}
      (found : model.memberLink id site = .error fault) :
      Runs model (.member id site) [] (.error fault, model)
  | absent {id : TypeId} {site : MemberSite} (found : model.memberLink id site = .ok none) :
      Runs model (.member id site) [] (.ok none, model)
  | fails {id : TypeId} {site : MemberSite} {link : TypeLink} {taken : List Pending} {fault : Fault}
      {after : TypeModel} (found : model.memberLink id site = .ok (some link))
      (run : Runs model (.link link) taken (.error fault, after)) :
      Runs model (.member id site) taken (.error fault, after)
  | memoizes {id target : TypeId} {site : MemberSite} {link : TypeLink} {taken : List Pending}
      {after : TypeModel} (found : model.memberLink id site = .ok (some link))
      (run : Runs model (.link link) taken (.ok (some target), after)) :
      Runs model (.member id site) taken (.ok (some target),
        { after with arena := after.arena.modify (TypeEntity.memoize site target) id })

variable {store : Store} {config : Config} {model : TypeModel} {request : Request}
  {taken : List Pending} {result : Except Fault (Option TypeId) × TypeModel}

/-- Every request for a definition has a run, which ends with the answer. -/
theorem exists_runs_definition (model : TypeModel) (index : DefinitionIndex) :
    ∃ taken, model.Runs (.definition index) taken (model.ask (.definition index)) := by
  have hask : model.ask (.definition index) = (some <$> (model.resolveDefinition index).1,
      (model.resolveDefinition index).2) := rfl
  rw [hask, resolveDefinition]
  cases hlookup : model.lookup? (.definition index) with
  | some id => exact ⟨[], .known hlookup⟩
  | none =>
    obtain ⟨taken, hruns⟩ := Arena.exists_runs model.store model.config.maxDepth
      (Resolving.definition model.store index) model.arena
    exact ⟨taken, .definition hlookup hruns⟩

theorem exists_runs_usage (model : TypeModel) (usage : TypeUsage) :
    ∃ taken, model.Runs (.usage usage) taken (model.ask (.usage usage)) := by
  have hask : model.ask (.usage usage) = (some <$> (model.resolveUsage usage).1,
      (model.resolveUsage usage).2) := rfl
  have hwalk := Arena.exists_runs model.store model.config.maxDepth
    (Resolving.usage model.store model.config.maxDepth model.config.maxDepth usage) model.arena
  rw [hask, resolveUsage]
  cases hshape : usage.shape with
  | error fault => exact ⟨[], .shapeless hshape⟩
  | ok shape =>
    cases shape with
    | definition index =>
      obtain ⟨taken, hruns⟩ := exists_runs_definition model index
      exact ⟨taken, .direct (.inl hshape) hruns⟩
    | primitive kind index =>
      obtain ⟨taken, hruns⟩ := exists_runs_definition model index
      exact ⟨taken, .direct (.inr ⟨kind, hshape⟩) hruns⟩
    | composite found =>
      obtain ⟨taken, hruns⟩ := hwalk
      exact ⟨taken, .walked (.inl ⟨found, hshape⟩) hruns⟩
    | genericParameter index ofMethod =>
      obtain ⟨taken, hruns⟩ := hwalk
      exact ⟨taken, .walked (.inr ⟨index, ofMethod, hshape⟩) hruns⟩

theorem exists_runs_usageIndex (model : TypeModel) (index : UsageIndex) :
    ∃ taken, model.Runs (.usageIndex index) taken (model.ask (.usageIndex index)) := by
  have hask : model.ask (.usageIndex index) = (some <$> (model.resolveUsageIndex index).1,
      (model.resolveUsageIndex index).2) := rfl
  rw [hask, resolveUsageIndex]
  cases hread : model.store.usage index with
  | error fault => exact ⟨[], .unread hread⟩
  | ok usage =>
    obtain ⟨taken, hruns⟩ := exists_runs_usage model usage
    exact ⟨taken, .read hread hruns⟩

theorem exists_runs_link (model : TypeModel) (link : TypeLink) :
    ∃ taken, model.Runs (.link link) taken (model.ask (.link link)) := by
  rw [ask_link]
  cases hlink : link.resolved with
  | some id =>
    rw [resolveLink_of_resolved hlink]
    exact ⟨[], .remembered hlink⟩
  | none =>
    obtain ⟨taken, hruns⟩ := exists_runs_usageIndex model link.usage
    rw [answer_resolveLink hlink, model_resolveLink hlink]
    exact ⟨taken, .followed hlink hruns⟩

/-- Every request has a run, which ends with the answer. -/
theorem exists_runs (model : TypeModel) (request : Request) :
    ∃ taken, model.Runs request taken (model.ask request) := by
  cases request with
  | definition index => exact exists_runs_definition model index
  | usage usage => exact exists_runs_usage model usage
  | usageIndex index => exact exists_runs_usageIndex model index
  | link link => exact exists_runs_link model link
  | member id site =>
    rw [ask, resolveMember]
    cases hfound : model.memberLink id site with
    | error fault => exact ⟨[], .unreadable hfound⟩
    | ok found =>
      cases found with
      | none => exact ⟨[], .absent hfound⟩
      | some link =>
        obtain ⟨taken, hruns⟩ := exists_runs_link model link
        rw [ask_link] at hruns
        simp only
        generalize model.resolveLink link = resolved at hruns
        obtain ⟨answer, link', after⟩ := resolved
        cases answer with
        | error fault => exact ⟨taken, .fails hfound hruns⟩
        | ok target => exact ⟨taken, .memoizes hfound hruns⟩

theorem ask_eq_of_resolve_eq (query query' : Query)
    (same : query.resolve model = query'.resolve model) :
    model.ask query.request = model.ask query'.request := by
  rw [ask_request, ask_request, same]

/-- A run of a request ends with the answer. -/
theorem Runs.ask_eq (h : model.Runs request taken result) : model.ask request = result := by
  induction h with
  | known found =>
    rw [ask, resolveDefinition_of_lookup? found]
    rfl
  | definition unknown run =>
    rw [ask, resolveDefinition, unknown, TypeModel.request, run.request_eq]
    rfl
  | shapeless shape =>
    rw [ask, resolveUsage, shape]
    rfl
  | @direct usage index taken result shape run ih =>
    have hsame : model.resolveUsage usage = model.resolveDefinition index := by
      rw [resolveUsage]
      rcases shape with hshape | ⟨kind, hshape⟩ <;> rw [hshape]
    exact (ask_eq_of_resolve_eq (.usage usage) (.definition index) hsame).trans ih
  | walked shape run =>
    rw [ask, resolveUsage]
    rcases shape with ⟨found, hshape⟩ | ⟨index, ofMethod, hshape⟩ <;>
      rw [hshape, TypeModel.request, run.request_eq] <;> rfl
  | unread read =>
    rw [ask, resolveUsageIndex, read]
    rfl
  | @read index usage taken result read run ih =>
    have hsame : model.resolveUsageIndex index = model.resolveUsage usage := by
      rw [resolveUsageIndex, read]
    exact (ask_eq_of_resolve_eq (.usageIndex index) (.usage usage) hsame).trans ih
  | remembered resolved =>
    rw [ask_link, resolveLink_of_resolved resolved]
    rfl
  | followed unresolved run ih =>
    rw [← ih, ask_link, answer_resolveLink unresolved, model_resolveLink unresolved]
    rfl
  | unreadable found => rw [ask, resolveMember, found]
  | absent found => rw [ask, resolveMember, found]
  | @fails id site link taken fault after found run ih
  | @memoizes id target site link taken after found run ih =>
    rw [ask_link] at ih
    rw [ask, resolveMember, found]
    rcases hresolve : model.resolveLink link with ⟨answer, link', after'⟩
    rw [hresolve] at ih
    simp only [hresolve]
    cases answer <;> cases ih
    rfl

/-- A run of a request to a sound model fills no definition twice. -/
theorem Runs.fillsOnce (h : model.Runs request taken result) (sound : model.Sound) :
    model.store.FillsOnce taken := by
  induction h with
  | known | shapeless | unread | remembered | unreadable | absent => exact .nil model.store
  | @definition index taken answer arena unknown run =>
    have hwalk : Resolving.usage model.store model.config.maxDepth model.config.maxDepth
        (.definition index) = Resolving.definition model.store index :=
      usage_eq_definition _ (.inl (TypeUsage.shape_definition index))
    exact Arena.Runs.fillsOnce (hwalk ▸ run) sound
  | walked shape run => exact run.fillsOnce sound
  | direct _ _ ih | read _ _ ih | followed _ _ ih | fails _ _ ih | memoizes _ _ ih => exact ih

/-! ### All definitions -/

/-- A run of requests for several definitions, one after the other, with the definitions that each
of them takes off the stack. -/
inductive RunsEach : TypeModel → List DefinitionIndex → List (List Pending) →
    List (DefinitionIndex × Except Fault TypeId) × TypeModel → Prop where
  | nil {model : TypeModel} : RunsEach model [] [] ([], model)
  | cons {model middle after : TypeModel} {index : DefinitionIndex} {rest : List DefinitionIndex}
      {taken : List Pending} {others : List (List Pending)} {answer : Except Fault TypeId}
      {answers : List (DefinitionIndex × Except Fault TypeId)}
      (first : model.Runs (.definition index) taken (some <$> answer, middle))
      (then_ : RunsEach middle rest others (answers, after)) :
      RunsEach model (index :: rest) (taken :: others) ((index, answer) :: answers, after)

theorem exists_runsEach (model : TypeModel) (indices : List DefinitionIndex) :
    ∃ runs, RunsEach model indices runs (model.resolveEach indices) := by
  induction indices generalizing model with
  | nil => exact ⟨[], .nil⟩
  | cons index rest ih =>
    obtain ⟨taken, hfirst⟩ := exists_runs_definition model index
    obtain ⟨others, hthen⟩ := ih (model.resolveDefinition index).2
    exact ⟨taken :: others, .cons hfirst hthen⟩

theorem RunsEach.fillsOnce {indices : List DefinitionIndex} {runs : List (List Pending)}
    {result : List (DefinitionIndex × Except Fault TypeId) × TypeModel}
    (h : RunsEach model indices runs result) (sound : model.Sound) :
    ∀ taken ∈ runs, model.store.FillsOnce taken := by
  induction h with
  | nil => exact nofun
  | @cons model middle after index rest taken others answer answers first then_ ih =>
    have hmiddle : (model.ask (.definition index)).2 = middle := congrArg Prod.snd first.ask_eq
    have hstore : middle.store = model.store := hmiddle ▸ (sameImage_ask _ model).1
    have hsound : middle.Sound := hmiddle ▸ sound_ask sound _
    exact List.forall_mem_cons.mpr ⟨first.fillsOnce sound, hstore ▸ ih hsound⟩

/-! ### Reachable models -/

/-- Every request to a model returns, within its bounds. -/
structure Terminates (model : TypeModel) : Prop where
  /-- No more composites lie inside each other in a walk than the limit allows, and what is to be
  done beyond makes no difference. -/
  nesting (beyond : TypeUsage → Composite → Resolving TypeId) :
    Resolving.walk model.store model.config.maxDepth beyond model.config.maxDepth 0 =
      Resolving.usage model.store model.config.maxDepth model.config.maxDepth
  /-- Every request has a run, and this run gives the answer. -/
  returns (request : Request) : ∃ taken, model.Runs request taken (model.ask request)
  /-- A run of a request ends with the answer, and fills every definition at most once. -/
  fillsOnce {request : Request} {taken : List Pending}
    {result : Except Fault (Option TypeId) × TypeModel} : model.Runs request taken result →
      model.ask request = result ∧ model.store.FillsOnce taken
  /-- So do the requests for all definitions, one after the other. -/
  returnsAll : ∃ runs answers after,
    RunsEach model model.store.definitionIndices runs (answers, after) ∧
      model.resolveAll = (Survey.ofAnswers answers, after) ∧
      ∀ taken ∈ runs, model.store.FillsOnce taken

/-- **Every request to a reachable model returns**, whatever records of the image lead to
themselves. -/
theorem Reachable.terminates (reachable : Reachable store config model) : model.Terminates := by
  constructor
  case nesting =>
    intro beyond
    exact Resolving.walk_eq_usage beyond (Nat.le_add_left _ _)
  case returns => exact exists_runs model
  case fillsOnce => exact fun h => ⟨h.ask_eq, h.fillsOnce reachable.sound⟩
  case returnsAll =>
    obtain ⟨runs, hruns⟩ := exists_runsEach model model.store.definitionIndices
    exact ⟨runs, _, _, hruns, rfl, hruns.fillsOnce reachable.sound⟩

end TypeModel

/-! ### An image that is tied into knots -/

/-- An image whose first definition derives from an instantiation over itself, and whose second one
from the first. Three usages lead to themselves: a pointer, a vector by way of the argument list of
an instantiation, and an array by way of its descriptor. -/
def Store.knots : Store where
  definitions := #[{ parent := some ⟨0⟩ }, { parent := some ⟨1⟩ }]
  usages := #[⟨1⟩, ⟨5⟩]
  mapped := Std.HashMap.emptyWithCapacity
    |>.insert ⟨1⟩ (.usage (.genericInstance ⟨2⟩)) |>.insert ⟨2⟩ (.genericClass ⟨⟨1⟩, ⟨3⟩⟩)
    |>.insert ⟨3⟩ (.genericInstantiation ⟨1, ⟨4⟩⟩) |>.insert ⟨4⟩ (.argumentList [⟨5⟩])
    |>.insert ⟨5⟩ (.usage (.definition ⟨0⟩)) |>.insert ⟨6⟩ (.usage (.pointer ⟨6⟩))
    |>.insert ⟨7⟩ (.usage (.vector ⟨8⟩)) |>.insert ⟨8⟩ (.usage (.genericInstance ⟨9⟩))
    |>.insert ⟨9⟩ (.genericClass ⟨⟨1⟩, ⟨10⟩⟩) |>.insert ⟨10⟩ (.genericInstantiation ⟨1, ⟨11⟩⟩)
    |>.insert ⟨11⟩ (.argumentList [⟨7⟩]) |>.insert ⟨12⟩ (.usage (.array ⟨13⟩))
    |>.insert ⟨13⟩ (.arrayDescriptor ⟨⟨12⟩, 2, 0, 0⟩)

/-- Questions about an image that is tied into knots. -/
def Store.knotsHistory : List Request :=
  [.definition ⟨0⟩, .usage (.pointer ⟨6⟩), .usage (.vector ⟨8⟩), .usage (.array ⟨13⟩)]

/-- The definitions are resolved, the usages that lead to themselves are refused at the limit, and
every further request returns as well. -/
theorem TypeModel.terminates_knots :
    ((TypeModel.new .knots { maxDepth := 3 }).askEach Store.knotsHistory).1 =
        [.ok (some ⟨0⟩), .error (.recursionLimit 3), .error (.recursionLimit 3),
          .error (.recursionLimit 3)] ∧
      ((TypeModel.new .knots { maxDepth := 3 }).askEach Store.knotsHistory).2.Terminates := by
  refine ⟨by cbv, ?_⟩
  exact Reachable.terminates (reachable_askEach .new Store.knotsHistory)

end TypeGraph
