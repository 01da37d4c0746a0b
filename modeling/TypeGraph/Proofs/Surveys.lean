import Mathlib
import TypeGraph.Proofs.RequestOrder
import TypeGraph.Proofs.SuccessCondition

/-!
# Surveys

To ask for all definitions of an image is to ask for one after the other. Each is a request of its
own: where one fails, everything that it dragged in is withdrawn, sound definitions among it, and
those are resolved again when it is their turn, or were resolved before and stay.

So a row fails in a survey exactly if it fails by itself, in a new model, and with the same fault.
What was resolved can be looked up afterwards, and what failed cannot. A second survey finds all of
the former and fails at all of the latter, so it reports the same and leaves the model as it is.

## Main definitions

* `TypeModel.Reports` — what is reported of one definition agrees with a new model
* `TypeModel.Surveyed` — what a survey reports of all definitions, and of the model after it

## Main results

* `TypeModel.Reachable.resolveDefinition_cases` — a definition fails as it does in a new model
* `TypeModel.Reachable.reports` — what is reported of each of several definitions, in any order
* `TypeModel.Reachable.restored_resolveEach` — asking again changes nothing
* `TypeModel.Reachable.surveyed` — a survey is complete, independent of the order, and idempotent
-/

namespace TypeGraph

/-! ### Rows -/

/-- If there are handles for all rows of the definition table, each is listed once, in order. -/
theorem Store.toNat_definitionIndices {store : Store}
    (bound : store.definitions.size < UInt32.size) :
    store.definitionIndices.map Index.toNat = List.range store.definitions.size := by
  have hmin : min store.definitions.size (UInt32.size - 1) = store.definitions.size := by omega
  have hsame : ∀ row ∈ List.range store.definitions.size,
      (Index.ofNatClamp row : DefinitionIndex).toNat = row :=
    fun row hrow => Index.toNat_ofNatClamp (Nat.lt_trans (List.mem_range.mp hrow) bound)
  rw [definitionIndices, hmin, List.map_map]
  exact (List.map_congr_left hsame).trans (List.map_id _)

theorem Store.mem_definitionIndices {store : Store} (bound : store.definitions.size < UInt32.size)
    {index : DefinitionIndex} :
    index ∈ store.definitionIndices ↔ index.toNat < store.definitions.size := by
  have hinjective : Function.Injective (Index.toNat : DefinitionIndex → Nat) :=
    fun _ _ => Index.eq_of_toNat_eq
  rw [← List.mem_range, ← toNat_definitionIndices bound, List.mem_map_of_injective hinjective]

/-! ### Restored arenas -/

theorem Arena.Restored.trans {start middle after : Arena} (h : start.Restored middle)
    (h' : middle.Restored after) : start.Restored after where
  size := Nat.le_trans h.size h'.size
  slots hid := (h'.slots (Nat.lt_of_lt_of_le hid h.size)).trans (h.slots hid)
  keys key := (h'.keys key).trans (h.keys key)
  names name := (h'.names name).trans (h.names name)

namespace TypeModel

variable {store : Store} {config : Config} {model after : TypeModel} {index : DefinitionIndex}
  {indices : List DefinitionIndex} {answers : List (DefinitionIndex × Except Fault TypeId)}

/-! ### One definition -/

/-- Between requests, keys lead to what can be looked up under them. -/
theorem Reachable.lookup?_eq (h : Reachable store config model) (key : TypeKey) :
    model.lookup? key = model.arena.reserved? key :=
  h.arenaSound.lookup?_eq key

/-- **A definition fails as it does in a new model**, and leaves nothing behind then. If it does not
fail there, it does not fail here, and can be looked up afterwards. -/
theorem Reachable.resolveDefinition_cases (h : Reachable store config model)
    (index : DefinitionIndex) :
    (∃ fault, ((TypeModel.new store config).resolveDefinition index).1 = .error fault ∧
      (model.resolveDefinition index).1 = .error fault ∧
      model.arena.Restored (model.resolveDefinition index).2.arena) ∨
    ∃ fresh id, ((TypeModel.new store config).resolveDefinition index).1 = .ok fresh ∧
      (model.resolveDefinition index).1 = .ok id ∧
      (model.resolveDefinition index).2.lookup? (.definition index) = some id := by
  obtain ⟨result, hcomes, hanswers⟩ := h.exists_comesTo (.definition index)
  have hfresh : outcome ((TypeModel.new store config).resolveDefinition index).1 = outcome result :=
    (Reachable.new.answers hcomes).outcome_eq
  have hsame : outcome (model.resolveDefinition index).1 = outcome result := hanswers.outcome_eq
  cases result with
  | error fault =>
    have hfailed : ((Query.definition index).resolve model).1 = .error fault :=
      map_eq_error_iff.mp hsame
    exact .inl ⟨fault, map_eq_error_iff.mp hfresh, hfailed,
      restored_of_resolve_eq_error h.sound hfailed⟩
  | ok tree =>
    obtain ⟨fresh, hnew⟩ := exists_ok_of_outcome hfresh.symm ⟨tree, rfl⟩
    have hexists : ∃ id, ((Query.definition index).resolve model).1 = .ok id :=
      exists_ok_of_outcome hsame.symm ⟨tree, rfl⟩
    obtain ⟨id, hanswer⟩ := hexists
    refine .inr ⟨fresh, id, hnew, hanswer, ?_⟩
    -- the tree of a definition is the definition, so the answer stands for its key
    obtain ⟨tree', reached, hread, -, -, hid, hafter⟩ := exists_of_resolve_eq_ok h.sound hanswer
    obtain ⟨-, rfl⟩ := readTree_definition_iff.mp hread
    have hreachable : Reachable store config (model.resolveDefinition index).2 :=
      h.resolve (.definition index)
    rw [hreachable.lookup?_eq]
    exact hafter ▸ hid

/-- What fails in a new model fails in any, with the same fault, and is rolled back. -/
theorem Reachable.resolveDefinition_of_fails (h : Reachable store config model) {fault : Fault}
    (fails : ((TypeModel.new store config).resolveDefinition index).1 = .error fault) :
    (model.resolveDefinition index).1 = .error fault ∧
      model.arena.Restored (model.resolveDefinition index).2.arena := by
  rcases h.resolveDefinition_cases index with ⟨fault', hnew, hfailed⟩ | ⟨fresh, -, hnew, -⟩
  · obtain rfl := Except.error.inj (hnew.symm.trans fails)
    exact hfailed
  · cases hnew.symm.trans fails

/-- What fails in a new model cannot be looked up in any. -/
theorem Reachable.lookup?_eq_none (h : Reachable store config model) {fault : Fault}
    (fails : ((TypeModel.new store config).resolveDefinition index).1 = .error fault) :
    model.lookup? (.definition index) = none := by
  cases hid : model.lookup? (.definition index) with
  | none => rfl
  | some id =>
    have hfailed := (h.resolveDefinition_of_fails fails).1
    rw [resolveDefinition_of_lookup? hid] at hfailed
    cases hfailed

/-! ### Several definitions -/

/-- What is reported of a definition agrees with what a new model answers, and with the model after
everything was reported. -/
inductive Reports (store : Store) (config : Config) (after : TypeModel) :
    DefinitionIndex → DefinitionIndex × Except Fault TypeId → Prop where
  | resolved {index : DefinitionIndex} {fresh id : TypeId}
      (succeeds : ((TypeModel.new store config).resolveDefinition index).1 = .ok fresh)
      (known : after.lookup? (.definition index) = some id) :
      Reports store config after index (index, .ok id)
  | failed {index : DefinitionIndex} {fault : Fault}
      (fails : ((TypeModel.new store config).resolveDefinition index).1 = .error fault)
      (unknown : after.lookup? (.definition index) = none) :
      Reports store config after index (index, .error fault)

theorem Reachable.resolveEach (h : Reachable store config model)
    (indices : List DefinitionIndex) : Reachable store config (model.resolveEach indices).2 := by
  rw [model_resolveEach]
  exact reachable_askEach h _

/-- **What is reported of each of several definitions**, in whatever order they are asked for. -/
theorem Reachable.reports (h : Reachable store config model) (indices : List DefinitionIndex) :
    List.Forall₂ (Reports store config (model.resolveEach indices).2) indices
      (model.resolveEach indices).1 := by
  induction indices generalizing model with
  | nil => exact .nil
  | cons index rest ih =>
    have hnext : Reachable store config (model.resolveDefinition index).2 :=
      h.resolve (.definition index)
    have hlast := hnext.resolveEach rest
    suffices hreport : Reports store config ((model.resolveDefinition index).2.resolveEach rest).2
        index (index, (model.resolveDefinition index).1) from .cons hreport (ih hnext)
    rcases h.resolveDefinition_cases index with
      ⟨fault, hnew, hfailed, -⟩ | ⟨fresh, id, hnew, hanswer, hknown⟩
    · rw [hfailed]
      exact .failed hnew (hlast.lookup?_eq_none hnew)
    · rw [hanswer]
      refine .resolved hnew ?_
      -- no later request takes the key away
      have hremembers := remembers_askEach hnext.sound (rest.map .definition)
      rw [← model_resolveEach] at hremembers
      rw [hlast.lookup?_eq]
      exact hremembers ((hnext.lookup?_eq _).symm.trans hknown)

/-- **Asking again changes nothing**: what can be looked up is found, and what fails is rolled
back. -/
theorem Reachable.restored_resolveEach (h : Reachable store config model)
    (each : ∀ index ∈ indices, (model.lookup? (.definition index)).isSome ∨
      ∃ fault, ((TypeModel.new store config).resolveDefinition index).1 = .error fault) :
    model.arena.Restored (model.resolveEach indices).2.arena := by
  induction indices generalizing model with
  | nil => exact .refl _
  | cons index rest ih =>
    have hfirst : model.arena.Restored (model.resolveDefinition index).2.arena := by
      rcases each index List.mem_cons_self with hknown | ⟨fault, hfails⟩
      · obtain ⟨id, hid⟩ := Option.isSome_iff_exists.mp hknown
        rw [resolveDefinition_of_lookup? hid]
        exact .refl _
      · exact (h.resolveDefinition_of_fails hfails).2
    refine hfirst.trans (ih (h.resolve (.definition index)) fun other hother => ?_)
    have hsame : (model.resolveDefinition index).2.lookup? (.definition other) =
        model.lookup? (.definition other) := hfirst.lookup?_eq h.arenaSound _
    have hother := each other (List.mem_cons_of_mem _ hother)
    rwa [← hsame] at hother

/-- A definition has one report, which only depends on what can be looked up. -/
theorem Reports.unique {after' : TypeModel} {answer answer' : DefinitionIndex × Except Fault TypeId}
    (same : after'.lookup? (.definition index) = after.lookup? (.definition index))
    (h : Reports store config after index answer) (h' : Reports store config after' index answer') :
    answer' = answer := by
  cases h with
  | resolved succeeds known =>
    cases h' with
    | resolved succeeds' known' => rw [Option.some.inj (known'.symm.trans (same.trans known))]
    | failed fails' _ => cases succeeds.symm.trans fails'
  | failed fails unknown =>
    cases h' with
    | resolved succeeds' _ => cases fails.symm.trans succeeds'
    | failed fails' _ => rw [Except.error.inj (fails'.symm.trans fails)]

theorem eq_of_reports {after' : TypeModel}
    {answers' : List (DefinitionIndex × Except Fault TypeId)}
    (same : ∀ key, after'.lookup? key = after.lookup? key)
    (h : List.Forall₂ (Reports store config after) indices answers)
    (h' : List.Forall₂ (Reports store config after') indices answers') : answers' = answers := by
  induction h generalizing answers' with
  | nil => exact List.forall₂_nil_left_iff.mp h'
  | cons first _ ih =>
    cases h' with
    | cons first' rest' => rw [first.unique (same _) first', ih rest']

/-- **Asking for several definitions again** gives the same answers and changes nothing. -/
theorem Reachable.resolveEach_again (h : Reachable store config model)
    (indices : List DefinitionIndex) :
    ((model.resolveEach indices).2.resolveEach indices).1 = (model.resolveEach indices).1 ∧
      (model.resolveEach indices).2.arena.Restored
        ((model.resolveEach indices).2.resolveEach indices).2.arena := by
  have hlast := h.resolveEach indices
  have hreports := h.reports indices
  have hrestored : (model.resolveEach indices).2.arena.Restored
      ((model.resolveEach indices).2.resolveEach indices).2.arena := by
    refine hlast.restored_resolveEach fun index hindex => ?_
    obtain ⟨answer, -, hreport⟩ := exists_mem_of_forall₂ hreports.flip hindex
    cases hreport with
    | resolved succeeds known => exact .inl (Option.isSome_of_mem known)
    | failed fails unknown => exact .inr ⟨_, fails⟩
  exact ⟨eq_of_reports (hrestored.lookup?_eq hlast.arenaSound) hreports (hlast.reports indices),
    hrestored⟩

/-! ### Surveys -/

theorem ofAnswers_cons_ok (index : DefinitionIndex) (id : TypeId) :
    Survey.ofAnswers ((index, .ok id) :: answers) =
      ⟨id :: (Survey.ofAnswers answers).types, (Survey.ofAnswers answers).failures⟩ := rfl

theorem ofAnswers_cons_error (index : DefinitionIndex) (fault : Fault) :
    Survey.ofAnswers ((index, .error fault) :: answers) =
      ⟨(Survey.ofAnswers answers).types, (index, fault) :: (Survey.ofAnswers answers).failures⟩ :=
  rfl

/-- Every answer is a type or a failure. -/
theorem length_ofAnswers (answers : List (DefinitionIndex × Except Fault TypeId)) :
    (Survey.ofAnswers answers).types.length + (Survey.ofAnswers answers).failures.length =
      answers.length := by
  induction answers with
  | nil => rfl
  | cons entry rest ih =>
    obtain ⟨index, answer⟩ := entry
    cases answer with
    | ok id =>
      rw [ofAnswers_cons_ok, List.length_cons, List.length_cons, Nat.add_right_comm, ih]
    | error fault =>
      rw [ofAnswers_cons_error, List.length_cons, List.length_cons, ← Nat.add_assoc, ih]

theorem types_ofAnswers (h : List.Forall₂ (Reports store config after) indices answers) :
    (Survey.ofAnswers answers).types.map some =
      (indices.map fun index => after.lookup? (.definition index)).filter Option.isSome := by
  induction h with
  | nil => rfl
  | cons first _ ih =>
    cases first with
    | resolved succeeds known => simp [ofAnswers_cons_ok, known, ih]
    | failed fails unknown => simp [ofAnswers_cons_error, unknown, ih]

theorem failures_ofAnswers (h : List.Forall₂ (Reports store config after) indices answers) :
    (Survey.ofAnswers answers).failures.map Prod.fst =
      indices.filter fun index => (after.lookup? (.definition index)).isNone := by
  induction h with
  | nil => rfl
  | cons first _ ih =>
    cases first with
    | resolved succeeds known => simp [ofAnswers_cons_ok, known, ih]
    | failed fails unknown => simp [ofAnswers_cons_error, unknown, ih]

theorem mem_failures_ofAnswers (h : List.Forall₂ (Reports store config after) indices answers)
    {fault : Fault} : (index, fault) ∈ (Survey.ofAnswers answers).failures ↔
      index ∈ indices ∧
        ((TypeModel.new store config).resolveDefinition index).1 = .error fault := by
  induction h with
  | nil => simp [Survey.ofAnswers]
  | @cons first _ rest _ report _ ih =>
    cases report with
    | resolved succeeds known =>
      rw [ofAnswers_cons_ok, ih, List.mem_cons, or_and_right]
      refine (or_iff_right ?_).symm
      rintro ⟨rfl, hfails⟩
      rw [succeeds] at hfails
      cases hfails
    | failed fails unknown =>
      rw [ofAnswers_cons_error, List.mem_cons, ih, List.mem_cons, or_and_right, Prod.mk.injEq]
      refine or_congr_left (and_congr_right ?_)
      rintro rfl
      rw [fails, Except.error.injEq, eq_comm]

theorem Reachable.resolveAll_eq (h : Reachable store config model) :
    model.resolveAll = (Survey.ofAnswers (model.resolveEach store.definitionIndices).1,
      (model.resolveEach store.definitionIndices).2) := by
  rw [TypeModel.resolveAll, h.sameImage.1]
  rfl

/-- What a survey says of all definitions of an image, and what the model is like after it. -/
structure Surveyed (store : Store) (config : Config) (survey : Survey) (after : TypeModel) :
    Prop where
  /-- Every row of the table is asked for once, in order. -/
  rows : store.definitionIndices.map Index.toNat = List.range store.definitions.size
  /-- The types are those of the rows that can be looked up afterwards, row by row. -/
  types : survey.types.map some =
    (store.definitionIndices.map fun index => after.lookup? (.definition index)).filter
      Option.isSome
  /-- The failures are those of the rows that cannot be looked up, row by row. -/
  failures : survey.failures.map Prod.fst =
    store.definitionIndices.filter fun index => (after.lookup? (.definition index)).isNone
  /-- Every row is a type or a failure. -/
  counted : survey.types.length + survey.failures.length = store.definitions.size
  /-- A row fails exactly if it fails in a new model, and with the same fault. -/
  failure_iff {index : DefinitionIndex} {fault : Fault} : (index, fault) ∈ survey.failures ↔
    index.toNat < store.definitions.size ∧
      ((TypeModel.new store config).resolveDefinition index).1 = .error fault
  /-- Another survey says the same. -/
  again : after.resolveAll.1 = survey
  /-- Another survey leaves the model as it is. -/
  unchanged : after.Unchanged after.resolveAll.2

/-- **A survey is complete, independent of the order, and idempotent.** In every reachable model it
accounts for each row of the definition table, as a new model would for that row alone. -/
theorem Reachable.surveyed (h : Reachable store config model)
    (bound : store.definitions.size < UInt32.size) :
    Surveyed store config model.resolveAll.1 model.resolveAll.2 := by
  have hlast := h.resolveEach store.definitionIndices
  have hreports := h.reports store.definitionIndices
  obtain ⟨hagain, hrestored⟩ := h.resolveEach_again store.definitionIndices
  rw [h.resolveAll_eq]
  constructor
  case rows => exact Store.toNat_definitionIndices bound
  case types => exact types_ofAnswers hreports
  case failures => exact failures_ofAnswers hreports
  case counted =>
    have hlength := congrArg List.length (Store.toNat_definitionIndices bound)
    rw [List.length_map, List.length_range] at hlength
    rw [length_ofAnswers, ← hreports.length_eq, hlength]
  case failure_iff =>
    intro index fault
    rw [mem_failures_ofAnswers hreports, Store.mem_definitionIndices bound]
  case again => rw [hlast.resolveAll_eq, hagain]
  case unchanged =>
    obtain ⟨hstore, hconfig⟩ := (hlast.resolveEach store.definitionIndices).sameImage
    rw [hlast.resolveAll_eq]
    exact .of_restored hlast.sound
      ⟨hstore.trans hlast.sameImage.1.symm, hconfig.trans hlast.sameImage.2.symm⟩ hrestored

end TypeModel

/-! ### An image whose first definition fails late -/

/-- An image whose first definition derives from an instantiation of the second, over the third and
over the last, which has no name. The third derives from the second. -/
def Store.windfall : Store where
  definitions := #[{ parent := some ⟨0⟩ }, {}, { parent := some ⟨1⟩ }, { name := ⟨9⟩ }]
  usages := #[⟨1⟩, ⟨7⟩]
  mapped := Std.HashMap.emptyWithCapacity
    |>.insert ⟨1⟩ (.usage (.genericInstance ⟨2⟩)) |>.insert ⟨2⟩ (.genericClass ⟨⟨1⟩, ⟨3⟩⟩)
    |>.insert ⟨3⟩ (.genericInstantiation ⟨2, ⟨4⟩⟩) |>.insert ⟨4⟩ (.argumentList [⟨5⟩, ⟨6⟩])
    |>.insert ⟨5⟩ (.usage (.definition ⟨2⟩)) |>.insert ⟨6⟩ (.usage (.definition ⟨3⟩))
    |>.insert ⟨7⟩ (.usage (.definition ⟨1⟩))

/-- The first definition drags the next two into its failure, and each of them is resolved in its
turn. The model has been asked for the first definition before. -/
theorem TypeModel.surveyed_windfall :
    ((TypeModel.new .windfall .standard).askEach [.definition ⟨0⟩]).2.resolveAll.1 =
        ⟨[⟨10⟩, ⟨11⟩], [(⟨0⟩, .indexOutOfRange .string 9 1), (⟨3⟩, .indexOutOfRange .string 9 1)]⟩ ∧
      Store.windfall.definitions.size < UInt32.size ∧
      Surveyed .windfall .standard
        ((TypeModel.new .windfall .standard).askEach [.definition ⟨0⟩]).2.resolveAll.1
        ((TypeModel.new .windfall .standard).askEach [.definition ⟨0⟩]).2.resolveAll.2 := by
  have hbound : Store.windfall.definitions.size < UInt32.size := by decide
  exact ⟨by cbv, hbound, Reachable.surveyed (reachable_askEach .new [.definition ⟨0⟩]) hbound⟩

end TypeGraph
