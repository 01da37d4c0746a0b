import Mathlib
import TypeGraph.Proofs.CacheIndependence
import TypeGraph.Proofs.FailedRequests
import TypeGraph.Proofs.LiveSet
import TypeGraph.Proofs.Renaming

/-!
# The order of questions

Questions for types can be asked in any order and as often as one likes. What a question comes to is
settled by the image, and so is what it makes live, so two lists of the same questions lead to the
same live trees and to the same answers. Only the handles differ, since they are issued as types are
first met, and since a question that fails uses some up.

## Main definitions

* `Query.ComesTo` — what a question comes to in any model of an image
* `TypeModel.history` — the answers to a list of questions, and the model after them
* `TypeModel.Corresponds` — two models know the same types, under different handles
* `TypeModel.HistoriesCorrespond` — two lists of questions come to the same, under different handles

## Main results

* `TypeModel.Reachable.isSome_idOf_askEach` — the trees that are live after a list of questions
* `TypeModel.Reachable.getElem?_askEach` — each answer, in terms of the last arena
* `TypeModel.exists_historiesCorrespond` — the same questions in another order come to the same
-/

namespace TypeGraph

theorem Arena.idOf_empty (tree : TypeTree) : Arena.empty.idOf tree = none := by
  refine Option.eq_none_iff_forall_ne_some.mpr fun id hid => ?_
  obtain ⟨key, -, hkey⟩ := idOf_eq_some_iff.mp hid
  simp [empty, reserved?] at hkey

theorem Arena.Plain.empty : Arena.Plain .empty := by
  intro id entity found
  simp [Arena.empty, entity?, slot?] at found

/-! ### What a question comes to -/

/-- What a question comes to in any model of an image: the tree that is asked for, or a fault. -/
def Query.ComesTo (store : Store) (config : Config) (query : Query)
    (result : Except Fault TypeTree) : Prop :=
  Ends store config.maxDepth (fun _ => false) (query.readTree store config.maxDepth) result

namespace TypeModel

variable {store : Store} {config : Config} {model : TypeModel} {query : Query}
  {result : Except Fault TypeTree}

theorem Reachable.exists_comesTo (h : Reachable store config model) (query : Query) :
    ∃ result, query.ComesTo store config result ∧
      model.arena.Answers store config.maxDepth result (model.answer query) := by
  obtain ⟨result, hends, hanswers⟩ := exists_answers h.sound query
  rw [ends_iff h.sound, h.sameImage.1, h.sameImage.2] at hends
  rw [h.sameImage.1, h.sameImage.2] at hanswers
  exact ⟨result, hends, hanswers⟩

/-- Every reachable model answers a question by what it comes to. -/
theorem Reachable.answers (h : Reachable store config model)
    (comes : query.ComesTo store config result) :
    model.arena.Answers store config.maxDepth result (model.answer query) := by
  obtain ⟨result', hcomes, hanswers⟩ := h.exists_comesTo query
  rwa [comes.unique hcomes]

/-- The answer to a question is the handle of what it comes to. -/
theorem Reachable.answer_ask (h : Reachable store config model)
    (comes : query.ComesTo store config result) :
    (model.ask query.request).1 = (model.ask query.request).2.arena.idOf <$> result := by
  have hanswers := h.answers comes
  rw [ask_request]
  generalize hanswer : model.answer query = answer at hanswers
  obtain ⟨hfst, hsnd⟩ := Prod.mk.inj hanswer
  cases hanswers with
  | ok steps idle found =>
    rw [hfst, hsnd]
    exact congrArg Except.ok found.symm
  | error steps =>
    rw [hfst]
    rfl

/-- **A question makes live what it comes to, with what that involves**, and nothing if it fails. -/
theorem Reachable.isSome_idOf_ask (h : Reachable store config model)
    (comes : query.ComesTo store config result) {other : TypeTree} :
    ((model.ask query.request).2.arena.idOf other).isSome ↔
      (model.arena.idOf other).isSome ∨ ∃ tree, result = .ok tree ∧ store.Involves tree other := by
  have hanswer : (model.answer query).1 = (query.resolve model).1 := rfl
  have hanswers := h.answers comes
  generalize model.answer query = answer at hanswer hanswers
  rw [ask_request]
  cases hanswers with
  | @ok tree id after steps idle found =>
    obtain ⟨tree', hdenotes, hadds⟩ := h.adds_resolve hanswer.symm
    obtain rfl := hdenotes.unique (Query.denotes_of_readTree comes.of_ok.1)
    rw [hadds.isSome_iff]
    simp
  | error steps =>
    have hkeys := (restored_of_resolve_eq_error h.sound hanswer.symm).keys
    have hsame : ((query.resolve model).2.arena.idOf other).isSome ↔
        (model.arena.idOf other).isSome :=
      ⟨Arena.Remembers.isSome_idOf (.of_eq fun key => (hkeys key).symm),
        Arena.Remembers.isSome_idOf (.of_eq hkeys)⟩
    rw [hsame]
    simp

/-! ### Lists of questions -/

/-- **A tree is live after a list of questions** if it was before, or if one of the questions comes
to a tree that involves it. -/
theorem Reachable.isSome_idOf_askEach (h : Reachable store config model) (queries : List Query)
    {other : TypeTree} :
    ((model.askEach (queries.map Query.request)).2.arena.idOf other).isSome ↔
      (model.arena.idOf other).isSome ∨ ∃ query ∈ queries, ∃ tree,
        query.ComesTo store config (.ok tree) ∧ store.Involves tree other := by
  induction queries generalizing model with
  | nil => simp [askEach]
  | cons query rest ih =>
    obtain ⟨result, hcomes, -⟩ := h.exists_comesTo query
    have hfirst (tree : TypeTree) : result = .ok tree ↔ query.ComesTo store config (.ok tree) :=
      ⟨fun hsame => hsame ▸ hcomes, hcomes.unique⟩
    rw [List.map_cons, askEach, ih (h.ask query.request), h.isSome_idOf_ask hcomes, or_assoc]
    simp only [hfirst, List.mem_cons, exists_eq_or_imp]

/-- **Each answer is the handle of what its question comes to**, in the arena after all of them. -/
theorem Reachable.getElem?_askEach (h : Reachable store config model) {queries : List Query}
    {position : Nat} (asked : queries[position]? = some query)
    (comes : query.ComesTo store config result) :
    (model.askEach (queries.map Query.request)).1[position]? =
      some ((model.askEach (queries.map Query.request)).2.arena.idOf <$> result) := by
  induction queries generalizing model position with
  | nil => cases asked
  | cons first rest ih =>
    cases position with
    | zero =>
      obtain rfl : first = query := Option.some.inj asked
      have hanswer := h.answer_ask comes
      refine congrArg some (hanswer.trans ?_)
      cases result with
      | error fault => rfl
      | ok tree =>
        -- what is live after the first question keeps its handle
        have hlive := (h.isSome_idOf_ask comes).mpr (.inr ⟨tree, rfl, .refl⟩)
        obtain ⟨id, hid⟩ := Option.isSome_iff_exists.mp hlive
        have hreachable := h.ask first.request
        have hremembers := remembers_askEach hreachable.sound (rest.map Query.request)
        exact congrArg Except.ok (hid.trans (hremembers.idOf hid).symm)
    | succ position => exact ih (h.ask first.request) asked

/-- A question leaves no trace in any link. -/
theorem plain_resolve (sound : model.Sound) (plain : model.arena.Plain) (query : Query) :
    (query.resolve model).2.arena.Plain := by
  have hsteps {after : Transaction} (steps : Transaction.Steps model.store model.config.maxDepth
      { arena := model.arena } after) : after.arena.Plain := by
    intro id entity found
    rcases steps.entity?_cases found with hold | hforget
    · exact plain hold
    · exact hforget
  cases hanswer : (query.resolve model).1 with
  | ok id =>
    obtain ⟨tree, after, -, steps, -, -, hafter⟩ := exists_of_resolve_eq_ok sound hanswer
    exact hafter ▸ hsteps steps
  | error fault =>
    obtain ⟨after, steps, hafter⟩ := exists_of_resolve_eq_error sound hanswer
    intro id entity found
    rw [hafter, Arena.entity?_rollback] at found
    exact hsteps steps found

theorem Reachable.plain_askEach (h : Reachable store config model) (plain : model.arena.Plain)
    (queries : List Query) : (model.askEach (queries.map Query.request)).2.arena.Plain := by
  induction queries generalizing model with
  | nil => exact plain
  | cons query rest ih =>
    have hplain : (model.ask query.request).2.arena.Plain := by
      rw [ask_request]
      exact plain_resolve h.sound plain query
    exact ih (h.ask query.request) hplain

/-! ### Histories of questions -/

/-- Asks a list of questions of a new model. -/
def history (store : Store) (config : Config) (queries : List Query) :
    List (Except Fault (Option TypeId)) × TypeModel :=
  (TypeModel.new store config).askEach (queries.map Query.request)

theorem reachable_history (store : Store) (config : Config) (queries : List Query) :
    Reachable store config (history store config queries).2 :=
  reachable_askEach .new _

theorem pristine_history (store : Store) (config : Config) (queries : List Query) :
    (history store config queries).2.arena.Pristine store config.maxDepth where
  sound := (reachable_history store config queries).arenaSound
  honest := (reachable_history store config queries).honest
  plain := Reachable.plain_askEach .new .empty queries

/-- The trees that are live after a list of questions are settled by the questions. -/
theorem isSome_idOf_history {queries : List Query} {other : TypeTree} :
    ((history store config queries).2.arena.idOf other).isSome ↔ ∃ query ∈ queries, ∃ tree,
      query.ComesTo store config (.ok tree) ∧ store.Involves tree other := by
  rw [history, Reachable.isSome_idOf_askEach .new, new, Arena.idOf_empty]
  simp

/-! ### Models that correspond -/

/-- Two models correspond under a renaming of handles: they know the same types, with the same
contents and names, and differ in nothing but handles, and in the usages of composites. -/
structure Corresponds (handle : TypeId → TypeId) (model model' : TypeModel) : Prop where
  /-- The renaming pairs off the types that are live. -/
  bijOn : Set.BijOn handle {id | id ∈ model.all} {id | id ∈ model'.all}
  /-- A key leads to a type in the one model, and the renamed key to the renamed type in the
  other. -/
  lookup? {key : TypeKey} {id : TypeId} :
    model.lookup? key = some id → model'.lookup? (key.map handle) = some (handle id)
  /-- The other model has no keys besides. -/
  exists_of_lookup? {key' : TypeKey} {id' : TypeId} : model'.lookup? key' = some id' →
    ∃ key id, model.lookup? key = some id ∧ key.map handle = key' ∧ handle id = id'
  /-- Entities correspond, with all their members. -/
  get {id : TypeId} : id ∈ model.all → ∃ entity entity', model.get id = .ok entity ∧
    model'.get (handle id) = .ok entity' ∧ entity.Resembles handle entity'
  /-- All four names are the same, and there are such names. -/
  namespaceName {id : TypeId} :
    id ∈ model.all → Agree (model.namespaceName id) (model'.namespaceName (handle id))
  name {id : TypeId} : id ∈ model.all → Agree (model.name id) (model'.name (handle id))
  fullName {id : TypeId} : id ∈ model.all → Agree (model.fullName id) (model'.fullName (handle id))
  displayName {id : TypeId} :
    id ∈ model.all → Agree (model.displayName id) (model'.displayName (handle id))

/-- Models of one image correspond where the same trees are live in both, if only questions for
types were asked. -/
theorem Corresponds.of_renames {limit : Nat} {model' : TypeModel} {handle : TypeId → TypeId}
    (renames : Arena.Renames handle model.arena model'.arena)
    (pristine : model.arena.Pristine store limit) (pristine' : model'.arena.Pristine store limit)
    (live : ∀ tree, (model'.arena.idOf tree).isSome → (model.arena.idOf tree).isSome)
    (config : model'.config = model.config) : Corresponds handle model model' := by
  constructor
  case bijOn => exact renames.bijOn pristine pristine' live
  case lookup? =>
    intro key id found
    rw [TypeModel.lookup?, pristine.sound.lookup?_eq] at found
    rw [TypeModel.lookup?, pristine'.sound.lookup?_eq]
    exact renames.reserved?_map pristine found
  case exists_of_lookup? =>
    intro key' id' found
    rw [TypeModel.lookup?, pristine'.sound.lookup?_eq] at found
    obtain ⟨tree, hkey', htree'⟩ := pristine'.honest.exists_keyOf pristine'.sound found
    obtain ⟨id, htree⟩ := Option.isSome_iff_exists.mp (live tree (Option.isSome_of_mem htree'))
    obtain ⟨key, hkey, hid⟩ := Arena.idOf_eq_some_iff.mp htree
    refine ⟨key, id, ?_, ?_, ?_⟩
    · rw [TypeModel.lookup?, pristine.sound.lookup?_eq, hid]
    · exact Option.some.inj ((renames.keyOf hkey).symm.trans hkey')
    · exact Option.some.inj ((renames htree).symm.trans htree')
  case get =>
    intro id hlive
    obtain ⟨tree, htree⟩ := pristine.mem_all_iff.mp hlive
    obtain ⟨entity, entity', hentity, hentity', hresembles⟩ :=
      renames.exists_resembles pristine pristine' htree
    exact ⟨entity, entity', Arena.get_eq_ok_iff.mpr hentity, Arena.get_eq_ok_iff.mpr hentity',
      hresembles⟩
  case namespaceName => exact renames.agree_namespaceName pristine pristine'
  case name =>
    intro id hlive
    rw [TypeModel.name, TypeModel.name, config]
    exact renames.agree_render pristine pristine' (fun _ => rfl) hlive
  case fullName =>
    intro id hlive
    rw [TypeModel.fullName, TypeModel.fullName, config]
    exact renames.agree_fullName pristine pristine' hlive
  case displayName =>
    intro id hlive
    rw [TypeModel.displayName, TypeModel.displayName, config]
    exact renames.agree_render pristine pristine' (fun _ => rfl) hlive

/-- What two lists of questions come to in new models of one image corresponds: the models after
them do, and each question is answered alike, be it with corresponding handles or with one fault. -/
structure HistoriesCorrespond (store : Store) (config : Config) (handle : TypeId → TypeId)
    (queries queries' : List Query) : Prop where
  models : Corresponds handle (history store config queries).2 (history store config queries').2
  answers {position position' : Nat} {query : Query} : queries[position]? = some query →
    queries'[position']? = some query → ∃ answer : Except Fault TypeId,
      (history store config queries).1[position]? = some (some <$> answer) ∧
      (history store config queries').1[position']? = some (some <$> handle <$> answer)

/-- **The order of questions does not matter**, nor does repetition: two lists of the same questions
come to the same, but for handles. -/
theorem exists_historiesCorrespond (store : Store) (config : Config)
    {queries queries' : List Query} (same : ∀ query, query ∈ queries ↔ query ∈ queries') :
    ∃ handle, HistoriesCorrespond store config handle queries queries' := by
  have hpristine := pristine_history store config queries
  have hpristine' := pristine_history store config queries'
  have hlive (tree : TypeTree) :
      ((history store config queries).2.arena.idOf tree).isSome ↔
        ((history store config queries').2.arena.idOf tree).isSome := by
    simp only [isSome_idOf_history, same]
  obtain ⟨handle, hrenames⟩ :=
    Arena.exists_renames hpristine.honest hpristine.sound fun tree => (hlive tree).mp
  refine ⟨handle, ?models, ?answers⟩
  case models =>
    refine .of_renames hrenames hpristine hpristine' (fun tree => (hlive tree).mpr) ?_
    have hconfig := (reachable_history store config queries).sameImage.2
    exact (reachable_history store config queries').sameImage.2.trans hconfig.symm
  case answers =>
    intro position position' query asked asked'
    obtain ⟨result, hcomes, -⟩ := Reachable.exists_comesTo (.new : Reachable store config _) query
    have hanswer := Reachable.getElem?_askEach .new asked hcomes
    have hanswer' := Reachable.getElem?_askEach .new asked' hcomes
    cases result with
    | error fault => exact ⟨.error fault, hanswer, hanswer'⟩
    | ok tree =>
      have hmem := List.mem_of_getElem? asked
      obtain ⟨id, hid⟩ := Option.isSome_iff_exists.mp
        (isSome_idOf_history.mpr ⟨query, hmem, tree, hcomes, .refl⟩)
      refine ⟨.ok id, hanswer.trans ?_, hanswer'.trans ?_⟩
      · exact congrArg (fun answer => some (Except.ok answer)) hid
      · exact congrArg (fun answer => some (Except.ok answer)) (hrenames hid)

end TypeModel

/-- In an image whose types are tangled, no type has one handle in both orders: the question that
fails comes first in the one and uses up six of them, and in the other it is asked for in the middle
of what it needs. -/
theorem TypeModel.exists_historiesCorrespond_tangle :
    (history .tangle .standard [.definition ⟨2⟩, .definition ⟨1⟩, .usageIndex ⟨0⟩]).1 =
        [.error (.indexOutOfRange .string 9 1), .ok (some ⟨6⟩), .ok (some ⟨9⟩)] ∧
      (history .tangle .standard
          [.usageIndex ⟨0⟩, .definition ⟨2⟩, .usageIndex ⟨0⟩, .definition ⟨1⟩]).1 =
        [.ok (some ⟨3⟩), .error (.indexOutOfRange .string 9 1), .ok (some ⟨3⟩), .ok (some ⟨0⟩)] ∧
      ∃ handle, HistoriesCorrespond .tangle .standard handle
        [.definition ⟨2⟩, .definition ⟨1⟩, .usageIndex ⟨0⟩]
        [.usageIndex ⟨0⟩, .definition ⟨2⟩, .usageIndex ⟨0⟩, .definition ⟨1⟩] := by
  refine ⟨by cbv, by cbv, exists_historiesCorrespond .tangle .standard fun query => ?_⟩
  simp only [List.mem_cons, List.not_mem_nil, or_false]
  tauto

end TypeGraph
