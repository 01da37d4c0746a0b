import Mathlib
import TypeGraph.Proofs.Reachability

/-!
# Failed requests

A request that fails is rolled back, however far it had come. Nothing that can be asked of a model
tells it apart from the model before, except that the handles which the request used up are not
issued again. Nothing leads to those.

## Main definitions

* `TypeModel.Unchanged` — a model answers as another one does, but may have more unused slots

## Main results

* `TypeModel.unchanged_of_error` — a request that fails leaves a model unchanged
-/

namespace TypeGraph

namespace TypeModel

/-- A model answers as another one does. It may have further slots, but nothing leads to them. -/
structure Unchanged (before after : TypeModel) : Prop where
  image : SameImage before after
  lookup? (key : TypeKey) : after.lookup? key = before.lookup? key
  find? (fullName : String) : after.find? fullName = before.find? fullName
  all : after.all = before.all
  size : after.size = before.size
  isEmpty : after.isEmpty = before.isEmpty
  /-- Every handle that was issued reads as it did. -/
  get {id : TypeId} : id.index < before.arena.slots.size → after.get id = before.get id
  /-- The slots that there were stay as they are, filled or not. -/
  slots {id : TypeId} : id.index < before.arena.slots.size →
    after.arena.slot? id = before.arena.slot? id
  /-- No slot goes away. -/
  grows : before.arena.slots.size ≤ after.arena.slots.size
  /-- No key leads to a slot that was not there before, and no full name does. -/
  unindexed {id : TypeId} : before.arena.slots.size ≤ id.index →
    (∀ key, after.arena.reserved? key ≠ some id) ∧ ∀ fullName, after.find? fullName ≠ some id

variable {model after : TypeModel}

/-- A model whose arena is restored is unchanged. -/
theorem Unchanged.of_restored (sound : model.Sound) (image : SameImage model after)
    (restored : model.arena.Restored after.arena) : model.Unchanged after where
  image := image
  lookup? := restored.lookup?_eq sound
  find? := restored.names
  all := restored.all_eq sound
  size := restored.size_eq
  isEmpty := congrArg (· == 0) restored.size_eq
  get := restored.get_eq
  slots := restored.slots
  grows := restored.size
  unindexed hid := ⟨restored.reserved?_ne sound hid, restored.find?_ne sound hid⟩

/-! ### Each request -/

theorem restored_of_resolve_eq_error (sound : model.Sound) {query : Query} {fault : Fault}
    (failed : (query.resolve model).1 = .error fault) :
    model.arena.Restored (query.resolve model).2.arena := by
  obtain ⟨after, steps, hafter⟩ := exists_of_resolve_eq_error sound failed
  rw [hafter]
  exact Arena.Sound.restored sound steps

theorem restored_of_resolveLink_eq_error (sound : model.Sound) {link : TypeLink} {fault : Fault}
    (failed : (model.resolveLink link).1 = .error fault) :
    model.arena.Restored (model.resolveLink link).2.2.arena := by
  cases hlink : link.resolved with
  | some id =>
    rw [resolveLink_of_resolved hlink] at failed
    cases failed
  | none =>
    rw [answer_resolveLink hlink] at failed
    rw [model_resolveLink hlink]
    exact restored_of_resolve_eq_error sound failed

/-- A link that cannot be resolved remembers nothing. -/
theorem link_of_resolveLink_eq_error {link : TypeLink} {fault : Fault}
    (failed : (model.resolveLink link).1 = .error fault) : (model.resolveLink link).2.1 = link := by
  cases hlink : link.resolved with
  | some id => rw [resolveLink_of_resolved hlink]
  | none =>
    rw [resolveLink_of_unresolved hlink] at failed ⊢
    rcases hresolve : (Query.usageIndex link.usage).resolve model with ⟨answer, after⟩
    rw [hresolve] at failed
    cases answer with
    | ok id => cases failed
    | error fault' => rfl

theorem restored_of_resolveMember_eq_error (sound : model.Sound) {id : TypeId} {site : MemberSite}
    {fault : Fault} (failed : (model.resolveMember id site).1 = .error fault) :
    model.arena.Restored (model.resolveMember id site).2.arena := by
  rw [resolveMember] at failed ⊢
  cases hlink : model.memberLink id site with
  | error fault' => exact .refl _
  | ok found =>
    cases found with
    | none => exact .refl _
    | some link =>
      rcases hresolve : model.resolveLink link with ⟨answer, link', after⟩
      simp only [hlink, hresolve] at failed ⊢
      cases answer with
      | ok target => cases failed
      | error fault' =>
        have hlinkFailed : (model.resolveLink link).1 = .error fault' := by rw [hresolve]
        have hrestored := restored_of_resolveLink_eq_error sound hlinkFailed
        rwa [hresolve] at hrestored

theorem restored_of_ask_eq_error (sound : model.Sound) {request : Request} {fault : Fault}
    (failed : (model.ask request).1 = .error fault) :
    model.arena.Restored (model.ask request).2.arena := by
  have hquery (query : Query) (failed : (model.ask query.request).1 = .error fault) :
      model.arena.Restored (model.ask query.request).2.arena := by
    rw [ask_request] at failed ⊢
    exact restored_of_resolve_eq_error sound (map_eq_error_iff.mp failed)
  cases request with
  | definition index => exact hquery (.definition index) failed
  | usage found => exact hquery (.usage found) failed
  | usageIndex index => exact hquery (.usageIndex index) failed
  | link link =>
    rw [ask_link] at failed ⊢
    exact restored_of_resolveLink_eq_error sound (map_eq_error_iff.mp failed)
  | member id site => exact restored_of_resolveMember_eq_error sound failed

/-- **A request that fails leaves a model unchanged**, and the link that it was asked for. -/
theorem unchanged_of_error {store : Store} {config : Config}
    (reachable : Reachable store config model) {request : Request} {fault : Fault}
    (failed : (model.ask request).1 = .error fault) :
    model.Unchanged (model.ask request).2 ∧
      ∀ link, request = .link link → (model.resolveLink link).2.1 = link := by
  have hrestored := restored_of_ask_eq_error reachable.sound failed
  refine ⟨.of_restored reachable.sound (sameImage_ask request model) hrestored, ?_⟩
  rintro link rfl
  rw [ask_link] at failed
  exact link_of_resolveLink_eq_error (map_eq_error_iff.mp failed)

end TypeModel

/-! ### An image with a broken definition -/

/-- An image whose second definition derives from a vector of the third, which has no name. -/
def Store.broken : Store where
  definitions := #[{}, { parent := some ⟨0⟩ }, { name := ⟨9⟩ }]
  usages := #[⟨1⟩]
  mapped := Std.HashMap.emptyWithCapacity
    |>.insert ⟨1⟩ (.usage (.vector ⟨2⟩)) |>.insert ⟨2⟩ (.usage (.definition ⟨2⟩))

/-- Two definitions and a vector are reserved before the request fails, and two of the three are
filled, under the full name of a definition that was there before. -/
theorem TypeModel.unchanged_of_error_broken :
    (((TypeModel.new .broken .standard).askEach [.definition ⟨0⟩]).2.ask (.definition ⟨1⟩)).1 =
        .error (.indexOutOfRange .string 9 1) ∧
      ((TypeModel.new .broken .standard).askEach [.definition ⟨0⟩]).2.Unchanged
          (((TypeModel.new .broken .standard).askEach [.definition ⟨0⟩]).2.ask
            (.definition ⟨1⟩)).2 ∧
        ∀ link, Request.definition ⟨1⟩ = .link link →
          (((TypeModel.new .broken .standard).askEach [.definition ⟨0⟩]).2.resolveLink
            link).2.1 = link := by
  have hfailed : (((TypeModel.new .broken .standard).askEach [.definition ⟨0⟩]).2.ask
      (.definition ⟨1⟩)).1 = .error (.indexOutOfRange .string 9 1) := by
    cbv
  exact ⟨hfailed, unchanged_of_error (reachable_askEach .new _) hfailed⟩

end TypeGraph
