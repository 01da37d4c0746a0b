import Mathlib
import TypeGraph.Proofs.Reachability

/-!
# Independence of the cache

What a model has resolved before makes its answers cheaper, but it decides neither whether a
question is answered nor with which fault it fails. A resolved definition is not read again, and
neither is whatever it leads to; but all of that was read before without a fault, so leaving it out
does not change which broken record is met first.

The comparison goes through a new model. What a question comes to there is what it comes to in every
sound model of the same image.

## Main results

* `TypeModel.ends_iff` — what a question comes to is what it comes to where nothing is known
* `TypeModel.resolve_independent` — two reachable models of one image agree on success and failure
-/

namespace TypeGraph

theorem Arena.knows_empty : Arena.empty.knows = fun _ => false := by
  funext index
  simp [knows, empty, reserved?]

namespace TypeModel

variable {model model' : TypeModel}

/-- What a question comes to is what it comes to where nothing is known. -/
theorem ends_iff (sound : model.Sound) (query : Query) {result : Except Fault TypeTree} :
    Ends model.store model.config.maxDepth model.arena.knows
        (query.readTree model.store model.config.maxDepth) result ↔
      Ends model.store model.config.maxDepth (fun _ => false)
        (query.readTree model.store model.config.maxDepth) result := by
  obtain ⟨cold, hcold, -⟩ := exists_answers (sound_new model.store model.config) query
  have hcold : Ends model.store model.config.maxDepth (fun _ => false)
      (query.readTree model.store model.config.maxDepth) cold := by
    rw [← Arena.knows_empty]
    exact hcold
  -- definitions that a sound model knows only name definitions that it knows
  have hwarm := hcold.knowing (Arena.Sound.settled_knows sound)
  constructor
  · intro h
    rwa [h.unique hwarm]
  · intro h
    rwa [h.unique hcold]

/-- **The outcome of a question does not depend on the cache.** Of two reachable models of one
image, either both answer a question or both fail, and then with the same fault. -/
theorem resolve_independent {store : Store} {config : Config}
    (reachable : Reachable store config model) (reachable' : Reachable store config model')
    (query : Query) :
    ((∃ id, (query.resolve model).1 = .ok id) ↔ ∃ id, (query.resolve model').1 = .ok id) ∧
      ∀ fault, (query.resolve model).1 = .error fault ↔
        (query.resolve model').1 = .error fault := by
  have hsame : outcome (query.resolve model).1 = outcome (query.resolve model').1 := by
    obtain ⟨result, hends, hanswers⟩ := exists_answers reachable.sound query
    obtain ⟨result', hends', hanswers'⟩ := exists_answers reachable'.sound query
    rw [ends_iff reachable.sound, reachable.sameImage.1, reachable.sameImage.2] at hends
    rw [ends_iff reachable'.sound, reachable'.sameImage.1, reachable'.sameImage.2] at hends'
    obtain rfl := hends.unique hends'
    exact hanswers.outcome_eq.trans hanswers'.outcome_eq.symm
  cases hanswer : (query.resolve model).1 <;> cases hanswer' : (query.resolve model').1 <;>
    rw [hanswer, hanswer'] at hsame
  · rw [Except.error.inj hsame]
    simp
  · cases hsame
  · cases hsame
  · simp

end TypeModel

/-! ### An image with a chain of definitions -/

/-- An image in which one definition derives from an instantiation that names two others, one of
which has no name. -/
def Store.chain : Store where
  definitions := #[{}, { parent := some ⟨0⟩ }, { parent := some ⟨1⟩ }, { name := ⟨9⟩ }]
  usages := #[⟨1⟩, ⟨2⟩]
  mapped := Std.HashMap.emptyWithCapacity
    |>.insert ⟨1⟩ (.usage (.definition ⟨0⟩)) |>.insert ⟨2⟩ (.usage (.genericInstance ⟨3⟩))
    |>.insert ⟨3⟩ (.genericClass ⟨⟨0⟩, ⟨4⟩⟩) |>.insert ⟨4⟩ (.genericInstantiation ⟨2, ⟨5⟩⟩)
    |>.insert ⟨5⟩ (.argumentList [⟨6⟩, ⟨7⟩]) |>.insert ⟨6⟩ (.usage (.definition ⟨1⟩))
    |>.insert ⟨7⟩ (.usage (.definition ⟨3⟩))

/-- One model has resolved the first two definitions and tried the last one, the other is new. Both
fail at the third definition, and for the same reason. -/
theorem TypeModel.resolve_independent_chain :
    ((Query.definition ⟨2⟩).resolve (.new .chain .standard)).1 =
        .error (.indexOutOfRange .string 9 1) ∧
      ((∃ id, ((Query.definition ⟨2⟩).resolve ((TypeModel.new .chain .standard).askEach
          [.definition ⟨1⟩, .definition ⟨3⟩]).2).1 = .ok id) ↔
        ∃ id, ((Query.definition ⟨2⟩).resolve (.new .chain .standard)).1 = .ok id) ∧
      ∀ fault, ((Query.definition ⟨2⟩).resolve ((TypeModel.new .chain .standard).askEach
          [.definition ⟨1⟩, .definition ⟨3⟩]).2).1 = .error fault ↔
        ((Query.definition ⟨2⟩).resolve (.new .chain .standard)).1 = .error fault := by
  refine ⟨by cbv, ?_⟩
  exact resolve_independent (reachable_askEach .new _) .new (.definition ⟨2⟩)

end TypeGraph
