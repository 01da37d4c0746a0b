import Mathlib
import TypeGraph.Proofs.LiveTrees
import TypeGraph.Proofs.Repetition

/-!
# Origins

Every entity keeps the raw record that it was made from: a definition row, or a usage that was met
somewhere on the way, perhaps deep inside another request and with operands that were still empty.
Asked for by itself, that record is a question like any other, answered at the outermost level and
by other shortcuts. The answer is the entity again.

The record and the entity stand for the same tree, because an entity depicts the tree of its origin,
and a tree has one handle. So it only has to be seen that the record can be read from the outermost
level: it was read further in, where the limit left less room.

## Main definitions

* `TypeOrigin.query` — the question for an origin
* `TypeModel.LeadsBack` — an entity is of the sort that its origin says, and is found by it

## Main results

* `Arena.Depicts.readTree_origin` — an entity depicts the tree of its origin
* `TypeModel.leadsBack` — the origin of every live entity leads back to it, and nothing changes
-/

namespace TypeGraph

/-! ### Origins of entities -/

/-- The question for an origin. -/
def TypeOrigin.query : TypeOrigin → Query
  | definition index => .definition index
  | usage found => .usage found

@[simp] theorem TypeEntity.origin_forget (entity : TypeEntity) :
    entity.forget.origin = entity.origin := by
  rw [forget]
  split <;> rfl

namespace Arena.Depicts

variable {store : Store} {limit : Nat} {arena : Arena} {tree : TypeTree} {entity : TypeEntity}

/-- **An entity depicts the tree of its origin**, which can be read from the outermost level. -/
theorem readTree_origin (h : arena.Depicts store limit tree entity) :
    entity.origin.query.readTree store limit = .ok tree := by
  refine bind_eq_ok_iff.mpr ?_
  cases h with
  | @definition waiting _ found portrays =>
    refine ⟨.definition waiting.index, rfl, Store.readTree_eq_ok_iff.mpr ⟨?_, Nat.zero_le _⟩⟩
    exact denotes_definition_iff.mpr ⟨⟨_, found⟩, rfl⟩
  | @usage found _ _ _ _ _ denotes shallow makes =>
    exact ⟨found, rfl, Store.readTree_eq_ok_iff.mpr ⟨denotes, shallow⟩⟩

/-- An entity whose origin is a row declares the definition of the row. -/
theorem exists_definition_of_origin {index : DefinitionIndex}
    (h : arena.Depicts store limit tree entity) (origin : entity.origin = .definition index) :
    ∃ definition, entity.definition? = some definition ∧ definition.index = index := by
  cases h with
  | definition found portrays =>
    exact ⟨_, rfl, portrays.index.trans (TypeOrigin.definition.inj origin)⟩
  | usage denotes shallow makes => cases origin

/-- An entity whose origin is a usage declares nothing. -/
theorem definition?_eq_none_of_origin {usage : TypeUsage}
    (h : arena.Depicts store limit tree entity) (origin : entity.origin = .usage usage) :
    entity.definition? = none := by
  cases h with
  | definition found portrays => cases origin
  | usage denotes shallow makes => exact makes.definition?_eq_none rfl

end Arena.Depicts

/-! ### Live entities -/

namespace TypeModel

variable {store : Store} {config : Config} {model : TypeModel} {id : TypeId}

/-- The origin of an entity leads back to its handle: the entity is a definition exactly if its
origin is a row, then it is that of the row, and whoever asks for the origin is answered with the
handle and finds the model unchanged. -/
structure LeadsBack (model : TypeModel) (id : TypeId) (entity : TypeEntity) : Prop where
  definition : ∀ index, entity.origin = .definition index →
    (∃ definition, entity.shape = .definition definition ∧ definition.index = index) ∧
      model.resolveDefinition index = (.ok id, model)
  usage : ∀ usage, entity.origin = .usage usage →
    (∀ definition, entity.shape ≠ .definition definition) ∧
      model.resolveUsage usage = (.ok id, model)

/-- **The origin of every live entity leads back to it**, and asking changes nothing. -/
theorem leadsBack (reachable : Reachable store config model) (live : id ∈ model.all) :
    ∃ entity, model.get id = .ok entity ∧ model.LeadsBack id entity := by
  obtain ⟨tree, hid⟩ := (reachable.honest.mem_all_iff reachable.arenaSound).mp live
  obtain ⟨entity, hentity, -, -, hdepicts⟩ :=
    reachable.honest.exists_of_idOf reachable.arenaSound hid
  have hback : entity.origin.query.resolve model = (.ok id, model) :=
    reachable.resolve_of_idOf (entity.origin_forget ▸ hdepicts.readTree_origin) hid
  refine ⟨entity, Arena.get_eq_ok_iff.mpr hentity, ?_, ?_⟩
  · intro index horigin
    rw [horigin] at hback
    obtain ⟨plain, hplain, hindex⟩ :=
      hdepicts.exists_definition_of_origin (entity.origin_forget.trans horigin)
    rw [entity.definition?_forget] at hplain
    obtain ⟨definition, hdefinition, rfl⟩ := Option.map_eq_some_iff.mp hplain
    exact ⟨⟨definition, TypeEntity.definition?_eq_some_iff.mp hdefinition, hindex⟩, hback⟩
  · intro usage horigin
    rw [horigin] at hback
    have hnone := hdepicts.definition?_eq_none_of_origin (entity.origin_forget.trans horigin)
    rw [entity.definition?_forget, Option.map_eq_none_iff] at hnone
    refine ⟨fun definition hshape => ?_, hback⟩
    rw [TypeEntity.definition?_eq_some_iff.mpr hshape] at hnone
    cases hnone

end TypeModel

/-- In an image whose types are tangled, a vector is made deep inside a request for its own element,
between two requests that fail. Asked for by the usage that it was made from, it is found. -/
theorem TypeModel.leadsBack_tangle :
    ((TypeModel.new .tangle .standard).askEach
        [.definition ⟨2⟩, .definition ⟨0⟩, .definition ⟨2⟩]).1 =
        [.error (.indexOutOfRange .string 9 1), .ok (some ⟨6⟩),
          .error (.indexOutOfRange .string 9 1)] ∧
      (((TypeModel.new .tangle .standard).askEach
        [.definition ⟨2⟩, .definition ⟨0⟩, .definition ⟨2⟩]).2.get ⟨8⟩).map TypeEntity.origin =
          .ok (.usage (.vector ⟨8⟩)) ∧
      ((TypeModel.new .tangle .standard).askEach
        [.definition ⟨2⟩, .definition ⟨0⟩, .definition ⟨2⟩]).2.resolveUsage (.vector ⟨8⟩) =
          (.ok ⟨8⟩, ((TypeModel.new .tangle .standard).askEach
            [.definition ⟨2⟩, .definition ⟨0⟩, .definition ⟨2⟩]).2) := by
  have horigin : (((TypeModel.new .tangle .standard).askEach
      [.definition ⟨2⟩, .definition ⟨0⟩, .definition ⟨2⟩]).2.get ⟨8⟩).map TypeEntity.origin =
        .ok (.usage (.vector ⟨8⟩)) := by cbv
  have hall : ((TypeModel.new .tangle .standard).askEach
      [.definition ⟨2⟩, .definition ⟨0⟩, .definition ⟨2⟩]).2.all = [⟨6⟩, ⟨7⟩, ⟨8⟩, ⟨9⟩] := by cbv
  obtain ⟨entity, hentity, hback⟩ :=
    leadsBack (reachable_askEach .new [.definition ⟨2⟩, .definition ⟨0⟩, .definition ⟨2⟩])
      (hall ▸ (by decide : TypeId.mk 8 ∈ [TypeId.mk 6, ⟨7⟩, ⟨8⟩, ⟨9⟩]))
  refine ⟨by cbv, horigin, (hback.usage _ ?_).2⟩
  rw [hentity] at horigin
  exact Except.ok.inj horigin

end TypeGraph
