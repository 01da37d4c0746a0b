import Mathlib
import TypeGraph.Proofs.Reachability

/-!
# Canonical identity

A model hands out one handle for each type: whatever it is asked, and in whatever order, two answers
are the same handle exactly if the trees that were asked for are equal. A history keeps every
handle, so both answers can be compared in the arena at its end, where no handle stands for two
trees.

What a usage looks like where a type is used has no part in its tree. Usages that are `Alike` differ
in such decoration only.

## Main definitions

* `TypeUsage.Alike` — usages that differ in decoration only

## Main results

* `Denotes.of_alike` — usages that are alike denote the same trees
* `TypeModel.id_eq_iff_tree_eq` — two answers of a history are equal if and only if the trees are
-/

namespace TypeGraph

/-! ### Decoration -/

/-- The kinds whose operand is a definition. -/
def ElementKind.isDefinition : ElementKind → Bool
  | primitive _ | valueType | classType => true
  | _ => false

namespace TypeUsage

variable {usage usage' : TypeUsage}

/-- A usage stands for a definition, be it a built-in type, a value type or a reference type. -/
def IsDefinition (usage : TypeUsage) : Prop :=
  ∃ kind, ElementKind.ofByte? usage.kind = some kind ∧ kind.isDefinition = true

/-- Two usages are alike if they have the same operand, and the same kind up to the kinds that stand
for a definition. Attributes and passing by reference may differ. -/
def Alike (usage usage' : TypeUsage) : Prop :=
  usage.data = usage'.data ∧
    (usage.kind = usage'.kind ∨ usage.IsDefinition ∧ usage'.IsDefinition)

/-- A usage that stands for a definition has the shape of one, or that of a built-in type. -/
theorem IsDefinition.shape (h : usage.IsDefinition) :
    usage.shape = usage.operandIndex.map .definition ∨
      ∃ kind, usage.shape = usage.operandIndex.map (.primitive kind) := by
  obtain ⟨kind, hkind, hdefinition⟩ := h
  cases kind with
  | primitive kind => exact .inr ⟨kind, by rw [TypeUsage.shape, hkind]⟩
  | valueType => exact .inl (by rw [TypeUsage.shape, hkind])
  | classType => exact .inl (by rw [TypeUsage.shape, hkind])
  | _ => cases hdefinition

theorem shape_eq_of_kind_eq (data : usage.data = usage'.data) (kind : usage.kind = usage'.kind) :
    usage.shape = usage'.shape := by
  simp only [TypeUsage.shape, operandIndex, operandAddress, data, kind]

theorem operandIndex_of_data_eq {table : Table} {index : Index table}
    (data : usage.data = usage'.data) (h : usage.operandIndex = .ok index) :
    usage'.operandIndex = .ok index := by
  rw [operandIndex, ← data]
  rw [operandIndex] at h
  split at h
  · next hbound => rw [if_pos hbound, h]
  · cases h

end TypeUsage

namespace Denotes

variable {store : Store} {usage usage' : TypeUsage} {tree : TypeTree}

/-- The tree of a usage depends on its shape alone. -/
theorem of_shape_eq (same : usage.shape = usage'.shape) (h : Denotes store usage tree) :
    Denotes store usage' tree := by
  cases h with
  | definition shape found => exact .definition (same ▸ shape) found
  | primitive shape found => exact .primitive (same ▸ shape) found
  | genericParameter shape found => exact .genericParameter (same ▸ shape) found
  | genericInstance shape head found applies listed reads count each =>
    exact .genericInstance (same ▸ shape) head found applies listed reads count each
  | array shape described counted ranked reads inner =>
    exact .array (same ▸ shape) described counted ranked reads inner
  | vector shape reads inner => exact .vector (same ▸ shape) reads inner
  | pointer shape reads inner => exact .pointer (same ▸ shape) reads inner

theorem of_isDefinition {index : DefinitionIndex} {row : TypeDefinition}
    (definition : usage.IsDefinition) (operand : usage.operandIndex = .ok index)
    (found : store.definition index = .ok row) : Denotes store usage (.definition index) := by
  rcases definition.shape with hshape | ⟨kind, hshape⟩ <;> rw [operand] at hshape
  · exact .definition hshape found
  · exact .primitive hshape found

/-- A usage that stands for a definition denotes the definition at its operand. -/
theorem exists_of_isDefinition (definition : usage.IsDefinition) (h : Denotes store usage tree) :
    ∃ index row, usage.operandIndex = .ok index ∧ store.definition index = .ok row ∧
      tree = .definition index := by
  cases hoperand : (usage.operandIndex : Except Fault DefinitionIndex) with
  | error fault =>
    rcases definition.shape with hshape | ⟨kind, hshape⟩ <;> rw [hoperand] at hshape <;>
      cases h <;> simp_all [Except.map]
  | ok index =>
    rcases definition.shape with hshape | ⟨kind, hshape⟩ <;> rw [hoperand] at hshape <;>
      cases h <;> simp_all [Except.map]

/-- **Usages that are alike denote the same trees.** -/
theorem of_alike (alike : usage.Alike usage') (h : Denotes store usage tree) :
    Denotes store usage' tree := by
  obtain ⟨hdata, hkind | ⟨hdefinition, hdefinition'⟩⟩ := alike
  · exact h.of_shape_eq (TypeUsage.shape_eq_of_kind_eq hdata hkind)
  · obtain ⟨index, row, hoperand, hrow, rfl⟩ := h.exists_of_isDefinition hdefinition
    exact of_isDefinition hdefinition' (TypeUsage.operandIndex_of_data_eq hdata hoperand) hrow

end Denotes

/-! ### Histories -/

namespace TypeModel

variable {model : TypeModel}

/-- Each answer of a history is the handle that its tree has at the end. -/
theorem exists_tree_of_askEach (sound : model.Sound) {requests : List Request} {position : Nat}
    {query : Query} {id : TypeId} (asked : requests[position]? = some query.request)
    (answered : (model.askEach requests).1[position]? = some (.ok (some id))) :
    ∃ tree, query.Denotes model.store tree ∧
      (model.askEach requests).2.arena.idOf tree = some id := by
  induction requests generalizing model position with
  | nil => cases asked
  | cons request rest ih =>
    have hsound := sound_ask sound request
    cases position with
    | zero =>
      obtain rfl : request = query.request := Option.some.inj asked
      have hanswer : (query.resolve model).1 = .ok id := by
        have hfirst : (model.ask query.request).1 = .ok (some id) := Option.some.inj answered
        rw [ask_request] at hfirst
        obtain ⟨first, hfirst, hsame⟩ := map_eq_ok_iff.mp hfirst
        rw [hfirst, Option.some.inj hsame]
      obtain ⟨tree, after, hread, -, -, hid, hafter⟩ := exists_of_resolve_eq_ok sound hanswer
      have hremembers := remembers_askEach hsound rest
      refine ⟨tree, Query.denotes_of_readTree hread, hremembers.idOf ?_⟩
      rw [ask_request, hafter, hid]
    | succ position =>
      obtain ⟨tree, hdenotes, hid⟩ := ih hsound asked answered
      rw [(sameImage_ask request model).1] at hdenotes
      exact ⟨tree, hdenotes, hid⟩

/-- **Canonical identity.** Of a new model that is asked a list of requests, any two answers to
questions for a type are the same handle if and only if the trees that were asked for are equal.
Each of the questions asks for one tree, and usages that are alike ask for the same one. -/
theorem id_eq_iff_tree_eq (store : Store) (config : Config) {requests : List Request}
    {position position' : Nat} {query query' : Query} {id id' : TypeId}
    (asked : requests[position]? = some query.request)
    (asked' : requests[position']? = some query'.request)
    (answered : ((TypeModel.new store config).askEach requests).1[position]? =
      some (.ok (some id)))
    (answered' : ((TypeModel.new store config).askEach requests).1[position']? =
      some (.ok (some id'))) :
    ∃ tree tree', (∀ other, query.Denotes store other ↔ other = tree) ∧
      (∀ other, query'.Denotes store other ↔ other = tree') ∧ (id = id' ↔ tree = tree') ∧
      ∀ usage usage', query = .usage usage → query' = .usage usage' → usage.Alike usage' →
        id = id' := by
  have hsound := sound_new store config
  have hdistinct : ((TypeModel.new store config).askEach requests).2.arena.KeysDistinct :=
    Transaction.Sound.keysDistinct (reachable_askEach .new requests).sound
  obtain ⟨tree, hdenotes, hid⟩ := exists_tree_of_askEach hsound asked answered
  obtain ⟨tree', hdenotes', hid'⟩ := exists_tree_of_askEach hsound asked' answered'
  have hiff : id = id' ↔ tree = tree' := by
    constructor
    · rintro rfl
      exact Arena.tree_eq_of_idOf hdistinct hid hid'
    · rintro rfl
      exact Option.some.inj (hid.symm.trans hid')
  refine ⟨tree, tree', fun other => ?_, fun other => ?_, hiff, ?_⟩
  · exact ⟨fun h => h.unique hdenotes, fun h => h ▸ hdenotes⟩
  · exact ⟨fun h => h.unique hdenotes', fun h => h ▸ hdenotes'⟩
  · rintro usage usage' rfl rfl halike
    exact hiff.mpr ((Denotes.of_alike halike hdenotes).unique hdenotes')

end TypeModel

/-! ### An image with pairs -/

/-- An image with a generic definition that is applied to two others, in either order, and with
arrays of one dimension and of two. -/
def Store.pairs : Store where
  definitions := #[{}, {}, {}]
  genericParameters := #[{}]
  mapped := Std.HashMap.emptyWithCapacity
    |>.insert ⟨1⟩ (.usage (.definition ⟨1⟩)) |>.insert ⟨2⟩ (.usage (.valueType ⟨2⟩))
    |>.insert ⟨3⟩ (.genericClass ⟨⟨0⟩, ⟨4⟩⟩) |>.insert ⟨4⟩ (.genericInstantiation ⟨2, ⟨5⟩⟩)
    |>.insert ⟨5⟩ (.argumentList [⟨1⟩, ⟨2⟩]) |>.insert ⟨6⟩ (.genericClass ⟨⟨0⟩, ⟨7⟩⟩)
    |>.insert ⟨7⟩ (.genericInstantiation ⟨2, ⟨8⟩⟩) |>.insert ⟨8⟩ (.argumentList [⟨2⟩, ⟨1⟩])
    |>.insert ⟨9⟩ (.arrayDescriptor ⟨⟨1⟩, 1, 0, 0⟩)
    |>.insert ⟨10⟩ (.arrayDescriptor ⟨⟨1⟩, 2, 0, 0⟩)

/-- Questions about an image with pairs. The second one fails, since there is no such row. -/
def Store.pairsHistory : List Request :=
  [.usage (.genericInstance ⟨3⟩), .definition ⟨3⟩, .usage (.genericInstance ⟨6⟩),
    .usage { TypeUsage.genericInstance ⟨3⟩ with attrs := 7, byRef := true },
    .usage (.definition ⟨2⟩), .usage (.valueType ⟨2⟩), .usage (.vector ⟨1⟩),
    .usage (.array ⟨9⟩), .usage (.array ⟨10⟩), .usage (.genericParameter ⟨0⟩ false),
    .usage (.genericParameter ⟨0⟩ true)]

/-- Neither attributes nor the kind of a definition make a difference. The order of arguments does,
and so does whether an array is a vector, how many dimensions it has, and whether a generic
parameter is that of a method. -/
theorem TypeModel.id_eq_iff_tree_eq_pairs :
    ((TypeModel.new .pairs .standard).askEach Store.pairsHistory).1 =
        [.ok (some ⟨3⟩), .error (.indexOutOfRange .typeDefinition 3 3), .ok (some ⟨4⟩),
          .ok (some ⟨3⟩), .ok (some ⟨2⟩), .ok (some ⟨2⟩), .ok (some ⟨5⟩), .ok (some ⟨6⟩),
          .ok (some ⟨7⟩), .ok (some ⟨8⟩), .ok (some ⟨9⟩)] ∧
      Denotes .pairs (.array ⟨10⟩) (.array (.definition ⟨1⟩) 2) ∧
      ∃ tree tree',
        (∀ other, (Query.usage (.genericInstance ⟨3⟩)).Denotes .pairs other ↔ other = tree) ∧
        (∀ other, (Query.usage (.genericInstance ⟨6⟩)).Denotes .pairs other ↔ other = tree') ∧
        ((⟨3⟩ : TypeId) = ⟨4⟩ ↔ tree = tree') ∧
        ∀ usage usage', Query.usage (.genericInstance ⟨3⟩) = .usage usage →
          Query.usage (.genericInstance ⟨6⟩) = .usage usage' → usage.Alike usage' →
            (⟨3⟩ : TypeId) = ⟨4⟩ := by
  have hanswers : ((TypeModel.new .pairs .standard).askEach Store.pairsHistory).1 =
      [.ok (some ⟨3⟩), .error (.indexOutOfRange .typeDefinition 3 3), .ok (some ⟨4⟩),
        .ok (some ⟨3⟩), .ok (some ⟨2⟩), .ok (some ⟨2⟩), .ok (some ⟨5⟩), .ok (some ⟨6⟩),
        .ok (some ⟨7⟩), .ok (some ⟨8⟩), .ok (some ⟨9⟩)] := by
    cbv
  have hasked : Store.pairsHistory[0]? = some (Query.usage (.genericInstance ⟨3⟩)).request := rfl
  have hasked' : Store.pairsHistory[2]? = some (Query.usage (.genericInstance ⟨6⟩)).request := rfl
  have hread : Store.pairs.readTree 1 1 (.array ⟨10⟩) = .ok (.array (.definition ⟨1⟩) 2) := by cbv
  refine ⟨hanswers, (Store.denotes_of_readTree hread).1,
    id_eq_iff_tree_eq .pairs .standard hasked hasked' ?_ ?_⟩
  · rw [hanswers]
    rfl
  · rw [hanswers]
    rfl

end TypeGraph
