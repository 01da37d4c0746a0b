import Mathlib
import TypeGraph.Proofs.Reachability

/-!
# When a question is answered

Whether a definition can be resolved is decided by the image alone. Everything that resolving it
could ever read has to be there: its own records, and those of every definition that it leads to
through the trees of parents. Nothing else can go wrong, whatever a model has resolved before.

## Main definitions

* `Store.Readable` — a usage denotes a tree that is not too deep
* `Store.LocallySound` — the records of one definition are all there

## Main results

* `Store.locallySound_iff` — a definition is locally sound exactly if it can be read
* `TypeModel.resolve_isOk_iff` — a question is answered exactly if its tree and all that the tree
  leads to can be read
* `TypeModel.succeeds_iff_locallySound` — the same for definitions and for usages, in terms of
  records
-/

namespace TypeGraph

/-! ### Local soundness -/

namespace Store

/-- A usage denotes a tree in which no more composites lie inside each other than the limit
allows. -/
def Readable (store : Store) (limit : Nat) (usage : TypeUsage) (tree : TypeTree) : Prop :=
  Denotes store usage tree ∧ tree.depth ≤ limit

/-- A field exists, and its name can be read. -/
def FieldSound (store : Store) (index : FieldIndex) : Prop :=
  ∃ row, store.field index = .ok row ∧ ∃ name, store.string row.name = .ok name

/-- A parameter exists, and its name can be read. -/
def ParameterSound (store : Store) (index : ParameterIndex) : Prop :=
  ∃ row, store.parameter index = .ok row ∧ ∃ name, store.string row.name = .ok name

/-- A method exists, its name can be read, and all its parameters are sound. -/
def MethodSound (store : Store) (index : MethodIndex) : Prop :=
  ∃ row, store.method index = .ok row ∧ (∃ name, store.string row.name = .ok name) ∧
    ∀ parameter ∈ row.parameterStart.run row.parameterCount, store.ParameterSound parameter

/-- The records of a definition are all there: its row, its strings, the tree of its parent if it
has one, and its members. -/
def LocallySound (store : Store) (limit : Nat) (index : DefinitionIndex) : Prop :=
  ∃ row, store.definition index = .ok row ∧
    (∃ namespaceName, store.string row.namespaceName = .ok namespaceName) ∧
    (∃ name, store.string row.name = .ok name) ∧
    (∀ parent, row.parent = some parent →
      ∃ usage tree, store.usage parent = .ok usage ∧ store.Readable limit usage tree) ∧
    (∀ field ∈ row.fieldStart.run row.fieldCount, store.FieldSound field) ∧
    ∀ method ∈ row.methodStart.run row.methodCount, store.MethodSound method

variable {store : Store} {limit : Nat}

theorem exists_readField_iff {owner : TypeId} {index : FieldIndex} :
    (∃ field, Field.read store owner index = .ok field) ↔ store.FieldSound index := by
  simp [Field.read, FieldSound, bind_eq_ok_iff, pure, Except.pure]

theorem exists_readParameter_iff {index : ParameterIndex} {position : Nat} :
    (∃ parameter, Parameter.read store index position = .ok parameter) ↔
      store.ParameterSound index := by
  simp [Parameter.read, ParameterSound, bind_eq_ok_iff, pure, Except.pure]

theorem exists_readMethod_iff {owner : TypeId} {index : MethodIndex} :
    (∃ method, Method.read store owner index = .ok method) ↔ store.MethodSound index := by
  have hparameters (run : List ParameterIndex) :
      (∃ parameters, run.zipIdx.mapM (fun (parameter, position) =>
          Parameter.read store parameter position) = .ok parameters) ↔
        ∀ parameter ∈ run, store.ParameterSound parameter := by
    rw [exists_mapM_iff]
    simp only [exists_readParameter_iff]
    conv => rhs; rw [← run.zipIdx_map_fst 0, List.forall_mem_map]
  rw [MethodSound]
  simp only [← hparameters]
  simp only [Method.read, bind_eq_ok_iff]
  constructor
  · rintro ⟨method, row, hrow, parameters, hparameters, name, hname, -⟩
    exact ⟨row, hrow, ⟨name, hname⟩, parameters, hparameters⟩
  · rintro ⟨row, hrow, ⟨name, hname⟩, parameters, hparameters⟩
    exact ⟨_, row, hrow, parameters, hparameters, name, hname, rfl⟩

theorem exists_readFields_iff {owner : TypeId} {row : TypeDefinition} :
    (∃ fields, row.readFields store owner = .ok fields) ↔
      ∀ field ∈ row.fieldStart.run row.fieldCount, store.FieldSound field := by
  rw [TypeDefinition.readFields, exists_mapM_iff]
  simp only [exists_readField_iff]

theorem exists_readMethods_iff {owner : TypeId} {row : TypeDefinition} :
    (∃ methods, row.readMethods store owner = .ok methods) ↔
      ∀ method ∈ row.methodStart.run row.methodCount, store.MethodSound method := by
  rw [TypeDefinition.readMethods, exists_mapM_iff]
  simp only [exists_readMethod_iff]

theorem exists_readParent_iff {row : TypeDefinition} :
    (∃ parent, store.readParent limit row = .ok parent) ↔
      ∀ parent, row.parent = some parent →
        ∃ usage tree, store.usage parent = .ok usage ∧ store.Readable limit usage tree := by
  simp only [readParent_eq_ok_iff]
  cases row.parent with
  | none => exact ⟨fun _ => nofun, fun _ => ⟨none, trivial⟩⟩
  | some index =>
    constructor
    · rintro ⟨parent, h⟩ index' hindex
      obtain rfl := Option.some.inj hindex
      cases parent with
      | none => cases h
      | some tree =>
        obtain ⟨usage, husage, hreadable⟩ := h
        exact ⟨usage, tree, husage, hreadable⟩
    · intro h
      obtain ⟨usage, tree, husage, hreadable⟩ := h index rfl
      exact ⟨some tree, usage, husage, hreadable⟩

/-- **A definition is locally sound exactly if it can be read.** -/
theorem locallySound_iff {index : DefinitionIndex} :
    store.LocallySound limit index ↔ ∃ parent, store.readDefinition limit index = .ok parent := by
  simp only [readDefinition_eq_ok_iff]
  constructor
  · rintro ⟨row, hrow, hnamespaceName, hname, hparent, hfields, hmethods⟩
    obtain ⟨parent, hparent⟩ := exists_readParent_iff.mpr hparent
    exact ⟨parent, row, hrow, hnamespaceName, hname, hparent, exists_readFields_iff.mpr hfields,
      exists_readMethods_iff.mpr hmethods⟩
  · rintro ⟨parent, row, hrow, hnamespaceName, hname, hparent, hfields, hmethods⟩
    exact ⟨row, hrow, hnamespaceName, hname, exists_readParent_iff.mp ⟨parent, hparent⟩,
      exists_readFields_iff.mp hfields, exists_readMethods_iff.mp hmethods⟩

end Store

/-! ### Answered questions -/

namespace TypeModel

variable {model : TypeModel}

/-- Whatever the tree of an answered question leads to is locally sound. -/
theorem locallySound_of_resolve_eq_ok (sound : model.Sound) {query : Query} {id : TypeId}
    (answered : (query.resolve model).1 = .ok id) :
    ∃ tree, query.readTree model.store model.config.maxDepth = .ok tree ∧
      ∀ index ∈ tree.definitions, ∀ other, model.store.LeadsTo index other →
        model.store.LocallySound model.config.maxDepth other := by
  obtain ⟨tree, after, hread, steps, idle, hid, -⟩ := exists_of_resolve_eq_ok sound answered
  have hafter : after.arena.Sound model.store model.config.maxDepth :=
    .of_transaction (Transaction.Sound.steps sound steps) idle
  refine ⟨tree, hread, fun index hindex other hleads => Store.locallySound_iff.mpr ?_⟩
  have hknown := Arena.knows_of_idOf (Option.isSome_of_mem hid) hindex
  obtain ⟨parent, hparent, -⟩ := hafter.settled_knows (hafter.leadsTo hknown hleads)
  exact ⟨parent, hparent⟩

/-- **A question is answered exactly if its tree and all that the tree leads to can be read.** -/
theorem resolve_isOk_iff (sound : model.Sound) (query : Query) :
    (∃ id, (query.resolve model).1 = .ok id) ↔
      ∃ tree, query.readTree model.store model.config.maxDepth = .ok tree ∧
        ∀ index ∈ tree.definitions, ∀ other, model.store.LeadsTo index other →
          model.store.LocallySound model.config.maxDepth other := by
  constructor
  · rintro ⟨id, answered⟩
    exact locallySound_of_resolve_eq_ok sound answered
  · rintro ⟨tree, hread, hall⟩
    obtain ⟨result, hends, hanswers⟩ := exists_answers sound query
    rw [hread] at hends
    cases hends with
    | @goesOn _ outcome hsettles =>
      cases outcome with
      | ok _ => exact exists_ok_of_outcome hanswers.outcome_eq.symm ⟨tree, rfl⟩
      | error fault =>
        -- a definition that cannot be read was named by the tree, or is led to by one that was
        obtain ⟨first, hfirst, broken, hleads, hbroken⟩ := hsettles.exists_of_error
        rcases Agenda.mem_waiting_meetAll hfirst with hnamed | hwaits
        · obtain ⟨parent, hparent⟩ := Store.locallySound_iff.mp (hall first hnamed broken hleads)
          rw [hbroken] at hparent
          cases hparent
        · cases hwaits

/-- A definition is asked for by its row, and its tree is itself. -/
theorem readTree_definition_iff {store : Store} {limit : Nat} {index : DefinitionIndex}
    {tree : TypeTree} :
    (Query.definition index).readTree store limit = .ok tree ↔
      (∃ row, store.definition index = .ok row) ∧ tree = .definition index := by
  have hread : (Query.definition index).readTree store limit =
      store.readTree limit limit (.definition index) := rfl
  rw [hread, Store.readTree_eq_ok_iff, denotes_definition_iff]
  refine and_iff_left_of_imp ?_
  rintro ⟨-, rfl⟩
  exact Nat.zero_le _

/-- **When a definition and when a usage is resolved.** In every reachable model, a definition is
resolved exactly if it and everything that it leads to is locally sound, and a usage exactly if its
tree is readable and everything that the tree leads to is locally sound. -/
theorem succeeds_iff_locallySound {store : Store} {config : Config}
    (reachable : Reachable store config model) :
    (∀ index, (∃ id, (model.resolveDefinition index).1 = .ok id) ↔
      ∀ other, store.LeadsTo index other → store.LocallySound config.maxDepth other) ∧
    ∀ usage, (∃ id, (model.resolveUsage usage).1 = .ok id) ↔
      ∃ tree, store.Readable config.maxDepth usage tree ∧
        ∀ index ∈ tree.definitions, ∀ other, store.LeadsTo index other →
          store.LocallySound config.maxDepth other := by
  have hresolve := resolve_isOk_iff reachable.sound
  rw [reachable.sameImage.1, reachable.sameImage.2] at hresolve
  refine ⟨fun index => (hresolve (.definition index)).trans ?_, fun usage =>
    (hresolve (.usage usage)).trans ?_⟩
  · simp only [readTree_definition_iff]
    constructor
    · rintro ⟨tree, ⟨-, rfl⟩, hall⟩
      exact hall index List.mem_cons_self
    · intro hall
      obtain ⟨row, hrow, -⟩ := hall index .refl
      refine ⟨_, ⟨⟨row, hrow⟩, rfl⟩, fun other hother => ?_⟩
      obtain rfl := List.mem_singleton.mp hother
      exact hall
  · refine exists_congr fun tree => and_congr_left' ?_
    exact Store.readTree_eq_ok_iff

end TypeModel

/-! ### An image with a cycle -/

/-- An image in which a definition derives from a vector of another one, which derives from the
first. -/
def Store.cycle : Store where
  definitions := #[{ parent := some ⟨0⟩ }, { parent := some ⟨1⟩ }]
  usages := #[⟨1⟩, ⟨3⟩]
  mapped := Std.HashMap.emptyWithCapacity
    |>.insert ⟨1⟩ (.usage (.vector ⟨2⟩)) |>.insert ⟨2⟩ (.usage (.definition ⟨1⟩))
    |>.insert ⟨3⟩ (.usage (.definition ⟨0⟩))

/-- Each of the definitions leads to the other, and both are resolved. -/
theorem TypeModel.succeeds_iff_locallySound_cycle :
    ((TypeModel.new .cycle .standard).resolveDefinition ⟨0⟩).1 = .ok ⟨0⟩ ∧
      (∀ index, (∃ id, ((TypeModel.new .cycle .standard).resolveDefinition index).1 = .ok id) ↔
        ∀ other, Store.cycle.LeadsTo index other →
          Store.cycle.LocallySound Config.standard.maxDepth other) ∧
      ∀ usage, (∃ id, ((TypeModel.new .cycle .standard).resolveUsage usage).1 = .ok id) ↔
        ∃ tree, Store.cycle.Readable Config.standard.maxDepth usage tree ∧
          ∀ index ∈ tree.definitions, ∀ other, Store.cycle.LeadsTo index other →
            Store.cycle.LocallySound Config.standard.maxDepth other := by
  refine ⟨by cbv, ?_⟩
  exact succeeds_iff_locallySound .new

end TypeGraph
