import TypeGraph.Proofs.Identity
import TypeGraph.Proofs.Reading

/-!
# What types are built from

A composite has parts: as a tree, the trees that it is built from, and as a key, the handles of
these. An instantiation counts the definition that it applies among its parts, and a definition has
none, since its base is no part of what it is.

## Main definitions

* `TypeTree.parts` — the trees that a tree is built from
* `TypeKey.operands` — the handles that a key mentions

## Main results

* `TypeTree.partsInduction` — induction over trees, with a hypothesis for every part
* `Arena.idsOf_parts` — the operands of the key of a tree are the handles of its parts
-/

namespace TypeGraph

/-! ### Trees -/

namespace TypeTree

/-- The trees that a tree is built from. The head of an instantiation is one of them. -/
def parts : TypeTree → List TypeTree
  | definition _ => []
  | genericInstance index arguments => definition index :: arguments
  | array element _ => [element]
  | vector element => [element]
  | pointer pointee => [pointee]
  | genericParameter .. => []

/-- Induction over trees, with a hypothesis for every part. -/
@[elab_as_elim]
theorem partsInduction {motive : TypeTree → Prop} (tree : TypeTree)
    (step : ∀ tree, (∀ part ∈ tree.parts, motive part) → motive tree) : motive tree := by
  have hdefinition (index : DefinitionIndex) : motive (definition index) := step _ nofun
  induction tree using TypeTree.induction with
  | definition index => exact hdefinition index
  | genericInstance index arguments ih =>
    exact step _ (List.forall_mem_cons.mpr ⟨hdefinition index, ih⟩)
  | array element rank ih => exact step _ (List.forall_mem_singleton.mpr ih)
  | vector element ih => exact step _ (List.forall_mem_singleton.mpr ih)
  | pointer pointee ih => exact step _ (List.forall_mem_singleton.mpr ih)
  | genericParameter index ofMethod => exact step _ nofun

end TypeTree

/-! ### Keys -/

/-- The handles that a key mentions. -/
def TypeKey.operands : TypeKey → List TypeId
  | definition _ => []
  | genericInstance generic arguments => generic :: arguments
  | array element _ => [element]
  | vector element => [element]
  | pointer pointee => [pointee]
  | genericParameter .. => []

/-- The key of a shape mentions its operands. -/
theorem TypeShape.operands_key (shape : TypeShape) : shape.key.operands = shape.operands := by
  cases shape with
  | array element rank isVector => cases isVector <;> rfl
  | _ => rfl

namespace Arena

variable {arena : Arena} {tree : TypeTree}

theorem idsOf_eq_some_iff {trees : List TypeTree} {ids : List TypeId} :
    arena.idsOf trees = some ids ↔
      List.Forall₂ (fun tree id => arena.idOf tree = some id) trees ids := by
  induction trees generalizing ids with
  | nil =>
    rw [List.forall₂_nil_left_iff, idsOf, Option.some.injEq]
    exact eq_comm
  | cons tree rest ih =>
    rw [idsOf_cons, List.forall₂_cons_left_iff]
    constructor
    · rintro ⟨id, others, hid, hothers, rfl⟩
      exact ⟨id, others, hid, ih.mp hothers, rfl⟩
    · rintro ⟨id, others, hid, hothers, rfl⟩
      exact ⟨id, others, hid, ih.mpr hothers, rfl⟩

theorem exists_mem_of_idsOf {trees : List TypeTree} {ids : List TypeId}
    (found : arena.idsOf trees = some ids) {id : TypeId} (mem : id ∈ ids) :
    ∃ tree ∈ trees, arena.idOf tree = some id :=
  exists_mem_of_forall₂ (idsOf_eq_some_iff.mp found) mem

/-- **The operands of the key of a tree are the handles of its parts.** -/
theorem idsOf_parts {key : TypeKey} (h : arena.keyOf tree = some key) :
    arena.idsOf tree.parts = some key.operands := by
  cases tree with
  | definition index | genericParameter index ofMethod =>
    obtain rfl := Option.some.inj h
    rfl
  | genericInstance index arguments =>
    obtain ⟨head, ids, hhead, hids, rfl⟩ := keyOf_genericInstance.mp h
    exact idsOf_cons.mpr ⟨head, ids, by rw [idOf]; exact hhead, hids, rfl⟩
  | array element | vector element | pointer element =>
    obtain ⟨id, hid, rfl⟩ := Option.map_eq_some_iff.mp h
    exact idsOf_cons.mpr ⟨id, [], hid, rfl, rfl⟩

end Arena

end TypeGraph
