import Mathlib
import TypeGraph.Proofs.LiveTrees
import TypeGraph.Proofs.Reachability

/-!
# Open types

A type is open if a generic parameter occurs in it: it is one, or it encloses one as the element of
an array, as what a pointer points to, or as an argument of an instantiation, at any depth.
Definitions enclose nothing, whatever they derive from and whatever their members mention.

Entities carry a flag that says so. The flag is written when the entity is made, from the answers of
the arena about the enclosed types, and never looked at again. At that moment an enclosed definition
may be without entity, if the request is still on its way from it; it answers by its key then, as it
will once it is filled. So a flag is as good as the flags that it was made from, and by induction on
the tree of the type it is exact.

## Main definitions

* `TypeShape.enclosed` — the types that a shape encloses directly
* `Arena.IsOpen` — a generic parameter is reached from a type through enclosed types

## Main results

* `Arena.Depicts.flag_iff` — the flag of an entity, from those of what it encloses
* `Arena.Honest.flag_iff_isOpen` — what an arena answers about a live type is exact
* `TypeModel.containsParameters_iff_isOpen` — and so is the flag of every live entity
-/

namespace TypeGraph

/-! ### Enclosed types -/

/-- The types that a shape encloses: an element, what is pointed to, or the arguments of an
instantiation. The definition that an instantiation applies is not enclosed in it. -/
def TypeShape.enclosed : TypeShape → List TypeId
  | definition _ => []
  | genericInstance _ _ arguments => arguments
  | array element _ _ => [element]
  | pointer pointee => [pointee]
  | genericParameter .. => []

/-- Whatever a shape encloses is an operand of it. -/
theorem TypeShape.mem_operands_of_mem_enclosed {shape : TypeShape} {id : TypeId}
    (h : id ∈ shape.enclosed) : id ∈ shape.operands := by
  cases shape with
  | genericInstance head index arguments => exact List.mem_cons_of_mem _ h
  | definition | array | pointer | genericParameter => exact h

namespace TypeEntity

variable (entity : TypeEntity)

@[simp] theorem enclosed_forget : entity.forget.shape.enclosed = entity.shape.enclosed := by
  rw [forget]
  split
  · next definition hshape => rw [hshape]; rfl
  · rfl

@[simp] theorem containsParameters_forget :
    entity.forget.containsParameters = entity.containsParameters := by
  rw [forget]
  split <;> rfl

@[simp] theorem isGenericParameter_forget :
    entity.forget.isGenericParameter = entity.isGenericParameter := by
  rw [forget]
  split
  · next definition hshape => rw [isGenericParameter, isGenericParameter, hshape]
  · rfl

end TypeEntity

namespace Arena

variable {store : Store} {limit : Nat} {arena : Arena} {tree : TypeTree} {id : TypeId}
  {entity : TypeEntity}

/-- One type directly encloses another. -/
def Encloses (arena : Arena) (id id' : TypeId) : Prop :=
  ∃ entity, arena.get id = .ok entity ∧ id' ∈ entity.shape.enclosed

/-- A type is open if it is a generic parameter, or encloses one at any depth. -/
def IsOpen (arena : Arena) (id : TypeId) : Prop :=
  ∃ parameter entity, Relation.ReflTransGen arena.Encloses id parameter ∧
    arena.get parameter = .ok entity ∧ entity.isGenericParameter = true

/-- A type is open exactly if it is a generic parameter, or one that it encloses is open. -/
theorem isOpen_iff (found : arena.get id = .ok entity) :
    arena.IsOpen id ↔
      entity.isGenericParameter = true ∨ ∃ inner ∈ entity.shape.enclosed, arena.IsOpen inner := by
  constructor
  · rintro ⟨parameter, last, hpath, hlast, hparameter⟩
    rcases hpath.cases_head with rfl | ⟨inner, ⟨first, hfirst, hinner⟩, hpath⟩
    · obtain rfl := Except.ok.inj (found.symm.trans hlast)
      exact .inl hparameter
    · obtain rfl := Except.ok.inj (found.symm.trans hfirst)
      exact .inr ⟨inner, hinner, parameter, last, hpath, hlast, hparameter⟩
  · rintro (hparameter | ⟨inner, hinner, parameter, last, hpath, hlast, hparameter⟩)
    · exact ⟨id, entity, .refl, found, hparameter⟩
    · exact ⟨parameter, last, .head ⟨entity, found, hinner⟩ hpath, hlast, hparameter⟩

/-! ### Flags -/

/-- A placeholder is flagged, and a composite exactly if something that it encloses is. -/
theorem Makes.flag_iff {attributes : TypeAttributes} {flag : Bool} {shape : TypeShape}
    (h : arena.Makes store tree attributes flag shape) (hshape : entity.shape = shape) :
    flag = true ↔ entity.isGenericParameter = true ∨
      ∃ inner ∈ entity.shape.enclosed, arena.containsParameters inner = .ok true := by
  have hone {inner : TypeId} {flag : Bool} (flagged : arena.containsParameters inner = .ok flag) :
      flag = true ↔ ∃ other ∈ [inner], arena.containsParameters other = .ok true := by
    simp [flagged]
  rw [TypeEntity.isGenericParameter, hshape]
  cases h with
  | genericParameter found => simp
  | genericInstance generic operands flagged =>
    rw [mapM_eq_ok_iff] at flagged
    simp only [Bool.false_eq_true, false_or, List.any_eq_true, id_eq]
    constructor
    · rintro ⟨flag, hmem, rfl⟩
      exact exists_mem_of_forall₂ flagged hmem
    · rintro ⟨inner, hmem, hinner⟩
      obtain ⟨flag, hflag, hsame⟩ := exists_mem_of_forall₂ flagged.flip hmem
      obtain rfl := Except.ok.inj (hinner.symm.trans hsame)
      exact ⟨true, hflag, rfl⟩
  | array operand flagged | vector operand flagged | pointer operand flagged =>
    simp only [Bool.false_eq_true, false_or]
    exact hone flagged

/-- **The flag of an entity follows from those of what it encloses.** A definition encloses nothing
and is not flagged. -/
theorem Depicts.flag_iff (h : arena.Depicts store limit tree entity) :
    entity.containsParameters = true ↔ entity.isGenericParameter = true ∨
      ∃ inner ∈ entity.shape.enclosed, arena.containsParameters inner = .ok true := by
  cases h with
  | definition found portrays =>
    simp [Pending.entity, TypeEntity.isGenericParameter, TypeShape.enclosed]
  | usage denotes shallow makes => exact makes.flag_iff rfl

/-- **What an arena answers about a live type is exact.** -/
theorem Honest.flag_iff_isOpen (honest : arena.Honest store limit)
    (sound : arena.Sound store limit) (found : arena.idOf tree = some id) :
    arena.containsParameters id = .ok true ↔ arena.IsOpen id := by
  induction tree using TypeTree.partsInduction generalizing id with
  | step tree ih =>
    obtain ⟨entity, hentity, -, -, hdepicts⟩ := honest.exists_of_idOf sound found
    have hflag := hdepicts.flag_iff
    rw [entity.containsParameters_forget, entity.isGenericParameter_forget,
      entity.enclosed_forget] at hflag
    -- what is enclosed stands for a part of the tree
    have hinner (inner : TypeId) (hmem : inner ∈ entity.shape.enclosed) :
        arena.containsParameters inner = .ok true ↔ arena.IsOpen inner := by
      have hoperand := entity.operands_forget ▸ TypeShape.mem_operands_of_mem_enclosed hmem
      obtain ⟨part, hpart, hid⟩ := exists_mem_of_idsOf hdepicts.idsOf_parts hoperand
      exact ih part hpart hid
    rw [containsParameters_of_entity? hentity, Except.ok.injEq, hflag,
      isOpen_iff (get_eq_ok_iff.mpr hentity)]
    exact or_congr_right (exists_congr fun inner => and_congr_right fun hmem => hinner inner hmem)

end Arena

/-! ### Live types -/

namespace TypeModel

variable {store : Store} {config : Config} {model : TypeModel} {id : TypeId}

/-- **The flag of a live entity is exact.** In every reachable model, an entity says that a generic
parameter occurs in its type if and only if one is reached from it through elements, pointees and
arguments. -/
theorem containsParameters_iff_isOpen (reachable : Reachable store config model)
    (live : id ∈ model.all) :
    ∃ entity, model.get id = .ok entity ∧
      (entity.containsParameters = true ↔ model.arena.IsOpen id) := by
  obtain ⟨tree, hid⟩ := (reachable.honest.mem_all_iff reachable.arenaSound).mp live
  obtain ⟨entity, hentity, -⟩ := reachable.honest.exists_of_idOf reachable.arenaSound hid
  refine ⟨entity, Arena.get_eq_ok_iff.mpr hentity, ?_⟩
  rw [← reachable.honest.flag_iff_isOpen reachable.arenaSound hid,
    Arena.containsParameters_of_entity? hentity, Except.ok.injEq]

end TypeModel

/-! ### An image with an open and a closed instantiation -/

/-- An image whose first definition derives from an instantiation that has two arguments: a vector
of an instantiation over the first definition itself, and a vector of pointers to a generic
parameter. -/
def Store.halfOpen : Store where
  definitions := #[{ parent := some ⟨0⟩ }, {}]
  usages := #[⟨1⟩]
  genericParameters := #[{ position := 3 }]
  mapped := Std.HashMap.emptyWithCapacity
    |>.insert ⟨1⟩ (.usage (.genericInstance ⟨2⟩)) |>.insert ⟨2⟩ (.genericClass ⟨⟨1⟩, ⟨3⟩⟩)
    |>.insert ⟨3⟩ (.genericInstantiation ⟨2, ⟨4⟩⟩) |>.insert ⟨4⟩ (.argumentList [⟨5⟩, ⟨10⟩])
    |>.insert ⟨5⟩ (.usage (.vector ⟨6⟩)) |>.insert ⟨6⟩ (.usage (.genericInstance ⟨7⟩))
    |>.insert ⟨7⟩ (.genericClass ⟨⟨1⟩, ⟨8⟩⟩) |>.insert ⟨8⟩ (.genericInstantiation ⟨1, ⟨9⟩⟩)
    |>.insert ⟨9⟩ (.argumentList [⟨13⟩]) |>.insert ⟨10⟩ (.usage (.vector ⟨11⟩))
    |>.insert ⟨11⟩ (.usage (.pointer ⟨12⟩)) |>.insert ⟨12⟩ (.usage (.genericParameter ⟨0⟩ false))
    |>.insert ⟨13⟩ (.usage (.definition ⟨0⟩))

/-- When the two instantiations are made, neither definition is filled. The inner one is closed, and
so is the vector of it; the outer one is open, since its second argument is. -/
theorem TypeModel.containsParameters_iff_isOpen_halfOpen :
    ((TypeModel.new .halfOpen .standard).askEach [.definition ⟨0⟩]).2.all =
        [⟨0⟩, ⟨1⟩, ⟨2⟩, ⟨3⟩, ⟨4⟩, ⟨5⟩, ⟨6⟩, ⟨7⟩] ∧
      ((TypeModel.new .halfOpen .standard).askEach [.definition ⟨0⟩]).2.arena.IsOpen ⟨7⟩ ∧
      ¬ ((TypeModel.new .halfOpen .standard).askEach [.definition ⟨0⟩]).2.arena.IsOpen ⟨3⟩ := by
  have hall : ((TypeModel.new .halfOpen .standard).askEach [.definition ⟨0⟩]).2.all =
      [⟨0⟩, ⟨1⟩, ⟨2⟩, ⟨3⟩, ⟨4⟩, ⟨5⟩, ⟨6⟩, ⟨7⟩] := by cbv
  have hopen : (((TypeModel.new .halfOpen .standard).askEach [.definition ⟨0⟩]).2.get ⟨7⟩).map
      TypeEntity.containsParameters = .ok true := by cbv
  have hclosed : (((TypeModel.new .halfOpen .standard).askEach [.definition ⟨0⟩]).2.get ⟨3⟩).map
      TypeEntity.containsParameters = .ok false := by cbv
  have hreachable : Reachable .halfOpen .standard
      ((TypeModel.new .halfOpen .standard).askEach [.definition ⟨0⟩]).2 := reachable_askEach .new _
  have hlive {id : TypeId} (h : id ∈ [TypeId.mk 3, ⟨7⟩]) :
      id ∈ ((TypeModel.new .halfOpen .standard).askEach [.definition ⟨0⟩]).2.all := by
    rw [hall]
    fin_cases h <;> decide
  refine ⟨hall, ?_, ?_⟩
  · obtain ⟨entity, hentity, hexact⟩ :=
      containsParameters_iff_isOpen hreachable (hlive (List.mem_cons_of_mem _ (.head _)))
    rw [hentity] at hopen
    exact hexact.mp (Except.ok.inj hopen)
  · obtain ⟨entity, hentity, hexact⟩ := containsParameters_iff_isOpen hreachable (hlive (.head _))
    rw [hentity] at hclosed
    exact hexact.not.mp (ne_true_of_eq_false (Except.ok.inj hclosed))

end TypeGraph
