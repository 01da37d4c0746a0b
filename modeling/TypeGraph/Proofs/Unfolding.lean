import Mathlib
import TypeGraph.Proofs.KeyIndex

/-!
# What a handle spells out

A usage and the type that it is resolved to are two drawings of one tree. The one is drawn with
addresses, the other with handles, and parts of the other may have been drawn from other usages, in
other requests, while the definitions in it were still empty. This module reads the second drawing
node by node, with all that a node says, and shows that nothing is lost: the tree is the one that
the usage denotes.

`Arena.tree` reads a tree back too, but leaves out what a tree has no place for: that a vector has
one dimension, and where a generic parameter stands and what it is called.

## Main definitions

* `Arena.Spells` — a handle spells out a tree

## Main results

* `Arena.Honest.spells_of_idOf` — the handle of a tree spells it out
* `TypeModel.spells_of_resolveUsage` — a usage is resolved to what spells out the tree that it
  denotes
-/

namespace TypeGraph

namespace Arena

/-- A handle spells out a tree if its entity says what is at the top of the tree, and the operands
of the entity spell out the rest. -/
inductive Spells (store : Store) (arena : Arena) : TypeId → TypeTree → Prop where
  | definition {id : TypeId} {entity : TypeEntity} {definition : Definition}
      (found : arena.get id = .ok entity) (shape : entity.shape = .definition definition) :
      Spells store arena id (.definition definition.index)
  | genericInstance {id head : TypeId} {entity : TypeEntity} {index : DefinitionIndex}
      {arguments : List TypeId} {trees : List TypeTree} (found : arena.get id = .ok entity)
      (shape : entity.shape = .genericInstance head index arguments)
      (generic : Spells store arena head (.definition index))
      (count : arguments.length = trees.length)
      (each : ∀ (position : Nat) (argument : TypeId) (tree : TypeTree),
        arguments[position]? = some argument → trees[position]? = some tree →
          Spells store arena argument tree) :
      Spells store arena id (.genericInstance index trees)
  | array {id element : TypeId} {entity : TypeEntity} {rank : UInt32} {tree : TypeTree}
      (found : arena.get id = .ok entity) (shape : entity.shape = .array element rank false)
      (inner : Spells store arena element tree) : Spells store arena id (.array tree rank)
  | vector {id element : TypeId} {entity : TypeEntity} {tree : TypeTree}
      (found : arena.get id = .ok entity) (shape : entity.shape = .array element 1 true)
      (inner : Spells store arena element tree) : Spells store arena id (.vector tree)
  | pointer {id pointee : TypeId} {entity : TypeEntity} {tree : TypeTree}
      (found : arena.get id = .ok entity) (shape : entity.shape = .pointer pointee)
      (inner : Spells store arena pointee tree) : Spells store arena id (.pointer tree)
  | genericParameter {id : TypeId} {entity : TypeEntity} {index : GenericParameterIndex}
      {ofMethod : Bool} {name : String} {row : GenericParameterRow}
      (found : arena.get id = .ok entity)
      (shape : entity.shape = .genericParameter index row.position ofMethod name)
      (placed : store.genericParameter index = .ok row)
      (named : name = if row.position = 0 then "T" else "T" ++ toString row.position) :
      Spells store arena id (.genericParameter index ofMethod)

variable {store : Store} {limit : Nat} {arena : Arena} {tree : TypeTree} {id : TypeId}
  {entity : TypeEntity}

/-- A handle spells out at most one tree. -/
theorem Spells.unique {tree' : TypeTree} (h : arena.Spells store id tree)
    (h' : arena.Spells store id tree') : tree = tree' := by
  induction h generalizing tree' with
  | definition found shape | genericParameter found shape placed named =>
    cases h' <;> simp_all
  | genericInstance found shape _ count _ _ ih =>
    cases h' with
    | genericInstance found' shape' _ count' each' =>
      obtain rfl := Except.ok.inj (found.symm.trans found')
      obtain ⟨rfl, rfl, rfl⟩ := TypeShape.genericInstance.inj (shape.symm.trans shape')
      congr 1
      refine List.ext_getElem (count.symm.trans count') fun position bound bound' => ?_
      have hargument := List.getElem?_eq_getElem (count ▸ bound)
      exact ih position _ _ hargument (List.getElem?_eq_getElem bound)
        (each' position _ _ hargument (List.getElem?_eq_getElem bound'))
    | _ => simp_all
  | array found shape _ ih =>
    cases h' with
    | array found' shape' inner' =>
      obtain rfl := Except.ok.inj (found.symm.trans found')
      obtain ⟨rfl, rfl, -⟩ := TypeShape.array.inj (shape.symm.trans shape')
      rw [ih inner']
    | _ => simp_all
  | vector found shape _ ih =>
    cases h' with
    | vector found' shape' inner' =>
      obtain rfl := Except.ok.inj (found.symm.trans found')
      obtain ⟨rfl, -, -⟩ := TypeShape.array.inj (shape.symm.trans shape')
      rw [ih inner']
    | _ => simp_all
  | pointer found shape _ ih =>
    cases h' with
    | pointer found' shape' inner' =>
      obtain rfl := Except.ok.inj (found.symm.trans found')
      obtain rfl := TypeShape.pointer.inj (shape.symm.trans shape')
      rw [ih inner']
    | _ => simp_all

/-- What is made for a tree spells it out, if the handles of its parts do. -/
theorem Makes.spells {attributes : TypeAttributes} {flag : Bool}
    (h : arena.Makes store tree attributes flag entity.shape) (found : arena.get id = .ok entity)
    (each : ∀ part ∈ tree.parts, ∀ operand, arena.idOf part = some operand →
      arena.Spells store operand part) : arena.Spells store id tree := by
  generalize hshape : entity.shape = shape at h
  cases h with
  | genericParameter placed => exact .genericParameter found hshape placed rfl
  | @genericInstance index trees head arguments flags generic operands flagged =>
    obtain ⟨hhead, hrest⟩ := List.forall_mem_cons.mp each
    rw [idsOf_eq_some_iff] at operands
    refine .genericInstance found hshape (hhead head (by rw [idOf, generic]))
      operands.length_eq.symm fun position argument tree hargument htree => ?_
    obtain ⟨bound, rfl⟩ := List.getElem?_eq_some_iff.mp htree
    obtain ⟨bound', rfl⟩ := List.getElem?_eq_some_iff.mp hargument
    exact hrest _ (List.getElem_mem bound) _ (operands.get bound bound')
  | array operand flagged =>
    exact .array found hshape (each _ List.mem_cons_self _ operand)
  | vector operand flagged =>
    exact .vector found hshape (each _ List.mem_cons_self _ operand)
  | pointer operand flagged =>
    exact .pointer found hshape (each _ List.mem_cons_self _ operand)

/-- **The handle of a tree spells it out.** -/
theorem Honest.spells_of_idOf (honest : arena.Honest store limit) (sound : arena.Sound store limit)
    (found : arena.idOf tree = some id) : arena.Spells store id tree := by
  induction tree using TypeTree.partsInduction generalizing id with
  | step tree ih =>
    obtain ⟨entity, hentity, -, -, hdepicts⟩ := honest.exists_of_idOf sound found
    have hget := get_eq_ok_iff.mpr hentity
    cases hdefinition : entity.definition? with
    | some definition =>
      obtain ⟨waiting, rfl, -, -, hportrays⟩ := hdepicts.exists_portrays hdefinition
      have hindex : definition.index = waiting.index := hportrays.index
      exact hindex ▸ .definition hget (TypeEntity.definition?_eq_some_iff.mp hdefinition)
    | none =>
      rw [TypeEntity.forget_of_definition?_eq_none hdefinition] at hdepicts
      obtain ⟨usage, -, hmakes⟩ := hdepicts.exists_makes hdefinition
      exact hmakes.spells hget fun part hpart operand hoperand => ih part hpart hoperand

end Arena

namespace TypeModel

variable {store : Store} {config : Config} {model : TypeModel} {usage : TypeUsage} {id : TypeId}

/-- **A usage is resolved to what spells out the tree that it denotes.** The usage denotes one tree,
and this tree is read back from the handle, also where generic parameters and vectors are asked for
more than a tree says of them. -/
theorem spells_of_resolveUsage (reachable : Reachable store config model)
    (answered : (model.resolveUsage usage).1 = .ok id) :
    ∃ tree, (∀ other, Denotes store usage other ↔ other = tree) ∧
      (model.resolveUsage usage).2.arena.tree id = .ok tree ∧
      ∀ other, (model.resolveUsage usage).2.arena.Spells store id other ↔ other = tree := by
  obtain ⟨rfl, rfl⟩ : model.store = store ∧ model.config = config := reachable.sameImage
  have hreachable : Reachable model.store model.config (model.resolveUsage usage).2 :=
    reachable.resolve (.usage usage)
  have hanswer : ((Query.usage usage).resolve model).1 = .ok id := answered
  obtain ⟨tree, after, hread, -, -, hafter, harena⟩ :=
    exists_of_resolve_eq_ok reachable.sound hanswer
  have hdenotes : Denotes model.store usage tree := Query.denotes_of_readTree hread
  have hid : (model.resolveUsage usage).2.arena.idOf tree = some id := harena ▸ hafter
  have hspells := hreachable.honest.spells_of_idOf hreachable.arenaSound hid
  refine ⟨tree, fun other => ⟨fun h => h.unique hdenotes, fun h => h ▸ hdenotes⟩, ?_,
    fun other => ⟨fun h => h.unique hspells, fun h => h ▸ hspells⟩⟩
  exact hreachable.honest.tree_of_idOf hreachable.arenaSound hid

end TypeModel

/-! ### An image with a composite of every kind -/

/-- An image with an instantiation over a two-dimensional array of pointers to a generic parameter,
over a vector of a definition and over another generic parameter. The definition derives from the
instantiation. -/
def Store.nested : Store where
  definitions := #[{}, { parent := some ⟨0⟩ }]
  usages := #[⟨1⟩]
  genericParameters := #[{}, { position := 3 }]
  mapped := Std.HashMap.emptyWithCapacity
    |>.insert ⟨1⟩ (.usage (.genericInstance ⟨2⟩)) |>.insert ⟨2⟩ (.genericClass ⟨⟨0⟩, ⟨3⟩⟩)
    |>.insert ⟨3⟩ (.genericInstantiation ⟨3, ⟨4⟩⟩) |>.insert ⟨4⟩ (.argumentList [⟨5⟩, ⟨8⟩, ⟨10⟩])
    |>.insert ⟨5⟩ (.usage (.array ⟨6⟩)) |>.insert ⟨6⟩ (.arrayDescriptor ⟨⟨7⟩, 2, 0, 0⟩)
    |>.insert ⟨7⟩ (.usage (.pointer ⟨11⟩)) |>.insert ⟨8⟩ (.usage (.vector ⟨9⟩))
    |>.insert ⟨9⟩ (.usage (.definition ⟨1⟩))
    |>.insert ⟨10⟩ (.usage (.genericParameter ⟨0⟩ false))
    |>.insert ⟨11⟩ (.usage (.genericParameter ⟨1⟩ true))

/-- The instantiation is spelled out after the definition was asked for, which derives from it, and
after another request has failed. The array has both of its dimensions. -/
theorem TypeModel.spells_of_resolveUsage_nested :
    (((TypeModel.new .nested .standard).askEach
        [.definition ⟨2⟩, .definition ⟨1⟩]).2.resolveUsage (.genericInstance ⟨2⟩)).1 = .ok ⟨7⟩ ∧
      (((TypeModel.new .nested .standard).askEach
        [.definition ⟨2⟩, .definition ⟨1⟩]).2.resolveUsage (.genericInstance ⟨2⟩)).2.arena.tree
          ⟨7⟩ = .ok (.genericInstance ⟨0⟩ [.array (.pointer (.genericParameter ⟨1⟩ true)) 2,
            .vector (.definition ⟨1⟩), .genericParameter ⟨0⟩ false]) ∧
      ∃ tree, (∀ other, Denotes .nested (.genericInstance ⟨2⟩) other ↔ other = tree) ∧
        (((TypeModel.new .nested .standard).askEach
          [.definition ⟨2⟩, .definition ⟨1⟩]).2.resolveUsage (.genericInstance ⟨2⟩)).2.arena.tree
            ⟨7⟩ = .ok tree ∧
        ∀ other, (((TypeModel.new .nested .standard).askEach
          [.definition ⟨2⟩, .definition ⟨1⟩]).2.resolveUsage
            (.genericInstance ⟨2⟩)).2.arena.Spells .nested ⟨7⟩ other ↔ other = tree := by
  have hanswer : (((TypeModel.new .nested .standard).askEach
      [.definition ⟨2⟩, .definition ⟨1⟩]).2.resolveUsage (.genericInstance ⟨2⟩)).1 = .ok ⟨7⟩ := by
    cbv
  exact ⟨hanswer, by cbv, spells_of_resolveUsage (reachable_askEach .new _) hanswer⟩

end TypeGraph
