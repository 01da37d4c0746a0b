import Mathlib.Data.Set.Function
import TypeGraph.Proofs.LiveTrees

/-!
# Renaming handles

Handles are numbers that are given out in the order of requests, so two arenas in which the same
types were resolved in different orders need not agree on any of them. They agree on what matters:
if in both the same trees are live, then taking the handle of each tree in the one to its handle in
the other is a bijection of live types, under which keys and entities correspond and names are
equal.

Everything is compared through trees. An entity depicts its tree in either arena, and what it holds
besides handles is read from the same rows. Only the usage that a composite was made from is not
determined by its tree, since the same type can be spelled out in several places.

## Main definitions

* `TypeKey.map`, `TypeShape.map`, `TypeEntity.map` — with other handles
* `TypeEntity.Resembles` — entities are equal up to a renaming, and up to the usage of a composite
* `Agree` — two computations go well, with the same result
* `Arena.Renames` — a renaming takes the handle of each tree in one arena to that in another

## Main results

* `Arena.exists_renames` — there is a renaming where the same trees are live
* `Arena.Renames.exists_resembles` — entities correspond under a renaming
* `Arena.Renames.agree_visit` — what is computed by following operands agrees, and so do names
-/

namespace TypeGraph

/-! ### Other handles -/

/-- A key with other handles. -/
def TypeKey.map (handle : TypeId → TypeId) : TypeKey → TypeKey
  | definition index => definition index
  | genericInstance generic arguments => genericInstance (handle generic) (arguments.map handle)
  | array element rank => array (handle element) rank
  | vector element => vector (handle element)
  | pointer pointee => pointer (handle pointee)
  | genericParameter index ofMethod => genericParameter index ofMethod

/-- A shape with other handles, also at the members of a definition. -/
def TypeShape.map (handle : TypeId → TypeId) : TypeShape → TypeShape
  | definition declared => definition (declared.map handle id)
  | genericInstance generic index arguments =>
    genericInstance (handle generic) index (arguments.map handle)
  | array element rank isVector => array (handle element) rank isVector
  | pointer pointee => pointer (handle pointee)
  | genericParameter index position ofMethod name => genericParameter index position ofMethod name

theorem TypeShape.operands_map (handle : TypeId → TypeId) (shape : TypeShape) :
    (shape.map handle).operands = shape.operands.map handle := by
  cases shape <;> rfl

/-- An entity with other handles. -/
def TypeEntity.map (handle : TypeId → TypeId) (entity : TypeEntity) : TypeEntity :=
  { entity with id := handle entity.id, shape := entity.shape.map handle }

/-- An entity resembles another one under a renaming of handles if it is that entity with its
handles renamed, but for the usage that a type other than a definition was made from. -/
structure TypeEntity.Resembles (handle : TypeId → TypeId) (entity entity' : TypeEntity) : Prop where
  renamed : { entity' with origin := entity.origin } = entity.map handle
  origin : entity.definition?.isSome → entity'.origin = entity.origin

namespace TypeEntity.Resembles

variable {handle : TypeId → TypeId} {entity entity' : TypeEntity}

theorem containsParameters (h : entity.Resembles handle entity') :
    entity'.containsParameters = entity.containsParameters := by
  have hrenamed := congrArg TypeEntity.containsParameters h.renamed
  exact hrenamed

theorem shape (h : entity.Resembles handle entity') : entity'.shape = entity.shape.map handle := by
  have hrenamed := congrArg TypeEntity.shape h.renamed
  exact hrenamed

end TypeEntity.Resembles

/-! ### Agreement -/

/-- Two computations agree if both go well, with the same result. -/
def Agree {α : Type} (reading reading' : Except Fault α) : Prop :=
  ∃ result, reading = .ok result ∧ reading' = .ok result

namespace Agree

variable {α β : Type} {reading reading' : Except Fault α}

theorem ok (result : α) : Agree (.ok result) (.ok result) := ⟨result, rfl, rfl⟩

theorem eq_of_ok (h : Agree reading reading') {result result' : α} (read : reading = .ok result)
    (read' : reading' = .ok result') : result' = result := by
  obtain ⟨common, hread, hread'⟩ := h
  rw [Except.ok.inj (read.symm.trans hread), Except.ok.inj (read'.symm.trans hread')]

/-- What goes on in the same way after computations that agree still agrees. -/
theorem bind {next next' : α → Except Fault β} (h : Agree reading reading')
    (each : ∀ result, Agree (next result) (next' result)) :
    Agree (reading >>= next) (reading' >>= next') := by
  obtain ⟨result, rfl, rfl⟩ := h
  exact each result

/-- Computations for the elements of a list agree as a whole if they agree one by one. -/
theorem mapM {change : α → α} {read read' : α → Except Fault β} {xs : List α}
    (each : ∀ x ∈ xs, Agree (read x) (read' (change x))) :
    Agree (xs.mapM read) ((xs.map change).mapM read') := by
  induction xs with
  | nil => exact .ok []
  | cons x xs ih =>
    obtain ⟨hx, hxs⟩ := List.forall_mem_cons.mp each
    rw [List.map_cons, List.mapM_cons, List.mapM_cons]
    exact hx.bind fun _ => (ih hxs).bind fun _ => .ok _

/-- The name of a pointer needs at most the name of what it points to. -/
theorem pointerName {naming : PointerNaming} {nameOf nameOf' : TypeId → Except Fault String}
    {pointee pointee' : TypeId} (h : Agree (nameOf pointee) (nameOf' pointee')) :
    Agree (naming.pointerName nameOf pointee) (naming.pointerName nameOf' pointee') := by
  cases naming with
  | pointee => exact h.bind fun _ => .ok _
  | voidPlaceholder => exact .ok _

end Agree

/-! ### Members for another owner -/

theorem mapM_map_of_mapM {α β : Type} {read read' : α → Except Fault β} {change : β → β}
    {xs : List α} {ys : List β} (each : ∀ x y, read x = .ok y → read' x = .ok (change y))
    (h : xs.mapM read = .ok ys) : xs.mapM read' = .ok (ys.map change) := by
  rw [mapM_eq_ok_iff] at h ⊢
  induction h with
  | nil => exact .nil
  | cons head _ ih => exact .cons (each _ _ head) ih

namespace Store

variable {store : Store} {row : TypeDefinition} {owner : TypeId}

/-- The owner shows in a field as its declaring type, and nowhere else. -/
theorem readFields_map (handle : TypeId → TypeId) {fields : List Field}
    (h : row.readFields store owner = .ok fields) :
    row.readFields store (handle owner) = .ok (fields.map (Field.map handle id)) := by
  refine mapM_map_of_mapM (fun index field hread => ?_) h
  simp only [Field.read, bind_eq_ok_iff] at hread ⊢
  obtain ⟨fieldRow, hrow, name, hname, hfield⟩ := hread
  obtain rfl := Except.ok.inj hfield
  exact ⟨fieldRow, hrow, name, hname, rfl⟩

/-- The owner shows in a method as its declaring type, and nowhere else. -/
theorem readMethods_map (handle : TypeId → TypeId) {methods : List Method}
    (h : row.readMethods store owner = .ok methods) :
    row.readMethods store (handle owner) = .ok (methods.map (Method.map handle id)) := by
  refine mapM_map_of_mapM (fun index method hread => ?_) h
  simp only [Method.read, bind_eq_ok_iff] at hread ⊢
  obtain ⟨methodRow, hrow, parameters, hparameters, name, hname, hmethod⟩ := hread
  obtain rfl := Except.ok.inj hmethod
  refine ⟨methodRow, hrow, parameters, hparameters, name, hname, ?_⟩
  have hsame : parameters.map (Parameter.map id) = parameters := List.map_id parameters
  rw [Method.map, hsame]
  rfl

end Store

/-! ### Renamings of an arena -/

namespace Arena

variable {store : Store} {limit : Nat} {arena arena' : Arena} {handle : TypeId → TypeId}
  {tree : TypeTree}

/-- A renaming of handles takes the handle of each tree in one arena to that in another. -/
def Renames (handle : TypeId → TypeId) (arena arena' : Arena) : Prop :=
  ∀ ⦃tree id⦄, arena.idOf tree = some id → arena'.idOf tree = some (handle id)

/-- **Where all trees are live that are live in an arena, its handles can be renamed.** -/
theorem exists_renames (honest : arena.Honest store limit) (sound : arena.Sound store limit)
    (live : ∀ tree, (arena.idOf tree).isSome → (arena'.idOf tree).isSome) :
    ∃ handle, Renames handle arena arena' := by
  -- a tree is read back from a handle, and looked up in the other arena
  refine ⟨fun id => match arena.tree id with
    | .ok tree => (arena'.idOf tree).getD id
    | .error _ => id, fun tree id hid => ?_⟩
  obtain ⟨id', hid'⟩ := Option.isSome_iff_exists.mp (live tree (Option.isSome_of_mem hid))
  simp only [honest.tree_of_idOf sound hid, hid', Option.getD_some]

namespace Renames

variable (renames : Renames handle arena arena')

include renames

theorem idsOf {trees : List TypeTree} {ids : List TypeId} (found : arena.idsOf trees = some ids) :
    arena'.idsOf trees = some (ids.map handle) := by
  rw [idsOf_eq_some_iff] at found ⊢
  induction found with
  | nil => exact .nil
  | cons head _ ih => exact .cons (renames head) ih

/-- A definition is a tree, so its handle is renamed with the others. -/
theorem reserved?_definition {index : DefinitionIndex} {id : TypeId}
    (found : arena.reserved? (.definition index) = some id) :
    arena'.reserved? (.definition index) = some (handle id) := by
  have hid : arena.idOf (.definition index) = some id := by rw [idOf, found]
  have hid' := renames hid
  rwa [idOf] at hid'

/-- The key of a tree is renamed with the handles of its parts. -/
theorem keyOf {key : TypeKey} (found : arena.keyOf tree = some key) :
    arena'.keyOf tree = some (key.map handle) := by
  cases tree with
  | definition index | genericParameter index ofMethod =>
    obtain rfl := Option.some.inj found
    rfl
  | genericInstance index arguments =>
    obtain ⟨head, ids, hhead, hids, rfl⟩ := keyOf_genericInstance.mp found
    exact keyOf_genericInstance.mpr
      ⟨_, _, renames.reserved?_definition hhead, renames.idsOf hids, rfl⟩
  | array element | vector element | pointer element =>
    obtain ⟨inner, hinner, rfl⟩ := Option.map_eq_some_iff.mp found
    rw [Arena.keyOf, renames hinner]
    rfl

/-- What is made for a tree is made in the other arena with other handles, if the flags of operands
agree. -/
theorem eq_of_makes {attributes attributes' : TypeAttributes} {flag flag' : Bool}
    {shape shape' : TypeShape} (h : arena.Makes store tree attributes flag shape)
    (h' : arena'.Makes store tree attributes' flag' shape')
    (flags : ∀ operand ∈ shape.operands,
      Agree (arena.containsParameters operand) (arena'.containsParameters (handle operand))) :
    attributes' = attributes ∧ flag' = flag ∧ shape' = shape.map handle := by
  have hone {tree : TypeTree} {id id' : TypeId} {flag flag' : Bool}
      (hid : arena.idOf tree = some id) (hid' : arena'.idOf tree = some id')
      (hflag : arena.containsParameters id = .ok flag)
      (hflag' : arena'.containsParameters id' = .ok flag')
      (agree : Agree (arena.containsParameters id) (arena'.containsParameters (handle id))) :
      id' = handle id ∧ flag' = flag := by
    obtain rfl := Option.some.inj (hid'.symm.trans (renames hid))
    exact ⟨rfl, agree.eq_of_ok hflag hflag'⟩
  cases h with
  | genericParameter found =>
    cases h' with
    | genericParameter found' =>
      obtain rfl := Except.ok.inj (found.symm.trans found')
      exact ⟨rfl, rfl, rfl⟩
  | genericInstance generic operands flagged =>
    cases h' with
    | genericInstance generic' operands' flagged' =>
      obtain rfl := Option.some.inj (generic'.symm.trans (renames.reserved?_definition generic))
      obtain rfl := Option.some.inj (operands'.symm.trans (renames.idsOf operands))
      have hflags := Agree.mapM fun operand mem => flags operand (List.mem_cons_of_mem _ mem)
      obtain rfl := hflags.eq_of_ok flagged flagged'
      exact ⟨rfl, rfl, rfl⟩
  | array operand flagged =>
    cases h' with
    | array operand' flagged' =>
      obtain ⟨rfl, rfl⟩ := hone operand operand' flagged flagged' (flags _ List.mem_cons_self)
      exact ⟨rfl, rfl, rfl⟩
  | vector operand flagged =>
    cases h' with
    | vector operand' flagged' =>
      obtain ⟨rfl, rfl⟩ := hone operand operand' flagged flagged' (flags _ List.mem_cons_self)
      exact ⟨rfl, rfl, rfl⟩
  | pointer operand flagged =>
    cases h' with
    | pointer operand' flagged' =>
      obtain ⟨rfl, rfl⟩ := hone operand operand' flagged flagged' (flags _ List.mem_cons_self)
      exact ⟨rfl, rfl, rfl⟩

/-- The contents of a definition row are the same in the other arena, with other handles. -/
theorem eq_of_portrays {waiting waiting' : Pending} {definition definition' : Definition}
    (h : arena.Portrays store limit waiting definition)
    (h' : arena'.Portrays store limit waiting' definition')
    (same : waiting' = { waiting with id := handle waiting.id }) :
    definition' = definition.map handle id := by
  subst same
  obtain ⟨parent, hparent, hbase⟩ := h.base
  obtain ⟨parent', hparent', hbase'⟩ := h'.base
  obtain rfl := Except.ok.inj (hparent.symm.trans hparent')
  have hindex : definition'.index = definition.index := h'.index.trans h.index.symm
  have hnamespaceName : definition'.namespaceName = definition.namespaceName :=
    Except.ok.inj (h'.namespaceName.symm.trans h.namespaceName)
  have hname : definition'.name = definition.name := Except.ok.inj (h'.name.symm.trans h.name)
  have hfields : definition'.fields = definition.fields.map (Field.map handle id) :=
    Except.ok.inj (h'.fields.symm.trans (Store.readFields_map handle h.fields))
  have hmethods : definition'.methods = definition.methods.map (Method.map handle id) :=
    Except.ok.inj (h'.methods.symm.trans (Store.readMethods_map handle h.methods))
  have hsame : definition'.base = definition.base.map handle := by
    cases parent with
    | none =>
      rw [Option.map_eq_none_iff.mp hbase.symm, Option.map_eq_none_iff.mp hbase'.symm]
      rfl
    | some tree =>
      obtain ⟨base, hderives, hid⟩ := Option.map_eq_some_iff.mp hbase.symm
      obtain ⟨base', hderives', hid'⟩ := Option.map_eq_some_iff.mp hbase'.symm
      rw [hderives, hderives', Option.map_some, hid', renames hid.symm]
  cases definition'
  simp only at hindex hnamespaceName hname hfields hmethods hsame
  subst hindex hnamespaceName hname hfields hmethods hsame
  rfl

/-- **What depicts a tree in the other arena resembles what depicts it in this one.** -/
theorem resembles {entity entity' : TypeEntity} (h : arena.Depicts store limit tree entity)
    (h' : arena'.Depicts store limit tree entity') (same : entity'.id = handle entity.id)
    (flags : ∀ operand ∈ entity.shape.operands,
      Agree (arena.containsParameters operand) (arena'.containsParameters (handle operand))) :
    entity.Resembles handle entity' := by
  cases h with
  | @definition waiting definition found portrays =>
    generalize htree : TypeTree.definition waiting.index = tree at h'
    cases h' with
    | @definition waiting' definition' found' portrays' =>
      have hindex : waiting'.index = waiting.index := (TypeTree.definition.inj htree).symm
      have hrow : waiting'.row = waiting.row := by
        rw [hindex] at found'
        exact Except.ok.inj (found'.symm.trans found)
      have hwaiting : waiting' = { waiting with id := handle waiting.id } := by
        cases waiting'
        simp_all [Pending.entity]
      have hdefinition := renames.eq_of_portrays portrays portrays' hwaiting
      subst hwaiting hdefinition
      exact ⟨rfl, fun _ => rfl⟩
    | usage denotes shallow makes => subst htree; cases makes
  | usage denotes shallow makes =>
    cases h' with
    | definition found' portrays' => cases makes
    | usage denotes' shallow' makes' =>
      obtain ⟨rfl, rfl, rfl⟩ := renames.eq_of_makes makes makes' flags
      obtain rfl := same
      refine ⟨rfl, fun hdefinition => ?_⟩
      rw [makes.definition?_eq_none rfl] at hdefinition
      cases hdefinition

end Renames

/-! ### Arenas that correspond -/

/-- No link in an arena remembers anything. -/
def Plain (arena : Arena) : Prop :=
  ∀ ⦃id entity⦄, arena.entity? id = some entity → entity.forget = entity

/-- What holds of an arena if only questions for types were asked. -/
structure Pristine (store : Store) (limit : Nat) (arena : Arena) : Prop where
  sound : arena.Sound store limit
  honest : arena.Honest store limit
  plain : arena.Plain

theorem Pristine.mem_all_iff (pristine : arena.Pristine store limit) {id : TypeId} :
    id ∈ arena.all ↔ ∃ tree, arena.idOf tree = some id :=
  pristine.honest.mem_all_iff pristine.sound

/-- The entity behind the handle of a tree depicts it, with all that its links remember. -/
theorem Pristine.exists_of_idOf (pristine : arena.Pristine store limit) {id : TypeId}
    (found : arena.idOf tree = some id) :
    ∃ entity, arena.entity? id = some entity ∧ entity.id = id ∧
      arena.Depicts store limit tree entity := by
  obtain ⟨entity, hentity, hsame, -, hdepicts⟩ :=
    pristine.honest.exists_of_idOf pristine.sound found
  rw [pristine.plain hentity] at hdepicts
  exact ⟨entity, hentity, hsame, hdepicts⟩

/-- Keys are renamed with the handles that they lead to. -/
theorem Renames.reserved?_map (renames : Renames handle arena arena')
    (pristine : arena.Pristine store limit) {key : TypeKey} {id : TypeId}
    (found : arena.reserved? key = some id) :
    arena'.reserved? (key.map handle) = some (handle id) := by
  obtain ⟨tree, hkey, hid⟩ := pristine.honest.exists_keyOf pristine.sound found
  obtain ⟨key', hkey', hfound⟩ := idOf_eq_some_iff.mp (renames hid)
  obtain rfl := Option.some.inj (hkey'.symm.trans (renames.keyOf hkey))
  exact hfound

namespace Renames

variable (renames : Renames handle arena arena') (pristine : arena.Pristine store limit)
  (pristine' : arena'.Pristine store limit)

include renames pristine pristine'

/-- **Entities of live types correspond.** -/
theorem exists_resembles {id : TypeId} (found : arena.idOf tree = some id) :
    ∃ entity entity', arena.entity? id = some entity ∧ arena'.entity? (handle id) = some entity' ∧
      entity.Resembles handle entity' := by
  induction tree using TypeTree.partsInduction generalizing id with
  | step tree ih =>
    obtain ⟨entity, hentity, hid, hdepicts⟩ := pristine.exists_of_idOf found
    obtain ⟨entity', hentity', hid', hdepicts'⟩ := pristine'.exists_of_idOf (renames found)
    refine ⟨entity, entity', hentity, hentity', ?_⟩
    refine renames.resembles hdepicts hdepicts' (by rw [hid', hid]) fun operand mem => ?_
    obtain ⟨part, hpart, hoperand⟩ := exists_mem_of_idsOf hdepicts.idsOf_parts mem
    obtain ⟨found, found', hfound, hfound', hresembles⟩ := ih part hpart hoperand
    rw [containsParameters_of_entity? hfound, containsParameters_of_entity? hfound',
      hresembles.containsParameters]
    exact .ok _

theorem mem_all {id : TypeId} (live : id ∈ arena.all) : handle id ∈ arena'.all := by
  obtain ⟨tree, hid⟩ := pristine.mem_all_iff.mp live
  exact pristine'.mem_all_iff.mpr ⟨tree, renames hid⟩

/-- **A renaming is a bijection of live types**, if the same trees are live in both arenas. -/
theorem bijOn (live : ∀ tree, (arena'.idOf tree).isSome → (arena.idOf tree).isSome) :
    Set.BijOn handle {id | id ∈ arena.all} {id | id ∈ arena'.all} := by
  refine ⟨fun id => renames.mem_all pristine pristine', ?_, ?_⟩
  · intro id hid other hother hsame
    obtain ⟨tree, htree⟩ := pristine.mem_all_iff.mp hid
    obtain ⟨tree', htree'⟩ := pristine.mem_all_iff.mp hother
    have hdistinct := Transaction.Sound.keysDistinct pristine'.sound
    obtain rfl := tree_eq_of_idOf hdistinct (renames htree) (hsame ▸ renames htree')
    exact Option.some.inj (htree.symm.trans htree')
  · intro id' hid'
    obtain ⟨tree, htree'⟩ := pristine'.mem_all_iff.mp hid'
    obtain ⟨id, htree⟩ := Option.isSome_iff_exists.mp (live tree (Option.isSome_of_mem htree'))
    refine ⟨id, pristine.mem_all_iff.mpr ⟨tree, htree⟩, ?_⟩
    exact Option.some.inj ((renames htree).symm.trans htree')

/-- **What is computed by following operands agrees**, if each step takes operands that agree to
results that do. -/
theorem agree_visit {α : Type}
    {step step' : TypeShape → (TypeId → Except Fault α) → Except Fault α}
    (each : ∀ shape (ofOperand ofOperand' : TypeId → Except Fault α),
      (∀ operand ∈ shape.operands,
        operand ∈ arena.all ∧ Agree (ofOperand operand) (ofOperand' (handle operand))) →
      Agree (step shape ofOperand) (step' (shape.map handle) ofOperand'))
    {id : TypeId} (live : id ∈ arena.all) :
    Agree (arena.visit step id) (arena'.visit step' (handle id)) := by
  obtain ⟨tree, found⟩ := pristine.mem_all_iff.mp live
  clear live
  induction tree using TypeTree.partsInduction generalizing id with
  | step tree ih =>
    obtain ⟨entity, hentity, -, hdepicts⟩ := pristine.exists_of_idOf found
    obtain ⟨_, entity', hsame, hentity', hresembles⟩ :=
      renames.exists_resembles pristine pristine' found
    obtain rfl := Option.some.inj (hentity.symm.trans hsame)
    have hshape := hresembles.shape
    rw [visit_of_get (get_eq_ok_iff.mpr hentity), visit_of_get (get_eq_ok_iff.mpr hentity'), hshape]
    refine each _ _ _ fun operand mem => ?_
    obtain ⟨part, hpart, hoperand⟩ := exists_mem_of_idsOf hdepicts.idsOf_parts mem
    have hmem' : handle operand ∈ entity'.shape.operands := by
      rw [hshape, TypeShape.operands_map]
      exact List.mem_map_of_mem mem
    rw [if_pos (pristine.honest.older hentity mem), if_pos (pristine'.honest.older hentity' hmem')]
    exact ⟨pristine.mem_all_iff.mpr ⟨part, hoperand⟩, ih part hpart hoperand⟩

/-! ### Names -/

variable {naming : PointerNaming}

theorem agree_namespaceName {id : TypeId} (live : id ∈ arena.all) :
    Agree (arena.namespaceName id) (arena'.namespaceName (handle id)) := by
  refine renames.agree_visit pristine pristine' (fun shape ofOperand ofOperand' each => ?_) live
  cases shape with
  | definition definition => exact .ok _
  | genericInstance head index arguments => exact (each head List.mem_cons_self).2
  | array element rank isVector => exact (each element List.mem_cons_self).2
  | pointer pointee => exact (each pointee List.mem_cons_self).2
  | genericParameter index position ofMethod name => exact .ok _

/-- A rendering agrees if it does not name definitions by their handles. -/
theorem agree_render {leaf : Definition → String}
    (same : ∀ definition, leaf (definition.map handle id) = leaf definition) {id : TypeId}
    (live : id ∈ arena.all) :
    Agree (arena.render naming leaf id) (arena'.render naming leaf (handle id)) := by
  refine renames.agree_visit pristine pristine' (fun shape ofOperand ofOperand' each => ?_) live
  cases shape with
  | definition definition =>
    exact ⟨leaf definition, rfl, congrArg Except.ok (same definition)⟩
  | genericInstance head index arguments =>
    refine .bind (.mapM fun argument mem => ?_) fun _ => ?_
    · exact (each argument (List.mem_cons_of_mem _ mem)).2
    · exact (each head List.mem_cons_self).2.bind fun _ => .ok _
  | array element rank isVector => exact (each element List.mem_cons_self).2.bind fun _ => .ok _
  | pointer pointee => exact (each pointee List.mem_cons_self).2.pointerName
  | genericParameter index position ofMethod name => exact .ok _

theorem agree_fullName {id : TypeId} (live : id ∈ arena.all) :
    Agree (arena.fullName naming id) (arena'.fullName naming (handle id)) := by
  refine renames.agree_visit pristine pristine' (fun shape ofOperand ofOperand' each => ?_) live
  cases shape with
  | definition definition => exact .ok _
  | genericInstance head index arguments =>
    have hname {operand : TypeId} (mem : operand ∈ head :: arguments) :
        Agree (arena.name naming operand) (arena'.name naming (handle operand)) :=
      renames.agree_render pristine pristine' (fun _ => rfl) (each operand mem).1
    have hhead := (each head List.mem_cons_self).1
    refine (renames.agree_namespaceName pristine pristine' hhead).bind fun _ => ?_
    refine .bind (.mapM fun argument mem => hname (List.mem_cons_of_mem _ mem)) fun _ => ?_
    exact (hname List.mem_cons_self).bind fun _ => .ok _
  | array element rank isVector => exact (each element List.mem_cons_self).2.bind fun _ => .ok _
  | pointer pointee => exact (each pointee List.mem_cons_self).2.pointerName
  | genericParameter index position ofMethod name => exact .ok _

end Renames

end Arena

end TypeGraph
