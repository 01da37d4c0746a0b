import TypeGraph.Proofs.Reading

/-!
# Handles and links in entities

Entities mention types in two ways. They hold handles, which are written once, and definitions hold
links at their members, which may be made to remember a type at any later time. Both can be replaced
throughout an entity. What an entity holds apart from the memory of its links is seen when the links
are made to `forget`, and members are always read with links that remember nothing.

## Main definitions

* `Definition.map` — a definition with other handles and links
* `TypeEntity.forget` — an entity whose links remember nothing

## Main results

* `TypeEntity.forget_memoize` — what a link remembers makes no difference to an entity without it
* `Store.forget_readFields`, `Store.forget_readMethods` — members are read with links that remember
  nothing
-/

namespace TypeGraph

/-! ### Handles and links in members -/

/-- A field with other handles and links. -/
def Field.map (handle : TypeId → TypeId) (link : TypeLink → TypeLink) (field : Field) : Field :=
  { field with declaringType := handle field.declaringType, type := link field.type }

/-- A parameter with another link. -/
def Parameter.map (link : TypeLink → TypeLink) (parameter : Parameter) : Parameter :=
  { parameter with type := link parameter.type }

/-- A method with other handles and links. -/
def Method.map (handle : TypeId → TypeId) (link : TypeLink → TypeLink) (method : Method) : Method :=
  { method with
    declaringType := handle method.declaringType
    returnType := link method.returnType
    parameters := method.parameters.map (Parameter.map link) }

/-- A definition with other handles and links. -/
def Definition.map (handle : TypeId → TypeId) (link : TypeLink → TypeLink)
    (definition : Definition) : Definition :=
  { definition with
    base := definition.base.map handle
    fields := definition.fields.map (Field.map handle link)
    methods := definition.methods.map (Method.map handle link) }

/-- A link that remembers nothing. -/
def TypeLink.forget (link : TypeLink) : TypeLink := { link with resolved := none }

/-- A definition whose links remember nothing. -/
def Definition.forget : Definition → Definition := Definition.map id TypeLink.forget

/-- An entity whose links remember nothing. -/
def TypeEntity.forget (entity : TypeEntity) : TypeEntity :=
  match entity.shape with
  | .definition definition => { entity with shape := .definition definition.forget }
  | _ => entity

/-- A change that does not show leaves a list as it looks. -/
theorem map_modify_of_eq {α β : Type} {change : α → α} {view : α → β}
    (same : ∀ x, view (change x) = view x) (xs : List α) (position : Nat) :
    (xs.modify position change).map view = xs.map view := by
  refine List.ext_getElem? fun place => ?_
  rw [List.getElem?_map, List.getElem?_map, List.getElem?_modify, Option.map_eq_map, Option.map_map]
  congr 1
  funext x
  by_cases here : position = place
  · simp [here, same]
  · simp [here]

/-- What the links remember makes no difference to a definition without it. -/
theorem Definition.forget_modifyLink {change : TypeLink → TypeLink}
    (same : ∀ link, (change link).forget = link.forget) (definition : Definition)
    (site : MemberSite) : (definition.modifyLink change site).forget = definition.forget := by
  cases site with
  | field position =>
    simp only [forget, map, modifyLink]
    rw [map_modify_of_eq]
    intro field
    simp [Field.map, same]
  | returnType method =>
    simp only [forget, map, modifyLink]
    rw [map_modify_of_eq]
    intro method
    simp [Method.map, same]
  | parameter method position =>
    simp only [forget, map, modifyLink]
    rw [map_modify_of_eq]
    intro method
    simp only [Method.map]
    rw [map_modify_of_eq]
    intro parameter
    simp [Parameter.map, same]

@[simp] theorem Definition.base_forget (definition : Definition) :
    definition.forget.base = definition.base := congrFun Option.map_id definition.base

namespace TypeEntity

variable (entity : TypeEntity) (site : MemberSite) (target : TypeId)

@[simp] theorem id_forget : entity.forget.id = entity.id := by
  rw [forget]
  split <;> rfl

@[simp] theorem key_forget : entity.forget.key = entity.key := by
  rw [forget]
  split
  · next definition hshape => rw [key, key, hshape]; rfl
  · rfl

@[simp] theorem operands_forget : entity.forget.shape.operands = entity.shape.operands := by
  rw [forget]
  split
  · next definition hshape => rw [hshape]; rfl
  · rfl

@[simp] theorem definition?_forget :
    entity.forget.definition? = entity.definition?.map Definition.forget := by
  cases hshape : entity.shape <;> simp [definition?, forget, hshape]

/-- Remembering a type is forgotten with the rest. -/
@[simp] theorem forget_memoize : (entity.memoize site target).forget = entity.forget := by
  rw [memoize]
  split
  · next definition hshape =>
    rw [forget, forget, hshape]
    simp only
    rw [Definition.forget_modifyLink]
    intro link
    rfl
  · rfl

@[simp] theorem containsParameters_memoize :
    (entity.memoize site target).containsParameters = entity.containsParameters := by
  rw [memoize]
  split <;> rfl

theorem definition?_eq_some_iff {entity : TypeEntity} {definition : Definition} :
    entity.definition? = some definition ↔ entity.shape = .definition definition := by
  cases hshape : entity.shape <;> simp [definition?, hshape]

/-- Entities without definition have no links to forget. -/
theorem forget_of_definition?_eq_none {entity : TypeEntity} (h : entity.definition? = none) :
    entity.forget = entity := by
  rw [forget]
  split
  · next definition hshape =>
    rw [definition?, hshape] at h
    cases h
  · rfl

end TypeEntity

/-! ### Members as they are read -/

namespace Store

variable {store : Store} {row : TypeDefinition} {owner : TypeId}

theorem map_eq_self_of_mapM {α β : Type} {read : α → Except Fault β} {change : β → β} {xs : List α}
    {ys : List β} (each : ∀ x y, read x = .ok y → change y = y) (h : xs.mapM read = .ok ys) :
    ys.map change = ys := by
  rw [mapM_eq_ok_iff] at h
  induction h with
  | nil => rfl
  | cons head _ ih => rw [List.map_cons, each _ _ head, ih]

/-- A field is read with a link that remembers nothing. -/
theorem forget_readFields {fields : List Field} (h : row.readFields store owner = .ok fields) :
    fields.map (Field.map id TypeLink.forget) = fields := by
  refine map_eq_self_of_mapM (fun index field hread => ?_) h
  simp only [Field.read, bind_eq_ok_iff] at hread
  obtain ⟨fieldRow, -, name, -, hfield⟩ := hread
  obtain rfl := Except.ok.inj hfield
  rfl

theorem forget_readParameter {index : ParameterIndex} {position : Nat} {parameter : Parameter}
    (h : Parameter.read store index position = .ok parameter) :
    parameter.map TypeLink.forget = parameter := by
  simp only [Parameter.read, bind_eq_ok_iff] at h
  obtain ⟨parameterRow, -, name, -, hparameter⟩ := h
  obtain rfl := Except.ok.inj hparameter
  rfl

/-- A method is read with links that remember nothing. -/
theorem forget_readMethods {methods : List Method} (h : row.readMethods store owner = .ok methods) :
    methods.map (Method.map id TypeLink.forget) = methods := by
  refine map_eq_self_of_mapM (fun index method hread => ?_) h
  simp only [Method.read, bind_eq_ok_iff] at hread
  obtain ⟨methodRow, -, parameters, hparameters, name, -, hmethod⟩ := hread
  obtain rfl := Except.ok.inj hmethod
  have hforget : parameters.map (Parameter.map TypeLink.forget) = parameters :=
    map_eq_self_of_mapM (fun _ _ => forget_readParameter) hparameters
  rw [Method.map, hforget]
  rfl

end Store

end TypeGraph
