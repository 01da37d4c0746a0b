import Mathlib
import TypeGraph.Proofs.CanonicalIdentity

/-!
# Images and arenas that are alike

Two images are alike if they differ in the decoration of usages only: the same records are mapped at
the same addresses, but where the one has a usage, the other may have one with other attributes,
passed by reference or not, and of another kind where both stand for a definition.

This module compares what is read from two such images. Whatever is read is the same, up to the
usages themselves; and a usage enters an arena at one place alone, as the origin of a type that is
no definition. So arenas are alike if they are the same up to that, and then all that can be asked
of them is the same.

## Main definitions

* `SameOutcome` — readings that yield related values, or faults that are alike
* `UsageShape.Alike` — shapes that are the same, up to which definitions are built-in types
* `Store.Alike` — images that differ in the decoration of usages only
* `TypeEntity.Alike`, `Arena.Alike` — entities and arenas that differ in the origins of types only

## Main results

* `TypeUsage.Alike.shape` — usages that are alike have shapes that are alike
* `Store.Alike.usageAt`, `Store.Alike.eq_of_read` — what is read from alike images
* `Arena.Alike.fill`, `Arena.Alike.withdraw`, `Arena.Alike.memoize` — operations keep arenas alike
* `Arena.Alike.visit_eq` — what is computed by recursion through operands is the same
-/

namespace TypeGraph

/-! ### Outcomes -/

/-- Two faults are alike if they are the same, or both say that the operand of a usage does not fit,
for usages that are alike. -/
inductive Fault.Alike : Fault → Fault → Prop where
  | same (fault : Fault) : Alike fault fault
  | oversized {usage usage' : TypeUsage} (alike : usage.Alike usage') :
      Alike (.malformed (.oversizedOperand usage.data usage.kind))
        (.malformed (.oversizedOperand usage'.data usage'.kind))

/-- Two readings have the same outcome if they yield related values, or fail with faults that are
alike. -/
inductive SameOutcome {α β : Type} (rel : α → β → Prop) :
    Except Fault α → Except Fault β → Prop where
  | ok {value : α} {value' : β} (related : rel value value') :
      SameOutcome rel (.ok value) (.ok value')
  | error {fault fault' : Fault} (alike : fault.Alike fault') :
      SameOutcome rel (.error fault) (.error fault')

namespace SameOutcome

variable {α β γ δ : Type} {rel : α → β → Prop} {rel' : γ → δ → Prop} {reading : Except Fault α}
  {reading' : Except Fault β}

/-- A reading has the same outcome as itself, where equal values are related. -/
theorem refl {rel : α → α → Prop} (same : ∀ value, rel value value) (reading : Except Fault α) :
    SameOutcome rel reading reading := by
  cases reading with
  | ok value => exact .ok (same value)
  | error fault => exact .error (.same fault)

theorem bind {next : α → Except Fault γ} {next' : β → Except Fault δ}
    (first : SameOutcome rel reading reading')
    (second : ∀ value value', rel value value' → SameOutcome rel' (next value) (next' value')) :
    SameOutcome rel' (reading >>= next) (reading' >>= next') := by
  cases first with
  | ok related => exact second _ _ related
  | error alike => exact .error alike

theorem map {change : α → γ} {change' : β → δ} (first : SameOutcome rel reading reading')
    (second : ∀ value value', rel value value' → rel' (change value) (change' value')) :
    SameOutcome rel' (reading.map change) (reading'.map change') := by
  cases first with
  | ok related => exact .ok (second _ _ related)
  | error alike => exact .error alike

end SameOutcome

/-! ### Shapes -/

/-- A shape stands for a definition, as a built-in type or otherwise. -/
inductive UsageShape.StandsFor (index : DefinitionIndex) : UsageShape → Prop where
  | definition : StandsFor index (.definition index)
  | primitive (kind : PrimitiveKind) : StandsFor index (.primitive kind index)

/-- Two shapes are alike if they are the same, or stand for the same definition. -/
inductive UsageShape.Alike : UsageShape → UsageShape → Prop where
  | same (shape : UsageShape) : Alike shape shape
  | definition {index : DefinitionIndex} {shape shape' : UsageShape}
      (first : shape.StandsFor index) (second : shape'.StandsFor index) : Alike shape shape'

namespace TypeUsage

variable {usage usage' : TypeUsage}

theorem Alike.refl (usage : TypeUsage) : usage.Alike usage := ⟨rfl, .inl rfl⟩

theorem Alike.operandIndex {table : Table} (h : usage.Alike usage') :
    SameOutcome Eq (usage.operandIndex : Except Fault (Index table)) usage'.operandIndex := by
  rw [TypeUsage.operandIndex, TypeUsage.operandIndex]
  by_cases hfits : usage.data.toNat < UInt32.size
  · rw [if_pos hfits, if_pos (h.1 ▸ hfits), h.1]
    exact .ok rfl
  · rw [if_neg hfits, if_neg (h.1 ▸ hfits)]
    exact .error (.oversized h)

/-- A usage that stands for a definition stands for the one at its operand. -/
theorem IsDefinition.exists_shape (h : usage.IsDefinition) :
    ∃ shape : DefinitionIndex → UsageShape, usage.shape = usage.operandIndex.map shape ∧
      ∀ index, (shape index).StandsFor index := by
  rcases h.shape with hshape | ⟨kind, hshape⟩
  · exact ⟨_, hshape, fun _ => .definition⟩
  · exact ⟨_, hshape, fun _ => .primitive kind⟩

/-- **Usages that are alike have shapes that are alike.** -/
theorem Alike.shape (h : usage.Alike usage') :
    SameOutcome UsageShape.Alike usage.shape usage'.shape := by
  rcases h.2 with hkind | ⟨hdefinition, hdefinition'⟩
  · rw [shape_eq_of_kind_eq h.1 hkind]
    exact .refl .same _
  · obtain ⟨shape, hshape, hstands⟩ := hdefinition.exists_shape
    obtain ⟨shape', hshape', hstands'⟩ := hdefinition'.exists_shape
    rw [hshape, hshape']
    refine h.operandIndex.map ?_
    rintro index _ rfl
    exact .definition (hstands index) (hstands' index)

end TypeUsage

/-! ### Images -/

/-- Two mapped records are alike if they are the same, or are usages that are alike. -/
inductive MappedRecord.Alike : MappedRecord → MappedRecord → Prop where
  | same (record : MappedRecord) : Alike record record
  | usage {usage usage' : TypeUsage} (alike : usage.Alike usage') :
      Alike (.usage usage) (.usage usage')

/-- Two images are alike if they have the same tables and strings, and records that are alike at the
same addresses. -/
structure Store.Alike (store store' : Store) : Prop where
  same : store' = { store with mapped := store'.mapped }
  mapped (address : Address) :
    Option.Rel MappedRecord.Alike store.mapped[address]? store'.mapped[address]?

/-- Where two readings that may find nothing are related, both find something or neither does. -/
theorem rel_cases {α β : Type} {rel : α → β → Prop} {found : Option α} {found' : Option β}
    (h : Option.Rel rel found found') :
    (found = none ∧ found' = none) ∨
      ∃ value value', found = some value ∧ found' = some value' ∧ rel value value' := by
  cases h with
  | none => exact .inl ⟨rfl, rfl⟩
  | some related => exact .inr ⟨_, _, rfl, rfl, related⟩

namespace Store.Alike

variable {store store' : Store}

theorem refl (store : Store) : store.Alike store where
  same := rfl
  mapped address := by
    cases store.mapped[address]? with
    | none => exact .none
    | some record => exact .some (.same record)

/-- An image in which a usage is replaced by one that is alike is alike. -/
theorem mapRecord {address : Address} {usage usage' : TypeUsage}
    (found : store.mapped[address]? = some (.usage usage)) (alike : usage.Alike usage') :
    store.Alike (store.mapRecord address (.usage usage')) where
  same := rfl
  mapped address' := by
    have hinsert : (store.mapRecord address (.usage usage')).mapped[address']? =
        if address = address' then some (.usage usage') else store.mapped[address']? := by
      rw [Store.mapRecord, Std.HashMap.getElem?_insert]
      simp only [beq_iff_eq]
    rw [hinsert]
    split
    · next here =>
      rw [← here, found]
      exact .some (.usage alike)
    · exact (Store.Alike.refl store).mapped address'

/-- What does not depend on mapped records is the same in both images. -/
theorem eq_of_read {α : Sort*} (h : store.Alike store') (read : Store → α)
    (unmapped : ∀ store mapped, read { store with mapped } = read store) :
    read store' = read store := by
  rw [h.same, unmapped]

/-- What does not depend on mapped records is read with the same outcome. -/
theorem sameOutcome {α : Type} (h : store.Alike store') (read : Store → Except Fault α)
    (unmapped : ∀ store mapped, read { store with mapped } = read store) :
    SameOutcome Eq (read store) (read store') := by
  rw [h.eq_of_read read unmapped]
  exact .refl (fun _ => rfl) _

/-- Records are read with the same outcome, if what is selected from records that are alike is
related. -/
theorem recordAt {α : Type} {rel : α → α → Prop} {select : MappedRecord → Option α}
    (h : store.Alike store')
    (selects : ∀ record record', record.Alike record' →
      Option.Rel rel (select record) (select record'))
    (expected : RecordKind) (address : Address) :
    SameOutcome rel (store.recordAt expected select address)
      (store'.recordAt expected select address) := by
  rw [Store.recordAt, Store.recordAt]
  rcases rel_cases (h.mapped address) with
    ⟨hnone, hnone'⟩ | ⟨record, record', hfound, hfound', alike⟩
  · rw [hnone, hnone']
    exact .error (.same _)
  · have hkind : record'.kind = record.kind := by cases alike <;> rfl
    simp only [hfound, hfound', hkind]
    rcases rel_cases (selects record record' alike) with
      ⟨hnone, hnone'⟩ | ⟨value, value', hvalue, hvalue', related⟩
    · rw [hnone, hnone']
      exact .error (.same _)
    · rw [hvalue, hvalue']
      exact .ok related

theorem usageAt (h : store.Alike store') (address : Address) :
    SameOutcome TypeUsage.Alike (store.usageAt address) (store'.usageAt address) := by
  refine h.recordAt (fun record record' alike => ?_) _ _
  cases alike with
  | usage alike => exact .some alike
  | same =>
    cases record with
    | usage usage => exact .some (.refl usage)
    | _ => exact .none

/-- Records that are no usages are read with the same outcome. -/
theorem recordAt_of_usage_eq_none {α : Type} {select : MappedRecord → Option α}
    (h : store.Alike store') (refuses : ∀ usage, select (.usage usage) = none)
    (expected : RecordKind) (address : Address) :
    SameOutcome Eq (store.recordAt expected select address)
      (store'.recordAt expected select address) := by
  refine h.recordAt (fun record record' alike => ?_) _ _
  cases alike with
  | usage alike =>
    rw [refuses, refuses]
    exact .none
  | same =>
    cases select record with
    | none => exact .none
    | some found => exact .some rfl

theorem genericClass (h : store.Alike store') (address : Address) :
    SameOutcome Eq (store.genericClass address) (store'.genericClass address) :=
  h.recordAt_of_usage_eq_none (fun _ => rfl) _ _

theorem instantiation (h : store.Alike store') (address : Address) :
    SameOutcome Eq (store.instantiation address) (store'.instantiation address) :=
  h.recordAt_of_usage_eq_none (fun _ => rfl) _ _

theorem arrayDescriptor (h : store.Alike store') (address : Address) :
    SameOutcome Eq (store.arrayDescriptor address) (store'.arrayDescriptor address) :=
  h.recordAt_of_usage_eq_none (fun _ => rfl) _ _

theorem argumentAddresses (h : store.Alike store') (address : Address) (count : UInt32) :
    SameOutcome Eq (store.argumentAddresses address count)
      (store'.argumentAddresses address count) := by
  have hlist : SameOutcome Eq (store.argumentList address) (store'.argumentList address) :=
    h.recordAt_of_usage_eq_none (fun _ => rfl) _ _
  refine hlist.bind ?_
  rintro addresses _ rfl
  exact .refl (fun _ => rfl) _

theorem usage (h : store.Alike store') (index : UsageIndex) :
    SameOutcome TypeUsage.Alike (store.usage index) (store'.usage index) := by
  refine (h.sameOutcome (fun store => Store.row store.usages index) fun _ _ => rfl).bind ?_
  rintro address _ rfl
  exact h.usageAt address

end Store.Alike

/-! ### Entities -/

/-- Two entities are alike if they are the same, or are no definitions and the same but for the
usages that they were made from, which are alike. -/
inductive TypeEntity.Alike : TypeEntity → TypeEntity → Prop where
  | same (entity : TypeEntity) : Alike entity entity
  | usage {id : TypeId} {attributes : TypeAttributes} {containsParameters : Bool}
      {shape : TypeShape} {usage usage' : TypeUsage} (alike : usage.Alike usage')
      (composed : ∀ definition, shape ≠ .definition definition) :
      Alike { id, origin := .usage usage, attributes, containsParameters, shape }
        { id, origin := .usage usage', attributes, containsParameters, shape }

namespace TypeEntity.Alike

variable {entity entity' : TypeEntity}

theorem shape_eq (h : entity.Alike entity') : entity'.shape = entity.shape := by cases h <;> rfl

theorem containsParameters_eq (h : entity.Alike entity') :
    entity'.containsParameters = entity.containsParameters := by
  cases h <;> rfl

theorem definition?_eq (h : entity.Alike entity') : entity'.definition? = entity.definition? := by
  rw [definition?, h.shape_eq, ← definition?]

theorem declaredName?_eq (h : entity.Alike entity') :
    entity'.declaredName? = entity.declaredName? := by
  rw [declaredName?, h.definition?_eq, ← declaredName?]

theorem link?_eq (h : entity.Alike entity') (site : MemberSite) :
    entity'.link? site = entity.link? site := by
  rw [link?, h.definition?_eq, ← link?]

/-- Only definitions have links, so remembering a type keeps entities alike. -/
theorem memoize (h : entity.Alike entity') (site : MemberSite) (target : TypeId) :
    (entity.memoize site target).Alike (entity'.memoize site target) := by
  cases h with
  | same => exact .same _
  | @usage id attributes flag shape usage usage' alike composed =>
    cases shape with
    | definition definition => exact absurd rfl (composed definition)
    | _ => exact .usage alike composed

end TypeEntity.Alike

/-! ### Arenas -/

/-- Two slots are alike if they have the same key, and entities that are alike, or none. -/
structure Slot.Alike (slot slot' : Slot) : Prop where
  key : slot'.key = slot.key
  entity : Option.Rel TypeEntity.Alike slot.entity slot'.entity

/-- Two arenas are alike if the same keys and names lead to the same handles, as many handles were
issued, and slots are alike behind the same handles. -/
structure Arena.Alike (arena arena' : Arena) : Prop where
  reserved? (key : TypeKey) : arena'.reserved? key = arena.reserved? key
  find? (name : String) : arena'.find? name = arena.find? name
  issued : arena'.slots.size = arena.slots.size
  slots (id : TypeId) : Option.Rel Slot.Alike (arena.slot? id) (arena'.slot? id)

namespace Arena.Alike

variable {arena arena' : Arena} {entity entity' : TypeEntity}

theorem empty : Arena.empty.Alike .empty := ⟨fun _ => rfl, fun _ => rfl, rfl, fun _ => .none⟩

/-- Behind a handle there is no slot, an empty slot, or a filled one, in both arenas. -/
theorem slot?_cases (h : arena.Alike arena') (id : TypeId) :
    (arena.slot? id = none ∧ arena'.slot? id = none) ∨
      ∃ key, (arena.slot? id = some ⟨key, none⟩ ∧ arena'.slot? id = some ⟨key, none⟩) ∨
        ∃ entity entity', arena.slot? id = some ⟨key, some entity⟩ ∧
          arena'.slot? id = some ⟨key, some entity'⟩ ∧ entity.Alike entity' := by
  rcases rel_cases (h.slots id) with hnone | ⟨⟨_, _⟩, ⟨key, _⟩, hslot, hslot', rfl, hcontent⟩
  · exact .inl hnone
  · refine .inr ⟨key, ?_⟩
    rcases rel_cases hcontent with ⟨rfl, rfl⟩ | ⟨entity, entity', rfl, rfl, halike⟩
    · exact .inl ⟨hslot, hslot'⟩
    · exact .inr ⟨entity, entity', hslot, hslot', halike⟩

/-! ### Reading -/

/-- There are as many keys. -/
theorem size_eq (h : arena.Alike arena') : arena'.size = arena.size :=
  (Std.HashMap.Equiv.of_forall_getElem?_eq h.reserved?).size_eq

theorem isSome_entity?_eq (h : arena.Alike arena') (id : TypeId) :
    (arena'.entity? id).isSome = (arena.entity? id).isSome := by
  rw [entity?, entity?]
  rcases h.slot?_cases id with ⟨hslot, hslot'⟩ | ⟨key, ⟨hslot, hslot'⟩ | ⟨_, _, hslot, hslot', -⟩⟩
  · rw [hslot, hslot']
  · rw [hslot, hslot']
  · rw [hslot, hslot']
    rfl

/-- An entity is found under the same full name, if it is a definition. -/
theorem declaredName?_eq (h : arena.Alike arena') (id : TypeId) :
    (arena'.entity? id).bind TypeEntity.declaredName? =
      (arena.entity? id).bind TypeEntity.declaredName? := by
  rw [entity?, entity?]
  rcases h.slot?_cases id with
    ⟨hslot, hslot'⟩ | ⟨key, ⟨hslot, hslot'⟩ | ⟨entity, entity', hslot, hslot', halike⟩⟩
  · rw [hslot, hslot']
  · rw [hslot, hslot']
  · rw [hslot, hslot']
    exact halike.declaredName?_eq

theorem lookup?_eq (h : arena.Alike arena') (key : TypeKey) :
    arena'.lookup? key = arena.lookup? key := by
  simp only [lookup?, h.reserved?, h.isSome_entity?_eq]

theorem isLive_eq (h : arena.Alike arena') (id : TypeId) : arena'.isLive id = arena.isLive id := by
  rw [isLive, isLive]
  rcases h.slot?_cases id with
    ⟨hslot, hslot'⟩ | ⟨key, ⟨hslot, hslot'⟩ | ⟨_, _, hslot, hslot', -⟩⟩ <;>
    simp only [hslot, hslot', h.reserved?]

theorem all_eq (h : arena.Alike arena') : arena'.all = arena.all := by
  simp only [all, h.issued, h.isLive_eq, h.isSome_entity?_eq]

/-- A handle is read in both arenas, or refused for the same reason. -/
theorem get_cases (h : arena.Alike arena') (id : TypeId) :
    (∃ entity entity', arena.get id = .ok entity ∧ arena'.get id = .ok entity' ∧
      entity.Alike entity') ∨
        ∃ fault, arena.get id = .error fault ∧ arena'.get id = .error fault := by
  rw [get, get]
  rcases h.slot?_cases id with
    ⟨hslot, hslot'⟩ | ⟨key, ⟨hslot, hslot'⟩ | ⟨entity, entity', hslot, hslot', halike⟩⟩
  · exact .inr ⟨.unknownType id, by rw [hslot], by rw [hslot']⟩
  · exact .inr ⟨.unfilled id, by rw [hslot], by rw [hslot']⟩
  · exact .inl ⟨entity, entity', by rw [hslot], by rw [hslot'], halike⟩

theorem containsParameters_eq (h : arena.Alike arena') (id : TypeId) :
    arena'.containsParameters id = arena.containsParameters id := by
  rw [containsParameters, containsParameters]
  rcases h.slot?_cases id with
    ⟨hslot, hslot'⟩ | ⟨key, ⟨hslot, hslot'⟩ | ⟨entity, entity', hslot, hslot', halike⟩⟩
  · rw [hslot, hslot']
  · rw [hslot, hslot']
  · rw [hslot, hslot']
    exact congrArg Except.ok halike.containsParameters_eq

/-- **What is computed by recursion through operands is the same**, since it depends on shapes
alone. -/
theorem visit_eq {α : Type} (h : arena.Alike arena')
    (step : TypeShape → (TypeId → Except Fault α) → Except Fault α) (id : TypeId) :
    arena'.visit step id = arena.visit step id := by
  -- operands that are followed have smaller handles
  induction hindex : id.index using Nat.strongRecOn generalizing id with
  | ind index ih =>
    rcases h.get_cases id with ⟨entity, entity', hget, hget', halike⟩ | ⟨fault, hget, hget'⟩
    · rw [visit_of_get hget, visit_of_get hget', halike.shape_eq]
      congr 1
      funext operand
      split
      · next hless => exact ih operand.index (hindex ▸ hless) operand rfl
      · rfl
    · rw [visit_of_get_error hget, visit_of_get_error hget']

theorem namespaceName_eq (h : arena.Alike arena') : arena'.namespaceName = arena.namespaceName :=
  funext (h.visit_eq _)

theorem render_eq (h : arena.Alike arena') (naming : PointerNaming) (leaf : Definition → String) :
    arena'.render naming leaf = arena.render naming leaf :=
  funext (h.visit_eq _)

theorem fullName_eq (h : arena.Alike arena') (naming : PointerNaming) :
    arena'.fullName naming = arena.fullName naming := by
  have hname : arena'.name naming = arena.name naming := h.render_eq naming _
  rw [fullName, fullName, h.namespaceName_eq, hname]
  exact funext (h.visit_eq _)

/-! ### Changes -/

theorem reserve_fst_eq (h : arena.Alike arena') (key : TypeKey) :
    (arena'.reserve key).1 = (arena.reserve key).1 := congrArg TypeId.mk h.issued

theorem reserve (h : arena.Alike arena') (key : TypeKey) :
    (arena.reserve key).2.Alike (arena'.reserve key).2 where
  reserved? key' := by
    rw [reserved?_reserve, reserved?_reserve, h.reserve_fst_eq, h.reserved?]
  find? name := h.find? name
  issued := by rw [size_reserve, size_reserve, h.issued]
  slots id := by
    rw [slot?_reserve, slot?_reserve, h.reserve_fst_eq]
    split
    · exact .some ⟨rfl, .none⟩
    · exact h.slots id

/-- Entities that are alike are filled into the same slot, or refused for the same reason. -/
theorem fill (h : arena.Alike arena') (alike : entity.Alike entity') (id : TypeId) :
    SameOutcome Arena.Alike (arena.fill id entity) (arena'.fill id entity') := by
  rcases h.slot?_cases id with
    ⟨hslot, hslot'⟩ | ⟨key, ⟨hslot, hslot'⟩ | ⟨_, _, hslot, hslot', -⟩⟩
  · rw [Arena.fill, Arena.fill, hslot, hslot']
    exact .error (.same _)
  · obtain ⟨filled, hfilled⟩ : ∃ filled, arena.fill id entity = .ok filled :=
      ⟨_, by rw [Arena.fill, hslot]⟩
    obtain ⟨filled', hfilled'⟩ : ∃ filled', arena'.fill id entity' = .ok filled' :=
      ⟨_, by rw [Arena.fill, hslot']⟩
    rw [hfilled, hfilled']
    refine .ok ⟨fun key => ?_, fun name => ?_, ?_, fun id' => ?_⟩
    · rw [reserved?_fill hfilled, reserved?_fill hfilled', h.reserved?]
    · rw [find?_fill hfilled, find?_fill hfilled', alike.declaredName?_eq, h.find?]
    · rw [size_fill hfilled, size_fill hfilled', h.issued]
    · rw [slot?_fill hfilled, slot?_fill hfilled', hslot, hslot']
      split
      · exact .some ⟨rfl, .some alike⟩
      · exact h.slots id'
  · rw [Arena.fill, Arena.fill, hslot, hslot']
    exact .error (.same _)

theorem withdraw (h : arena.Alike arena') (key : TypeKey) (id : TypeId) :
    (arena.withdraw key id).Alike (arena'.withdraw key id) where
  reserved? key' := by rw [reserved?_withdraw, reserved?_withdraw, h.reserved?, h.reserved?]
  find? name := by rw [find?_withdraw, find?_withdraw, h.declaredName?_eq, h.find?]
  issued := h.issued
  slots := h.slots

theorem withdrawAll (h : arena.Alike arena') (entries : List (TypeKey × TypeId)) :
    (arena.withdrawAll entries).Alike (arena'.withdrawAll entries) := by
  induction entries generalizing arena arena' with
  | nil => exact h
  | cons entry rest ih => exact ih (h.withdraw entry.1 entry.2)

theorem memoize (h : arena.Alike arena') (site : MemberSite) (target id : TypeId) :
    (arena.modify (TypeEntity.memoize site target) id).Alike
      (arena'.modify (TypeEntity.memoize site target) id) where
  reserved? := h.reserved?
  find? := h.find?
  issued := by simp only [modify, Array.size_modify, h.issued]
  slots id' := by
    rw [slot?_modify, slot?_modify]
    split
    · rcases h.slot?_cases id with
        ⟨hslot, hslot'⟩ | ⟨key, ⟨hslot, hslot'⟩ | ⟨_, _, hslot, hslot', halike⟩⟩
      · rw [hslot, hslot']
        exact .none
      · rw [hslot, hslot']
        exact .some ⟨rfl, .none⟩
      · rw [hslot, hslot']
        exact .some ⟨rfl, .some (halike.memoize site target)⟩
    · exact h.slots id'

end Arena.Alike

end TypeGraph
