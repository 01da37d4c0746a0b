import Mathlib
import TypeGraph.Proofs.Dangling

/-!
# Qualified names

The namespace, the simple name and the full name of a type are computed separately. Each follows the
operands of the type on its own, and each puts the namespace of a definition in another place or in
none. They agree all the same: the full name is the simple name with the namespace in front.

There is one exception. Where a placeholder stands for all pointers, the name of a pointer is cut
off at the placeholder while its namespace is not, so that the full name has no namespace in front.
The exception reaches as far as arrays lead to a pointer, and no further: the full name of an
instantiation takes the simple names of its arguments as they are.

## Main definitions

* `Arena.Wraps` — an array leads to its element, and a pointer to what it points to
* `Arena.HasPointer` — a pointer is met on the way inwards
* `Arena.AroundPointer` — the ranks of the arrays around the outermost pointer
* `TypeModel.Qualifies` — what the full name of a type has to do with its simple name

## Main results

* `qualify_append` — what follows a name follows the qualified name
* `Arena.Honest.fullName_of_name` — the full name is the qualified name, also at spent handles
* `TypeModel.Reachable.qualifies` — full names of live types, in both ways of naming pointers
-/

namespace TypeGraph

/-! ### Pieces of names -/

/-- What follows a name follows the qualified name. -/
theorem qualify_append (namespaceName name rest : String) :
    qualify namespaceName (name ++ rest) = qualify namespaceName name ++ rest := by
  rw [qualify, qualify]
  split
  · rfl
  · simp only [String.append_assoc]

/-- The suffixes of several arrays, that of the outermost last. -/
def arraySuffixes (ranks : List UInt32) : String := String.join (ranks.map arraySuffix)

theorem arraySuffixes_append_singleton (ranks : List UInt32) (rank : UInt32) :
    arraySuffixes (ranks ++ [rank]) = arraySuffixes ranks ++ arraySuffix rank := by
  simp [arraySuffixes]

namespace Arena

variable {store : Store} {limit : Nat} {arena : Arena} {naming : PointerNaming} {id : TypeId}
  {entity : TypeEntity}

/-! ### The way inwards -/

/-- An array leads to its element, and a pointer to what it points to. -/
def Wraps (arena : Arena) (id inner : TypeId) : Prop := arena.elementType id = .ok (some inner)

/-- On the way from a type through elements and pointees there is a pointer, be it the type
itself. -/
def HasPointer (arena : Arena) (id : TypeId) : Prop :=
  ∃ inner entity, Relation.ReflTransGen arena.Wraps id inner ∧ arena.get inner = .ok entity ∧
    entity.isPointer = true

/-- The ranks of the arrays that lie around the outermost pointer of a type, from the inside out. -/
inductive AroundPointer (arena : Arena) : TypeId → List UInt32 → Prop where
  | pointer {id pointee : TypeId} {entity : TypeEntity} (found : arena.get id = .ok entity)
      (shaped : entity.shape = .pointer pointee) : AroundPointer arena id []
  | array {id element : TypeId} {entity : TypeEntity} {rank : UInt32} {isVector : Bool}
      {ranks : List UInt32} (found : arena.get id = .ok entity)
      (shaped : entity.shape = .array element rank isVector)
      (inside : AroundPointer arena element ranks) : AroundPointer arena id (ranks ++ [rank])

theorem HasPointer.of_pointer {pointee : TypeId} (found : arena.get id = .ok entity)
    (shaped : entity.shape = .pointer pointee) : arena.HasPointer id :=
  ⟨id, entity, .refl, found, by rw [TypeEntity.isPointer, shaped]⟩

theorem HasPointer.of_wraps {inner : TypeId} (h : arena.HasPointer inner)
    (wraps : arena.Wraps id inner) : arena.HasPointer id := by
  obtain ⟨last, entity, hchain, hfound, hpointer⟩ := h
  exact ⟨last, entity, hchain.head wraps, hfound, hpointer⟩

theorem wraps_of_array {element : TypeId} {rank : UInt32} {isVector : Bool}
    (found : arena.get id = .ok entity) (shaped : entity.shape = .array element rank isVector) :
    arena.Wraps id element := by
  rw [Wraps, elementType, found]
  simp [TypeEntity.elementType, shaped]

/-- Where a pointer is met, arrays lie around it. -/
theorem HasPointer.exists_around (h : arena.HasPointer id) :
    ∃ ranks, arena.AroundPointer id ranks := by
  obtain ⟨last, entity, hchain, hfound, hpointer⟩ := h
  induction hchain using Relation.ReflTransGen.head_induction_on with
  | refl =>
    rw [TypeEntity.isPointer] at hpointer
    split at hpointer
    · next pointee hshape => exact ⟨[], .pointer hfound hshape⟩
    · cases hpointer
  | @head id inner wraps _ ih =>
    obtain ⟨ranks, haround⟩ := ih
    obtain ⟨outer, houter, hinner⟩ := bind_eq_ok_iff.mp wraps
    have helement : outer.elementType = some inner := Except.ok.inj hinner
    rw [TypeEntity.elementType] at helement
    split at helement
    · next element rank isVector hshape =>
      obtain rfl := Option.some.inj helement
      exact ⟨ranks ++ [rank], .array houter hshape haround⟩
    · next pointee hshape => exact ⟨[], .pointer houter hshape⟩
    · cases helement

/-! ### Full names -/

namespace Honest

variable (honest : arena.Honest store limit)

include honest

/-- **The full name is the qualified name**, unless a placeholder stands for a pointer on the way
inwards. This holds at spent handles as well, as far as they have names. -/
theorem fullName_of_name {namespaceName name : String}
    (plain : naming = .pointee ∨ ¬ arena.HasPointer id)
    (hnamespace : arena.namespaceName id = .ok namespaceName)
    (hname : arena.name naming id = .ok name) :
    arena.fullName naming id = .ok (qualify namespaceName name) := by
  induction id using honest.handleInduction generalizing name with
  | unreadable id fault failed => cases hname.symm.trans (visit_of_get_error failed _)
  | readable id entity found ih =>
    have hrender := hname
    rw [honest.namespaceName_eq found] at hnamespace
    rw [Arena.name, honest.render_eq found] at hrender
    rw [honest.fullName_eq found]
    cases hshape : entity.shape with
    | definition definition =>
      rw [hshape] at hnamespace hrender
      obtain rfl := Except.ok.inj hnamespace
      obtain rfl := Except.ok.inj hrender
      rfl
    | genericInstance head =>
      -- an instantiation is qualified as a whole, by the namespace of its head
      rw [hshape] at hnamespace
      simp only [hnamespace, hname]
      rfl
    | array element rank isVector =>
      rw [hshape] at hnamespace hrender ih
      obtain ⟨inner, hinner, rfl⟩ := map_eq_ok_iff.mp hrender
      have hwraps := wraps_of_array found hshape
      have hplain : naming = .pointee ∨ ¬ arena.HasPointer element :=
        plain.imp_right fun hnone hpointer => hnone (hpointer.of_wraps hwraps)
      simp only [ih element List.mem_cons_self hplain hnamespace hinner, qualify_append]
      rfl
    | pointer pointee =>
      -- there is a pointer here, so it is named by what it points to
      rw [hshape] at hnamespace hrender ih
      obtain rfl : naming = .pointee :=
        plain.resolve_right fun hnone => hnone (.of_pointer found hshape)
      obtain ⟨inner, hinner, rfl⟩ := map_eq_ok_iff.mp hrender
      simp only [PointerNaming.pointerName,
        ih pointee List.mem_cons_self (.inl rfl) hnamespace hinner, qualify_append]
      rfl
    | genericParameter index position ofMethod placeholder =>
      rw [hshape] at hnamespace hrender
      obtain rfl := Except.ok.inj hnamespace
      obtain rfl := Except.ok.inj hrender
      rfl

/-- Under the placeholder, both names of a type with a pointer begin with the placeholder, and go on
with the arrays around the outermost pointer. -/
theorem names_of_around {ranks : List UInt32} (around : arena.AroundPointer id ranks) :
    arena.name .voidPlaceholder id = .ok ("void *" ++ arraySuffixes ranks) ∧
      arena.fullName .voidPlaceholder id = .ok ("void *" ++ arraySuffixes ranks) := by
  induction around with
  | pointer found shaped =>
    rw [Arena.name, honest.render_eq found, honest.fullName_eq found, shaped]
    exact ⟨rfl, rfl⟩
  | @array _ element _ rank _ ranks found shaped inside ih =>
    obtain ⟨hname, hfullName⟩ := ih
    rw [Arena.name] at hname ⊢
    rw [honest.render_eq found, honest.fullName_eq found, shaped]
    simp only [hname, hfullName, arraySuffixes_append_singleton, ← String.append_assoc]
    exact ⟨rfl, rfl⟩

end Honest

end Arena

/-! ### Models -/

namespace TypeModel

variable {store : Store} {config : Config} {model : TypeModel} {id : TypeId}

/-- What the full name of a type has to do with its simple name. -/
structure Qualifies (model : TypeModel) (id : TypeId) : Prop where
  /-- The full name is the qualified name, if pointers are named by what they point to, or if none
  is met on the way inwards. -/
  qualified : model.config.pointerNaming = .pointee ∨ ¬ model.arena.HasPointer id →
    ∃ namespaceName name, model.namespaceName id = .ok namespaceName ∧ model.name id = .ok name ∧
      model.fullName id = .ok (qualify namespaceName name)
  /-- Otherwise both names are the placeholder with the suffixes of the arrays around it. -/
  placeholder : model.config.pointerNaming = .voidPlaceholder → model.arena.HasPointer id →
    ∃ ranks, model.arena.AroundPointer id ranks ∧
      model.name id = .ok ("void *" ++ arraySuffixes ranks) ∧
      model.fullName id = model.name id

/-- **The full name of a live type is its qualified name**, or both begin with the placeholder. -/
theorem Reachable.qualifies (h : Reachable store config model) (live : id ∈ model.all) :
    model.Qualifies id := by
  have hhonest := h.honest
  have hconfined := hhonest.confined_all h.arenaSound
  constructor
  case qualified =>
    intro hplain
    obtain ⟨namespaceName, hnamespace⟩ := (hconfined.namespaceName hhonest live).exists_ok
    obtain ⟨name, hname⟩ := (hconfined.render hhonest live).exists_ok
    exact ⟨namespaceName, name, hnamespace, hname,
      hhonest.fullName_of_name hplain hnamespace hname⟩
  case placeholder =>
    intro hnaming hpointer
    obtain ⟨ranks, haround⟩ := hpointer.exists_around
    obtain ⟨hname, hfullName⟩ := hhonest.names_of_around haround
    rw [TypeModel.name, TypeModel.fullName, hnaming]
    exact ⟨ranks, haround, hname, hfullName.trans hname.symm⟩

end TypeModel

/-! ### An image with arrays of pointers -/

/-- An image with a three-dimensional array of vectors of pointers to a node. -/
def Store.grid : Store where
  strings := ⟨"\x00Graph\x00Node\x00".toUTF8, Std.HashMap.emptyWithCapacity⟩
  definitions := #[{ namespaceName := ⟨1⟩, name := ⟨7⟩ }]
  mapped := Std.HashMap.emptyWithCapacity
    |>.insert ⟨1⟩ (.arrayDescriptor ⟨⟨2⟩, 3, 0, 0⟩) |>.insert ⟨2⟩ (.usage (.vector ⟨3⟩))
    |>.insert ⟨3⟩ (.usage (.pointer ⟨4⟩)) |>.insert ⟨4⟩ (.usage (.definition ⟨0⟩))

/-- Named by what its pointers point to, the array has its namespace in front; under the placeholder
it has not, and keeps both suffixes. -/
theorem TypeModel.qualifies_grid :
    (((TypeModel.new .grid .standard).askEach [.usage (.array ⟨1⟩)]).2.fullName ⟨3⟩ =
        .ok "Graph.Node*[][,,]" ∧
      ((TypeModel.new .grid .standard).askEach [.usage (.array ⟨1⟩)]).2.Qualifies ⟨3⟩) ∧
    ((TypeModel.new .grid .legacy).askEach [.usage (.array ⟨1⟩)]).2.fullName ⟨3⟩ =
        .ok "void *[][,,]" ∧
      ((TypeModel.new .grid .legacy).askEach [.usage (.array ⟨1⟩)]).2.Qualifies ⟨3⟩ := by
  have hlive (config : Config) (h : config = .standard ∨ config = .legacy) :
      ⟨3⟩ ∈ ((TypeModel.new .grid config).askEach [.usage (.array ⟨1⟩)]).2.all := by
    have hall : ((TypeModel.new .grid config).askEach [.usage (.array ⟨1⟩)]).2.all =
        [⟨0⟩, ⟨1⟩, ⟨2⟩, ⟨3⟩] := by
      rcases h with rfl | rfl <;> cbv
    rw [hall]
    decide
  refine ⟨⟨by cbv, ?_⟩, by cbv, ?_⟩
  · exact Reachable.qualifies (reachable_askEach .new [.usage (.array ⟨1⟩)]) (hlive _ (.inl rfl))
  · exact Reachable.qualifies (reachable_askEach .new [.usage (.array ⟨1⟩)]) (hlive _ (.inr rfl))

end TypeGraph
