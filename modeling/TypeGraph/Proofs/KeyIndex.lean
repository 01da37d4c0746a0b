import Mathlib
import TypeGraph.Proofs.LiveTrees

/-!
# The key index

A key is entered into the index before its entity exists, entities of definitions are filled long
after those of composites, and a request that fails withdraws whatever it entered. Between requests
none of this shows: the key index leads to exactly the live types, each under the key that its own
shape spells out.

## Main definitions

* `TypeModel.IndexAgrees` — the key index of a model agrees with its arena

## Main results

* `TypeModel.Reachable.indexAgrees` — it does in every reachable model
* `TypeModel.Reachable.resolveAll` — asking for all definitions is asking for one after the other
-/

namespace TypeGraph

/-! ### Shapes of live types -/

/-- What has the key of a definition is that definition. -/
theorem TypeShape.exists_of_key_eq_definition {shape : TypeShape} {index : DefinitionIndex}
    (h : shape.key = .definition index) :
    ∃ definition, shape = .definition definition ∧ definition.index = index := by
  cases shape with
  | definition definition => exact ⟨definition, rfl, TypeKey.definition.inj h⟩
  | array element rank isVector => cases isVector <;> cases h
  | _ => cases h

/-- A rank that is positive is positive without its sign as well. -/
theorem ArrayDescriptor.one_le_toUInt32_rank {descriptor : ArrayDescriptor}
    (counted : 1 ≤ descriptor.rank) : 1 ≤ descriptor.rank.toUInt32 := by
  have hpos : descriptor.rank.toUInt32 ≠ 0 := by
    intro hzero
    have hsame : descriptor.rank = 0 := congrArg Int32.ofUInt32 hzero
    rw [hsame] at counted
    exact absurd counted (by decide)
  rw [UInt32.le_iff_toNat_le]
  exact Nat.one_le_iff_ne_zero.mpr fun hzero => hpos (UInt32.toNat_inj.mp hzero)

/-- The rank of an array that a usage denotes is at least one. -/
theorem Denotes.one_le_rank {store : Store} {usage : TypeUsage} {element : TypeTree}
    {rank : UInt32} (h : Denotes store usage (.array element rank)) : 1 ≤ rank := by
  cases h with
  | array shape described counted ranked reads inner =>
    exact ranked ▸ ArrayDescriptor.one_le_toUInt32_rank counted

namespace Arena

variable {store : Store} {limit : Nat} {arena : Arena} {tree : TypeTree} {id : TypeId}
  {entity : TypeEntity}

/-- What depicts a tree and is no definition was made for the tree. -/
theorem Depicts.exists_makes (h : arena.Depicts store limit tree entity)
    (plain : entity.definition? = none) :
    ∃ usage, Denotes store usage tree ∧
      arena.Makes store tree entity.attributes entity.containsParameters entity.shape := by
  cases h with
  | definition found portrays => cases plain
  | usage denotes shallow makes => exact ⟨_, denotes, makes⟩

namespace Honest

variable (honest : arena.Honest store limit) (sound : arena.Sound store limit)

include honest sound

/-- The entity of a live type knows its handle, and has the key that leads to it. -/
theorem depicted_of_mem_all (live : id ∈ arena.all) (found : arena.entity? id = some entity) :
    entity.id = id ∧ arena.reserved? entity.key = some id ∧
      ∃ tree, arena.Depicts store limit tree entity.forget := by
  obtain ⟨key, hid⟩ := sound.mem_all_iff.mp live
  obtain ⟨hsame, rfl, hdepicts⟩ := honest.depicted hid found
  exact ⟨hsame, hid, hdepicts⟩

/-- A live type that is no definition was made for a tree that a usage denotes. -/
theorem exists_makes {shape : TypeShape} (live : id ∈ arena.all)
    (found : arena.entity? id = some entity) (shaped : entity.shape = shape)
    (plain : entity.definition? = none) :
    ∃ tree usage attributes flag, Denotes store usage tree ∧
      arena.Makes store tree attributes flag shape := by
  subst shaped
  obtain ⟨-, -, tree, hdepicts⟩ := honest.depicted_of_mem_all sound live found
  rw [TypeEntity.forget_of_definition?_eq_none plain] at hdepicts
  obtain ⟨usage, hdenotes, hmakes⟩ := hdepicts.exists_makes plain
  exact ⟨tree, usage, _, _, hdenotes, hmakes⟩

end Honest

end Arena

/-! ### Models -/

namespace TypeModel

variable {store : Store} {config : Config} {model : TypeModel}

/-- The key index of a model agrees with its arena. -/
structure IndexAgrees (model : TypeModel) : Prop where
  /-- Live types are listed in strictly increasing order. -/
  ordered : model.all.Pairwise fun id id' => id.index < id'.index
  /-- There are as many live types as keys. -/
  counted : model.all.length = model.size
  /-- A key leads to a handle exactly if the type is live, knows its handle and has the key. -/
  lookup?_iff (key : TypeKey) (id : TypeId) : model.lookup? key = some id ↔
    id ∈ model.all ∧ ∃ entity, model.get id = .ok entity ∧ entity.id = id ∧ key = entity.shape.key
  /-- A live array has at least one dimension, and a vector has just one. -/
  ranked {id : TypeId} {entity : TypeEntity} {element : TypeId} {rank : UInt32} {isVector : Bool} :
    id ∈ model.all → model.get id = .ok entity → entity.shape = .array element rank isVector →
      1 ≤ rank ∧ (isVector = true → rank = 1)
  /-- The head of a live instantiation is live, and is the definition that the row names. -/
  headed {id : TypeId} {entity : TypeEntity} {head : TypeId} {index : DefinitionIndex}
    {arguments : List TypeId} :
    id ∈ model.all → model.get id = .ok entity →
      entity.shape = .genericInstance head index arguments →
      head ∈ model.all ∧ ∃ generic definition, model.get head = .ok generic ∧
        generic.shape = .definition definition ∧ definition.index = index
  /-- Whatever is reserved is filled. -/
  filled {key : TypeKey} {id : TypeId} :
    model.arena.reserved? key = some id → ∃ entity, model.get id = .ok entity

/-- **The key index of every reachable model agrees with its arena**, whatever requests went
through or failed. -/
theorem Reachable.indexAgrees (h : Reachable store config model) : model.IndexAgrees := by
  have hsound := h.arenaSound
  have hhonest := h.honest
  have hfilled {key : TypeKey} {id : TypeId} (hid : model.arena.reserved? key = some id) :
      ∃ entity, model.arena.entity? id = some entity :=
    Option.isSome_iff_exists.mp (hsound.isSome_entity? hid)
  constructor
  case ordered => exact model.arena.pairwise_all
  case counted => exact hsound.length_all
  case lookup?_iff =>
    intro key id
    rw [lookup?, hsound.lookup?_eq]
    constructor
    · intro hid
      obtain ⟨entity, hentity⟩ := hfilled hid
      obtain ⟨hsame, hkey, -⟩ := hhonest.depicted hid hentity
      exact ⟨hsound.mem_all_iff.mpr ⟨key, hid⟩, entity, Arena.get_eq_ok_iff.mpr hentity, hsame,
        hkey.symm⟩
    · rintro ⟨hlive, entity, hget, -, rfl⟩
      exact (hhonest.depicted_of_mem_all hsound hlive (Arena.get_eq_ok_iff.mp hget)).2.1
  case ranked =>
    intro id entity element rank isVector hlive hget hshape
    have hplain : entity.definition? = none := by rw [TypeEntity.definition?, hshape]
    obtain ⟨tree, usage, attributes, flag, hdenotes, hmakes⟩ :=
      hhonest.exists_makes hsound hlive (Arena.get_eq_ok_iff.mp hget) hshape hplain
    cases hmakes with
    | array operand flagged => exact ⟨hdenotes.one_le_rank, fun h => absurd h Bool.false_ne_true⟩
    | vector operand flagged => exact ⟨by decide, fun _ => rfl⟩
  case headed =>
    intro id entity head index arguments hlive hget hshape
    have hplain : entity.definition? = none := by rw [TypeEntity.definition?, hshape]
    obtain ⟨tree, usage, attributes, flag, hdenotes, hmakes⟩ :=
      hhonest.exists_makes hsound hlive (Arena.get_eq_ok_iff.mp hget) hshape hplain
    cases hmakes with
    | genericInstance generic operands flagged =>
      obtain ⟨found, hfound⟩ := hfilled generic
      obtain ⟨-, hkey, -⟩ := hhonest.depicted generic hfound
      obtain ⟨definition, hdefinition, hindex⟩ := TypeShape.exists_of_key_eq_definition hkey
      exact ⟨hsound.mem_all_iff.mpr ⟨_, generic⟩, found, definition,
        Arena.get_eq_ok_iff.mpr hfound, hdefinition, hindex⟩
  case filled =>
    intro key id hid
    obtain ⟨entity, hentity⟩ := hfilled hid
    exact ⟨entity, Arena.get_eq_ok_iff.mpr hentity⟩

/-! ### All definitions -/

/-- Asking for several definitions is a history. -/
theorem model_resolveEach (indices : List DefinitionIndex) (model : TypeModel) :
    (model.resolveEach indices).2 = (model.askEach (indices.map .definition)).2 := by
  induction indices generalizing model with
  | nil => rfl
  | cons index rest ih => exact ih _

/-- Asking for all definitions is asking for one after the other. -/
theorem Reachable.resolveAll (h : Reachable store config model) :
    Reachable store config model.resolveAll.2 := by
  have hreachable := reachable_askEach h (model.store.definitionIndices.map .definition)
  rwa [← model_resolveEach] at hreachable

end TypeModel

/-! ### An image with a failure in its midst -/

/-- An image whose first definition derives from an instantiation that mentions it, by itself and in
a vector. The third one derives from an instantiation over the same vector and over the last one,
which has no name. -/
def Store.tangle : Store where
  definitions := #[{ parent := some ⟨0⟩ }, {}, { parent := some ⟨1⟩ }, { name := ⟨9⟩ }]
  usages := #[⟨1⟩, ⟨2⟩]
  mapped := Std.HashMap.emptyWithCapacity
    |>.insert ⟨1⟩ (.usage (.genericInstance ⟨3⟩)) |>.insert ⟨2⟩ (.usage (.genericInstance ⟨6⟩))
    |>.insert ⟨3⟩ (.genericClass ⟨⟨1⟩, ⟨4⟩⟩) |>.insert ⟨4⟩ (.genericInstantiation ⟨2, ⟨5⟩⟩)
    |>.insert ⟨5⟩ (.argumentList [⟨8⟩, ⟨9⟩]) |>.insert ⟨6⟩ (.genericClass ⟨⟨1⟩, ⟨7⟩⟩)
    |>.insert ⟨7⟩ (.genericInstantiation ⟨2, ⟨10⟩⟩) |>.insert ⟨8⟩ (.usage (.definition ⟨0⟩))
    |>.insert ⟨9⟩ (.usage (.vector ⟨8⟩)) |>.insert ⟨10⟩ (.argumentList [⟨9⟩, ⟨11⟩])
    |>.insert ⟨11⟩ (.usage (.definition ⟨3⟩))

/-- The first request uses up six handles before it fails, and the second one makes some of the same
types again. -/
theorem TypeModel.indexAgrees_tangle :
    ((TypeModel.new .tangle .standard).askEach [.definition ⟨2⟩, .definition ⟨0⟩]).1 =
        [.error (.indexOutOfRange .string 9 1), .ok (some ⟨6⟩)] ∧
      ((TypeModel.new .tangle .standard).askEach [.definition ⟨2⟩, .definition ⟨0⟩]).2.all =
        [⟨6⟩, ⟨7⟩, ⟨8⟩, ⟨9⟩] ∧
      ((TypeModel.new .tangle .standard).askEach
        [.definition ⟨2⟩, .definition ⟨0⟩]).2.IndexAgrees := by
  refine ⟨by cbv, by cbv, ?_⟩
  exact Reachable.indexAgrees (reachable_askEach .new [.definition ⟨2⟩, .definition ⟨0⟩])

end TypeGraph
