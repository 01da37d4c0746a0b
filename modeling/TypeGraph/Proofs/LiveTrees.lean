import TypeGraph.Arena.ReadBack
import TypeGraph.Proofs.Contents
import TypeGraph.Proofs.Parts

/-!
# Live types and their trees

Between requests, the live types are exactly those that a key leads to, and each of them stands for
one tree. The tree can be found in two ways, which agree: it is read back by following operands from
the handle down, and the handle is found by looking up the keys of the tree from its leaves upwards.

## Main results

* `Arena.Sound.mem_all_iff` — a type is live exactly if a key leads to it
* `Arena.Sound.perm_all`, `Arena.Sound.length_all` — each live type is listed once, and has one key
* `Arena.Honest.exists_of_idOf` — what the entity behind the handle of a tree is
* `Arena.Honest.holds_iff` — a tree is read back from a handle exactly if it is looked up there
-/

namespace TypeGraph

/-! ### Live types -/

namespace Arena

variable {store : Store} {limit : Nat} {arena : Arena}

/-- Live types are listed in the order of their handles. -/
theorem pairwise_all (arena : Arena) : arena.all.Pairwise fun id id' => id.index < id'.index := by
  refine List.Pairwise.filter _ (List.pairwise_map.mpr ?_)
  exact List.pairwise_lt_range

theorem nodup_all (arena : Arena) : arena.all.Nodup := by
  refine arena.pairwise_all.imp fun hlt => ?_
  rintro rfl
  exact Nat.lt_irrefl _ hlt

theorem exists_entity_of_mem_all {id : TypeId} (live : id ∈ arena.all) :
    ∃ entity, arena.entity? id = some entity := by
  rw [all, List.mem_filter, Bool.and_eq_true] at live
  exact Option.isSome_iff_exists.mp live.2.2

namespace Sound

variable (sound : arena.Sound store limit)

include sound

theorem keyed {key : TypeKey} {id : TypeId} (hid : arena.reserved? key = some id) :
    arena.keyAt? id = some key :=
  Transaction.Sound.keyed sound hid

/-- **A type is live exactly if a key leads to it.** -/
theorem mem_all_iff {id : TypeId} :
    id ∈ arena.all ↔ ∃ key, arena.reserved? key = some id := by
  rw [all, List.mem_filter, Bool.and_eq_true, List.mem_map]
  constructor
  · rintro ⟨-, hlive, -⟩
    obtain ⟨key, -, hid⟩ := isLive_iff.mp hlive
    exact ⟨key, hid⟩
  · rintro ⟨key, hid⟩
    have hkey := sound.keyed hid
    exact ⟨⟨id.index, List.mem_range.mpr (index_lt_of_keyAt? hkey), rfl⟩,
      isLive_iff.mpr ⟨key, hkey, hid⟩, sound.isSome_entity? hid⟩

/-- Each live type is listed once for its key. -/
theorem perm_all : arena.all.Perm (arena.keys.toList.map Prod.snd) := by
  have hmem {entry : TypeKey × TypeId} (h : entry ∈ arena.keys.toList) :
      arena.reserved? entry.1 = some entry.2 :=
    Std.HashMap.mem_toList_iff_getElem?_eq_some.mp h
  have hnodup : (arena.keys.toList.map Prod.snd).Nodup := by
    refine List.pairwise_map.mpr ?_
    refine arena.keys.distinct_keys_toList.imp_of_mem fun {entry entry'} h h' hne hsame => ?_
    -- no handle stands for two keys
    have hkeys := Transaction.Sound.keysDistinct sound (hmem h) (hsame ▸ hmem h')
    rw [hkeys, beq_self_eq_true] at hne
    cases hne
  refine (List.perm_ext_iff_of_nodup arena.nodup_all hnodup).mpr fun id => ?_
  rw [sound.mem_all_iff, List.mem_map]
  constructor
  · rintro ⟨key, hid⟩
    exact ⟨(key, id), Std.HashMap.mem_toList_iff_getElem?_eq_some.mpr hid, rfl⟩
  · rintro ⟨entry, h, rfl⟩
    exact ⟨entry.1, hmem h⟩

/-- There are as many live types as keys. -/
theorem length_all : arena.all.length = arena.size := by
  rw [sound.perm_all.length_eq, List.length_map, Std.HashMap.length_toList]
  rfl

end Sound

end Arena

/-! ### Entities of trees -/

/-- What links remember has no part in a tree. -/
theorem TypeTree.ofShape_forget (entity : TypeEntity)
    (ofOperand : TypeId → Except Fault TypeTree) :
    TypeTree.ofShape entity.forget.shape ofOperand = TypeTree.ofShape entity.shape ofOperand := by
  rw [TypeEntity.forget]
  split
  · next definition hshape => rw [hshape]; rfl
  · rfl

namespace Arena

variable {store : Store} {limit : Nat} {arena : Arena} {tree : TypeTree} {id : TypeId}

/-- A tree is read off what is made for it, if its parts are read from their handles. -/
theorem Makes.ofShape {attributes : TypeAttributes} {flag : Bool} {shape : TypeShape}
    (h : arena.Makes store tree attributes flag shape) {ofOperand : TypeId → Except Fault TypeTree}
    (each : List.Forall₂ (fun part id => ofOperand id = .ok part) tree.parts shape.operands) :
    TypeTree.ofShape shape ofOperand = .ok tree := by
  cases h with
  | genericParameter found => rfl
  | genericInstance generic operands flagged =>
    have hmapM := mapM_eq_ok_iff.mpr (List.forall₂_cons.mp each).2.flip
    rw [TypeTree.ofShape, hmapM]
    rfl
  | array operand flagged | vector operand flagged | pointer operand flagged =>
    rw [TypeTree.ofShape, (List.forall₂_cons.mp each).1]
    rfl

/-- A definition has a base exactly if its row has a parent, and then the base is the handle of the
tree that is read for the parent. -/
theorem Portrays.exists_base {waiting : Pending} {definition : Definition}
    (h : arena.Portrays store limit waiting definition) :
    (definition.base = none ↔ waiting.row.parent = none) ∧
      ∀ parent, waiting.row.parent = some parent → ∃ base tree, definition.base = some base ∧
        (Query.usageIndex parent).readTree store limit = .ok tree ∧
          arena.idOf tree = some base := by
  obtain ⟨parent, hparent, hbase⟩ := h.base
  rw [Store.readParent_eq_ok_iff] at hparent
  cases hindex : waiting.row.parent with
  | none =>
    rw [hindex] at hparent
    cases parent with
    | some tree => cases hparent
    | none =>
      have hnone : definition.base = none := Option.map_eq_none_iff.mp hbase.symm
      exact ⟨iff_of_true hnone rfl, fun _ => nofun⟩
  | some index =>
    rw [hindex] at hparent
    cases parent with
    | none => cases hparent
    | some tree =>
      obtain ⟨usage, husage, hdenotes, hshallow⟩ := hparent
      obtain ⟨base, hsome, hid⟩ := Option.map_eq_some_iff.mp hbase.symm
      refine ⟨iff_of_false (by simp [hsome]) nofun, fun other hother => ?_⟩
      obtain rfl := Option.some.inj hother
      refine ⟨base, tree, hsome, bind_eq_ok_iff.mpr ⟨usage, husage, ?_⟩, hid.symm⟩
      exact Store.readTree_eq_ok_iff.mpr ⟨hdenotes, hshallow⟩

namespace Depicts

variable {entity : TypeEntity}

/-- What depicts a tree has the key of the tree. -/
theorem keyOf (h : arena.Depicts store limit tree entity) :
    arena.keyOf tree = some entity.key := by
  cases h with
  | definition found portrays =>
    rw [Arena.keyOf, ← portrays.index]
    rfl
  | usage denotes shallow makes => exact makes.keyOf

/-- The operands of what depicts a tree are the handles of its parts. -/
theorem idsOf_parts (h : arena.Depicts store limit tree entity) :
    arena.idsOf tree.parts = some entity.shape.operands := by
  rw [← entity.shape.operands_key]
  exact Arena.idsOf_parts h.keyOf

/-- A tree is read off what depicts it, if its parts are read from their handles. -/
theorem ofShape (h : arena.Depicts store limit tree entity)
    {ofOperand : TypeId → Except Fault TypeTree}
    (each : List.Forall₂ (fun part id => ofOperand id = .ok part) tree.parts
      entity.shape.operands) :
    TypeTree.ofShape entity.shape ofOperand = .ok tree := by
  cases h with
  | definition found portrays =>
    rw [← portrays.index]
    rfl
  | usage denotes shallow makes => exact makes.ofShape each

/-- What depicts a tree and declares a definition is the entity of its row, but for what its links
remember. -/
theorem exists_portrays {definition : Definition}
    (h : arena.Depicts store limit tree entity.forget)
    (declares : entity.definition? = some definition) :
    ∃ waiting : Pending, tree = .definition waiting.index ∧ entity = waiting.entity definition ∧
      store.definition waiting.index = .ok waiting.row ∧
      arena.Portrays store limit waiting definition.forget := by
  obtain ⟨id, origin, attributes, flag, shape⟩ := entity
  obtain rfl := TypeEntity.definition?_eq_some_iff.mp declares
  generalize hplain : TypeEntity.forget _ = plain at h
  cases h with
  | @definition waiting contents found portrays =>
    obtain ⟨rfl, rfl, rfl, rfl, hshape⟩ := TypeEntity.mk.inj hplain
    obtain rfl := TypeShape.definition.inj hshape
    exact ⟨waiting, rfl, rfl, found, portrays⟩
  | usage denotes shallow makes =>
    have hnone := makes.definition?_eq_none (congrArg TypeEntity.shape hplain)
    cases hnone

end Depicts

namespace Honest

variable (honest : arena.Honest store limit) (sound : arena.Sound store limit)

include honest sound

/-- **The entity behind the handle of a tree depicts the tree.** -/
theorem exists_of_idOf (found : arena.idOf tree = some id) :
    ∃ entity, arena.entity? id = some entity ∧ entity.id = id ∧
      arena.reserved? entity.key = some id ∧ arena.Depicts store limit tree entity.forget := by
  obtain ⟨key, hkey, hid⟩ := idOf_eq_some_iff.mp found
  obtain ⟨entity, hentity⟩ := Option.isSome_iff_exists.mp (sound.isSome_entity? hid)
  obtain ⟨hsame, rfl, tree', hdepicts⟩ := honest.depicted hid hentity
  have hfound' : arena.idOf tree' = some id :=
    idOf_eq_some_iff.mpr ⟨_, hdepicts.keyOf, entity.key_forget ▸ hid⟩
  obtain rfl := tree_eq_of_idOf (Transaction.Sound.keysDistinct sound) found hfound'
  exact ⟨entity, hentity, hsame, hid, hdepicts⟩

/-- Every key that leads to a handle is the key of a tree. -/
theorem exists_keyOf {key : TypeKey} (found : arena.reserved? key = some id) :
    ∃ tree, arena.keyOf tree = some key ∧ arena.idOf tree = some id := by
  obtain ⟨entity, hentity⟩ := Option.isSome_iff_exists.mp (sound.isSome_entity? found)
  obtain ⟨-, rfl, tree, hdepicts⟩ := honest.depicted found hentity
  have hkey : arena.keyOf tree = some entity.key := entity.key_forget ▸ hdepicts.keyOf
  exact ⟨tree, hkey, idOf_eq_some_iff.mpr ⟨_, hkey, found⟩⟩

/-- A type is live exactly if it is the handle of a tree. -/
theorem mem_all_iff : id ∈ arena.all ↔ ∃ tree, arena.idOf tree = some id := by
  rw [sound.mem_all_iff]
  constructor
  · rintro ⟨key, hid⟩
    obtain ⟨tree, -, htree⟩ := honest.exists_keyOf sound hid
    exact ⟨tree, htree⟩
  · rintro ⟨tree, hid⟩
    obtain ⟨key, -, hkey⟩ := idOf_eq_some_iff.mp hid
    exact ⟨key, hkey⟩

/-- **A tree is read back from its handle.** -/
theorem tree_of_idOf (found : arena.idOf tree = some id) : arena.tree id = .ok tree := by
  induction tree using TypeTree.partsInduction generalizing id with
  | step tree ih =>
    obtain ⟨entity, hentity, -, -, hdepicts⟩ := honest.exists_of_idOf sound found
    rw [tree_of_get (get_eq_ok_iff.mpr hentity), ← TypeTree.ofShape_forget]
    refine hdepicts.ofShape (List.forall₂_iff_get.mpr ?_)
    have hparts := idsOf_eq_some_iff.mp hdepicts.idsOf_parts
    refine ⟨hparts.length_eq, fun position bound bound' => ?_⟩
    have hmem := List.get_mem entity.forget.shape.operands ⟨position, bound'⟩
    rw [if_pos (honest.older hentity (entity.operands_forget ▸ hmem))]
    exact ih _ (List.get_mem _ _) (hparts.get bound bound')

/-- **A tree is read back from a handle exactly if it is looked up there.** -/
theorem holds_iff : arena.Holds id tree ↔ arena.idOf tree = some id := by
  constructor
  · rintro ⟨hlive, htree⟩
    obtain ⟨tree', hid⟩ := (honest.mem_all_iff sound).mp hlive
    rw [honest.tree_of_idOf sound hid] at htree
    obtain rfl := Except.ok.inj htree
    exact hid
  · intro hid
    exact ⟨(honest.mem_all_iff sound).mpr ⟨tree, hid⟩, honest.tree_of_idOf sound hid⟩

end Honest

end Arena

end TypeGraph
