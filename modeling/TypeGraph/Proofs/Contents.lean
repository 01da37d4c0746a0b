import TypeGraph.Proofs.Forgetting
import TypeGraph.Proofs.Reachability

/-!
# What entities hold

An entity is written once, at a moment when other slots may still be empty, and read ever after.
This module says what it holds at any later time. The handle in it is that of its slot, its key is
the one that the slot was reserved for, and the rest is what the image says about a tree: the
contents of a definition row, or a placeholder or a composite over the handles that the arena has
for the parts.

Links at members are left out of this, since they may be made to remember a type later on. An entity
is compared with the image once its links are made to `forget`.

## Main definitions

* `Arena.Depicts` — an entity holds what the image says about a tree
* `Arena.Honest` — every entity that a key leads to depicts a tree, and operands are older

## Main results

* `Arena.Honest.steps`, `Arena.Honest.move` — requests preserve it
* `TypeModel.Reachable.honest` — the arena of every reachable model is honest
-/

namespace TypeGraph

namespace Arena

variable {store : Store} {limit : Nat} {arena before after : Arena} {waiting : Pending}
  {definition : Definition}

/-- The contents of a definition are read with links that remember nothing. -/
theorem Portrays.forget (h : arena.Portrays store limit waiting definition) :
    (waiting.entity definition).forget = waiting.entity definition := by
  have hdefinition : definition.forget = definition := by
    rw [Definition.forget, Definition.map, Store.forget_readFields h.fields,
      Store.forget_readMethods h.methods, Option.map_id]
    rfl
  rw [TypeEntity.forget]
  simp only [Pending.entity]
  rw [hdefinition]

/-! ### Answers about generic parameters -/

/-- What an arena answers about generic parameters, another one answers too. -/
def KeepsFlags (before after : Arena) : Prop :=
  ∀ ⦃id flag⦄, before.containsParameters id = .ok flag → after.containsParameters id = .ok flag

/-- The answer depends on the slot alone. -/
theorem KeepsFlags.of_slots (h : ∀ id, before.slot? id ≠ none → after.slot? id = before.slot? id) :
    KeepsFlags before after := by
  intro id flag found
  have hslot : before.slot? id ≠ none := by
    intro hnone
    rw [containsParameters, hnone] at found
    cases found
  rw [containsParameters, h id hslot, ← containsParameters, found]

theorem containsParameters_of_entity? {id : TypeId} {entity : TypeEntity}
    (found : arena.entity? id = some entity) :
    arena.containsParameters id = .ok entity.containsParameters := by
  rw [entity?] at found
  rw [containsParameters]
  cases hslot : arena.slot? id with
  | none => rw [hslot] at found; cases found
  | some slot =>
    obtain ⟨key, content⟩ := slot
    rw [hslot] at found
    obtain rfl : content = some entity := found
    rfl

/-- A definition answers while it is empty as it does once it is filled. -/
theorem KeepsFlags.of_fill {id : TypeId} {index : DefinitionIndex} {entity : TypeEntity}
    (fills : before.fill id entity = .ok after)
    (reserved : before.keyAt? id = some (.definition index))
    (plain : entity.containsParameters = false) : KeepsFlags before after := by
  intro id' flag found
  by_cases hid : id' = id
  · subst hid
    obtain ⟨key, hslot⟩ := slot?_of_fill fills
    obtain rfl : key = .definition index := by
      rw [keyAt?, hslot] at reserved
      exact Option.some.inj reserved
    rw [containsParameters, hslot] at found
    have hentity : after.entity? id' = some entity := by rw [entity?_fill fills, if_pos rfl]
    rw [containsParameters_of_entity? hentity, plain]
    exact found
  · rw [containsParameters, slot?_fill fills, if_neg hid, ← containsParameters, found]

/-! ### Entities and trees -/

/-- An entity holds what the image says about a tree: it has the contents of a definition row, or is
made from a usage that denotes the tree. -/
inductive Depicts (store : Store) (limit : Nat) (arena : Arena) : TypeTree → TypeEntity → Prop where
  | definition {waiting : Pending} {definition : Definition}
      (found : store.definition waiting.index = .ok waiting.row)
      (portrays : arena.Portrays store limit waiting definition) :
      Depicts store limit arena (.definition waiting.index) (waiting.entity definition)
  | usage {usage : TypeUsage} {tree : TypeTree} {attributes : TypeAttributes}
      {containsParameters : Bool} {shape : TypeShape} {id : TypeId}
      (denotes : Denotes store usage tree) (shallow : tree.depth ≤ limit)
      (makes : arena.Makes store tree attributes containsParameters shape) :
      Depicts store limit arena tree
        { id, origin := .usage usage, attributes, containsParameters, shape }

/-- What holds of the entities of an arena, at every moment. -/
structure Honest (store : Store) (limit : Nat) (arena : Arena) : Prop where
  /-- An entity that a key leads to knows its handle and its key, and depicts a tree. -/
  depicted {key : TypeKey} {id : TypeId} {entity : TypeEntity} :
    arena.reserved? key = some id → arena.entity? id = some entity →
      entity.id = id ∧ entity.key = key ∧ ∃ tree, arena.Depicts store limit tree entity.forget
  /-- Whatever an entity is built from was there before, also where nothing leads to it. -/
  older {id operand : TypeId} {entity : TypeEntity} :
    arena.entity? id = some entity → operand ∈ entity.shape.operands → operand.index < id.index

theorem Makes.mono {tree : TypeTree} {attributes : TypeAttributes} {flag : Bool} {shape : TypeShape}
    (remembers : before.Remembers after) (flags : before.KeepsFlags after)
    (h : before.Makes store tree attributes flag shape) :
    after.Makes store tree attributes flag shape := by
  cases h with
  | genericParameter found => exact .genericParameter found
  | genericInstance generic operands flagged =>
    have hoperands := Remembers.idsOf (fun _ _ _ => remembers.idOf) operands
    refine .genericInstance (remembers generic) hoperands ?_
    rw [mapM_eq_ok_iff] at flagged ⊢
    exact flagged.imp fun _ _ hflag => flags hflag
  | array operand flagged => exact .array (remembers.idOf operand) (flags flagged)
  | vector operand flagged => exact .vector (remembers.idOf operand) (flags flagged)
  | pointer operand flagged => exact .pointer (remembers.idOf operand) (flags flagged)

theorem Portrays.mono (remembers : before.Remembers after)
    (h : before.Portrays store limit waiting definition) :
    after.Portrays store limit waiting definition where
  index := h.index
  namespaceName := h.namespaceName
  name := h.name
  base := by
    obtain ⟨parent, hparent, hbase⟩ := h.base
    refine ⟨parent, hparent, ?_⟩
    cases parent with
    | none => exact hbase
    | some tree =>
      cases hid : definition.base with
      | none => rw [hid] at hbase; cases hbase
      | some id =>
        rw [hid] at hbase
        exact congrArg some (remembers.idOf (Option.some.inj hbase))
  fields := h.fields
  methods := h.methods

theorem Depicts.mono {tree : TypeTree} {entity : TypeEntity} (remembers : before.Remembers after)
    (flags : before.KeepsFlags after) (h : before.Depicts store limit tree entity) :
    after.Depicts store limit tree entity := by
  cases h with
  | definition found portrays => exact .definition found (portrays.mono remembers)
  | usage denotes shallow makes => exact .usage denotes shallow (makes.mono remembers flags)

/-- Whatever a placeholder or a composite is built from has a key that leads to it. -/
theorem Makes.exists_key {tree : TypeTree} {attributes : TypeAttributes} {flag : Bool}
    {shape : TypeShape} (h : arena.Makes store tree attributes flag shape) {operand : TypeId}
    (mem : operand ∈ shape.operands) : ∃ key, arena.reserved? key = some operand := by
  have hone {tree : TypeTree} {id : TypeId} (hid : arena.idOf tree = some id)
      (hmem : operand ∈ [id]) : ∃ key, arena.reserved? key = some operand := by
    obtain rfl := List.mem_singleton.mp hmem
    obtain ⟨key, -, hkey⟩ := idOf_eq_some_iff.mp hid
    exact ⟨key, hkey⟩
  cases h with
  | genericParameter found => cases mem
  | genericInstance generic operands flagged =>
    rcases List.mem_cons.mp mem with rfl | hmem
    · exact ⟨_, generic⟩
    · exact exists_key_of_idsOf operands hmem
  | array operand flagged => exact hone operand mem
  | vector operand flagged => exact hone operand mem
  | pointer operand flagged => exact hone operand mem

end Arena

/-! ### Steps preserve it -/

namespace Arena

variable {store : Store} {limit : Nat} {arena filled : Arena} {key : TypeKey} {id : TypeId}
  {entity : TypeEntity}

/-- Reserving a slot keeps all others. -/
theorem slot?_reserve_of_ne_none (h : arena.slot? id ≠ none) (key : TypeKey) :
    (arena.reserve key).2.slot? id = arena.slot? id := by
  rw [slot?_reserve, if_neg]
  rintro rfl
  exact h (slot?_reserve_fst arena key)

/-- Rolling back keeps what slots hold. -/
theorem entity?_rollback (transaction : Transaction) (id : TypeId) :
    transaction.rollback.entity? id = transaction.arena.entity? id := by
  have hslots : transaction.rollback.slots = transaction.arena.slots :=
    slots_withdrawAll transaction.arena transaction.journal
  rw [entity?, entity?, slot?, slot?, hslots]

/-- Making a type keeps the slots of all others. -/
theorem slot?_make_of_ne_none
    (fills : (arena.reserve key).2.fill (arena.reserve key).1 entity = .ok filled)
    (h : arena.slot? id ≠ none) : filled.slot? id = arena.slot? id := by
  rw [slot?_fill fills, if_neg, slot?_reserve_of_ne_none h]
  rintro rfl
  exact h (slot?_reserve_fst arena key)

end Arena

namespace Transaction

variable {store : Store} {limit : Nat} {before after : Transaction}

/-- An entity that was not there before has links that remember nothing. -/
theorem Step.entity?_cases (h : Step store limit before after) {id : TypeId} {entity : TypeEntity}
    (found : after.arena.entity? id = some entity) :
    before.arena.entity? id = some entity ∨ entity.forget = entity := by
  cases h with
  | @reserve index _ _ _ _ free row reserved queued =>
    obtain ⟨rfl, rfl⟩ := Prod.mk.inj reserved
    exact .inl ((Arena.entity?_reserve before.arena (.definition index) id).symm.trans found)
  | make denotes shallow makes free reserved fills =>
    obtain ⟨rfl, rfl⟩ := Prod.mk.inj reserved
    rw [Arena.entity?_make fills] at found
    split at found
    · obtain rfl := Option.some.inj found
      exact .inr (TypeEntity.forget_of_definition?_eq_none (makes.definition?_eq_none rfl))
    · exact .inl found
  | fill queued portrays fills =>
    rw [Arena.entity?_fill fills] at found
    split at found
    · obtain rfl := Option.some.inj found
      exact .inr portrays.forget
    · exact .inl found

theorem Steps.entity?_cases (h : Steps store limit before after) {id : TypeId}
    {entity : TypeEntity} (found : after.arena.entity? id = some entity) :
    before.arena.entity? id = some entity ∨ entity.forget = entity := by
  induction h with
  | refl => exact .inl found
  | tail _ step ih =>
    rcases step.entity?_cases found with hmiddle | hforget
    · exact ih hmiddle
    · exact .inr hforget

end Transaction

namespace Arena.Honest

open Transaction

variable {store : Store} {limit : Nat} {arena filled : Arena} {before after : Transaction}

theorem empty : Arena.Honest store limit .empty := by
  constructor <;> simp [Arena.empty, Arena.reserved?, Arena.entity?, Arena.slot?]

/-- What an entity depicts, it still depicts when handles and flags are kept. -/
theorem depicted_mono (honest : arena.Honest store limit) (remembers : arena.Remembers filled)
    (flags : arena.KeepsFlags filled) {key : TypeKey} {id : TypeId} {entity : TypeEntity}
    (hid : arena.reserved? key = some id) (hentity : arena.entity? id = some entity) :
    entity.id = id ∧ entity.key = key ∧
      ∃ tree, filled.Depicts store limit tree entity.forget := by
  obtain ⟨hsame, hkey, tree, hdepicts⟩ := honest.depicted hid hentity
  exact ⟨hsame, hkey, tree, hdepicts.mono remembers flags⟩

theorem reserve (honest : arena.Honest store limit) {key : TypeKey}
    (free : arena.reserved? key = none) : (arena.reserve key).2.Honest store limit := by
  constructor
  case depicted =>
    intro key' id entity hid hentity
    rw [entity?_reserve] at hentity
    rcases reserved?_reserve_cases hid with ⟨-, rfl⟩ | hid
    · rw [entity?_reserve_fst] at hentity
      cases hentity
    · refine honest.depicted_mono (remembers_reserve free) ?_ hid hentity
      exact .of_slots fun _ hslot => slot?_reserve_of_ne_none hslot key
  case older =>
    intro id operand entity hentity hmem
    rw [entity?_reserve] at hentity
    exact honest.older hentity hmem

theorem make (honest : before.arena.Honest store limit) (sound : before.Sound store limit)
    {usage : TypeUsage} {tree : TypeTree} {attributes : TypeAttributes} {flag : Bool}
    {shape : TypeShape} (denotes : Denotes store usage tree) (shallow : tree.depth ≤ limit)
    (makes : before.arena.Makes store tree attributes flag shape)
    (free : before.arena.reserved? shape.key = none)
    (fills : (before.arena.reserve shape.key).2.fill (before.arena.reserve shape.key).1
      ⟨(before.arena.reserve shape.key).1, .usage usage, attributes, flag, shape⟩ = .ok filled) :
    filled.Honest store limit := by
  have hremembers := (remembers_reserve free).trans (remembers_fill fills)
  have hflags : before.arena.KeepsFlags filled :=
    .of_slots fun _ hslot => slot?_make_of_ne_none fills hslot
  constructor
  case depicted =>
    intro key id entity hid hentity
    rw [reserved?_fill fills] at hid
    rw [entity?_make fills] at hentity
    rcases reserved?_reserve_cases hid with ⟨rfl, rfl⟩ | hid
    · rw [if_pos rfl] at hentity
      obtain rfl := Option.some.inj hentity
      rw [TypeEntity.forget_of_definition?_eq_none (makes.definition?_eq_none rfl)]
      exact ⟨rfl, rfl, tree, .usage denotes shallow (makes.mono hremembers hflags)⟩
    · rw [if_neg (ne_reserve_fst (sound.keyed hid) _)] at hentity
      exact honest.depicted_mono hremembers hflags hid hentity
  case older =>
    intro id operand entity hentity hmem
    rw [entity?_make fills] at hentity
    split at hentity
    · next hid =>
      -- the operands had handles before the new one was issued
      obtain rfl := Option.some.inj hentity
      obtain ⟨key, hkey⟩ := makes.exists_key hmem
      exact hid ▸ index_lt_of_keyAt? (sound.keyed hkey)
    · exact honest.older hentity hmem

theorem fill (honest : before.arena.Honest store limit) (sound : before.Sound store limit)
    {waiting : Pending} {definition : Definition} (mem : waiting ∈ before.pending)
    (portrays : before.arena.Portrays store limit waiting definition)
    (fills : before.arena.fill waiting.id (waiting.entity definition) = .ok filled) :
    filled.Honest store limit := by
  obtain ⟨hwaits, -, hrow⟩ := sound.waits mem
  have hremembers := remembers_fill fills
  constructor
  case depicted =>
    intro key id entity hid hentity
    rw [reserved?_fill fills] at hid
    rw [entity?_fill fills] at hentity
    split at hentity
    · next hsame =>
      obtain rfl := Option.some.inj hentity
      obtain rfl : key = .definition waiting.index :=
        Option.some.inj ((sound.keyed hid).symm.trans (hsame ▸ sound.keyed hwaits))
      rw [portrays.forget]
      refine ⟨hsame.symm, ?_, _, .definition hrow (portrays.mono hremembers)⟩
      exact congrArg TypeKey.definition portrays.index
    · exact honest.depicted_mono hremembers (.of_fill fills (sound.keyed hwaits) rfl) hid hentity
  case older =>
    intro id operand entity hentity hmem
    rw [entity?_fill fills] at hentity
    split at hentity
    · obtain rfl := Option.some.inj hentity
      cases hmem
    · exact honest.older hentity hmem

/-- **Every step of a request preserves honesty.** -/
theorem step (honest : before.arena.Honest store limit) (sound : before.Sound store limit)
    (h : Step store limit before after) : after.arena.Honest store limit := by
  cases h with
  | reserve free found reserved queued =>
    obtain ⟨rfl, rfl⟩ := Prod.mk.inj reserved
    exact honest.reserve free
  | make denotes shallow makes free reserved fills =>
    obtain ⟨rfl, rfl⟩ := Prod.mk.inj reserved
    exact honest.make sound denotes shallow makes free fills
  | fill queued portrays fills =>
    exact honest.fill sound (queued.mem_iff.mpr List.mem_cons_self) portrays fills

theorem steps (honest : before.arena.Honest store limit) (sound : before.Sound store limit)
    (h : Steps store limit before after) : after.arena.Honest store limit := by
  induction h with
  | refl => exact honest
  | tail steps step ih => exact ih.step (sound.steps steps) step

end Arena.Honest

/-! ### Moves preserve it -/

namespace Arena

variable {store : Store} {limit : Nat} {arena arena' before after : Arena}

theorem index_lt_of_slot? {id : TypeId} (h : arena.slot? id ≠ none) :
    id.index < arena.slots.size :=
  Nat.lt_of_not_le fun hle => h (slot?_eq_none_of_le hle)

/-- Honesty only depends on keys, on flags, and on what the slots hold that keys lead to. -/
theorem Honest.of_similar (honest : arena.Honest store limit)
    (keys : ∀ key, arena'.reserved? key = arena.reserved? key) (flags : arena.KeepsFlags arena')
    (entities : ∀ key id, arena.reserved? key = some id →
      (arena'.entity? id).map TypeEntity.forget = (arena.entity? id).map TypeEntity.forget)
    (older : ∀ id operand entity, arena'.entity? id = some entity →
      operand ∈ entity.shape.operands → operand.index < id.index) :
    arena'.Honest store limit where
  depicted {key id entity} hid hentity := by
    rw [keys] at hid
    have hsame := entities key id hid
    rw [hentity, Option.map_some] at hsame
    obtain ⟨entity', hentity', hforget⟩ := Option.map_eq_some_iff.mp hsame.symm
    rw [← entity.id_forget, ← entity.key_forget, ← hforget, entity'.id_forget, entity'.key_forget]
    exact honest.depicted_mono (.of_eq keys) flags hid hentity'
  older {id operand entity} := older id operand entity

/-- Remembering the type behind a link shows nowhere but in the link. -/
theorem exists_of_entity?_memoize {id target : TypeId} {site : MemberSite} {id' : TypeId}
    {entity : TypeEntity}
    (h : (arena.modify (TypeEntity.memoize site target) id).entity? id' = some entity) :
    ∃ entity', arena.entity? id' = some entity' ∧ entity.forget = entity'.forget := by
  rw [entity?_modify] at h
  split at h
  · next hid =>
    obtain ⟨entity', hentity', rfl⟩ := Option.map_eq_some_iff.mp h
    exact ⟨entity', hid ▸ hentity', TypeEntity.forget_memoize ..⟩
  · exact ⟨entity, h, rfl⟩

theorem keepsFlags_memoize (id target : TypeId) (site : MemberSite) :
    arena.KeepsFlags (arena.modify (TypeEntity.memoize site target) id) := by
  intro id' flag found
  cases hentity : arena.entity? id' with
  | some entity =>
    rw [containsParameters_of_entity? hentity] at found
    by_cases hid : id' = id
    · subst hid
      have hafter := entity?_modify arena (TypeEntity.memoize site target) id' id'
      rw [if_pos rfl, hentity, Option.map_some] at hafter
      rw [containsParameters_of_entity? hafter, TypeEntity.containsParameters_memoize, found]
    · have hafter := entity?_modify arena (TypeEntity.memoize site target) id id'
      rw [if_neg hid, hentity] at hafter
      rw [containsParameters_of_entity? hafter, found]
  | none =>
    -- a slot without entity is left as it is
    have hslot :
        (arena.modify (TypeEntity.memoize site target) id).slot? id' = arena.slot? id' := by
      rw [slot?_modify]
      split
      · next hid =>
        subst hid
        rw [entity?] at hentity
        cases hslot : arena.slot? id' with
        | none => rfl
        | some slot =>
          rw [hslot] at hentity
          obtain ⟨key, content⟩ := slot
          obtain rfl : content = none := hentity
          rfl
      · rfl
    rw [containsParameters, hslot, ← containsParameters, found]

theorem Honest.memoize (honest : arena.Honest store limit) (id target : TypeId)
    (site : MemberSite) :
    (arena.modify (TypeEntity.memoize site target) id).Honest store limit := by
  refine honest.of_similar (fun _ => rfl) (keepsFlags_memoize id target site) ?_ ?_
  · intro key id' hid
    rw [entity?_modify]
    split
    · next hsame =>
      rw [hsame, Option.map_map]
      refine congrArg (Option.map · _) (funext fun entity => ?_)
      exact TypeEntity.forget_memoize entity site target
    · rfl
  · intro id' operand entity hentity hmem
    obtain ⟨entity', hentity', hforget⟩ := exists_of_entity?_memoize hentity
    rw [← entity.operands_forget, hforget, entity'.operands_forget] at hmem
    exact honest.older hentity' hmem

theorem Honest.rollback {transaction : Transaction} (honest : arena.Honest store limit)
    (sound : arena.Sound store limit)
    (steps : Transaction.Steps store limit { arena } transaction) :
    transaction.rollback.Honest store limit := by
  have hrestored := sound.restored steps
  refine honest.of_similar hrestored.keys ?_ ?_ ?_
  · exact .of_slots fun id hslot => hrestored.slots (index_lt_of_slot? hslot)
  · intro key id hid
    rw [hrestored.entity?_eq (index_lt_of_keyAt? (Transaction.Sound.keyed sound hid))]
  · -- what is withdrawn keeps its slot, and was made by steps
    intro id operand entity hentity hmem
    have hafter : transaction.arena.Honest store limit := Honest.steps honest sound steps
    have hslot : transaction.rollback.entity? id = transaction.arena.entity? id :=
      entity?_rollback transaction id
    exact hafter.older (hslot ▸ hentity) hmem

/-- **Every move preserves honesty.** -/
theorem Honest.move (honest : before.Honest store limit) (sound : before.Sound store limit)
    (h : Move store limit before after) : after.Honest store limit := by
  cases h with
  | commit steps idle => exact Honest.steps honest sound steps
  | rollback steps => exact honest.rollback sound steps
  | memoize found linked leads => exact honest.memoize _ _ _

/-- What holds of a sound arena and is preserved by moves still holds after any number of them. -/
theorem Moves.preserves {holds : Arena → Prop} (h : Moves store limit before after)
    (sound : before.Sound store limit) (start : holds before)
    (each : ∀ before after, before.Sound store limit → holds before →
      Move store limit before after → holds after) : holds after := by
  induction h with
  | refl => exact start
  | tail moves move ih => exact each _ _ (Moves.sound moves sound) ih move

end Arena

namespace TypeModel

variable {model : TypeModel} {store : Store} {config : Config}

theorem Reachable.arenaSound (h : Reachable store config model) :
    model.arena.Sound store config.maxDepth := by
  have hsound := h.sound
  rwa [Sound, h.sameImage.1, h.sameImage.2] at hsound

/-- What holds of the empty arena and is preserved by moves holds of every reachable model. -/
theorem Reachable.of_moves {holds : Arena → Prop} (h : Reachable store config model)
    (start : holds .empty)
    (each : ∀ before after, before.Sound store config.maxDepth → holds before →
      Arena.Move store config.maxDepth before after → holds after) : holds model.arena := by
  induction h with
  | new => exact start
  | @ask model before request ih =>
    have hmoves := moves_ask before.sound request
    rw [before.sameImage.1, before.sameImage.2] at hmoves
    exact hmoves.preserves before.arenaSound ih each

/-- **The arena of every reachable model is honest.** -/
theorem Reachable.honest (h : Reachable store config model) :
    model.arena.Honest store config.maxDepth :=
  h.of_moves .empty fun _ _ sound honest move => honest.move sound move

end TypeModel

end TypeGraph
