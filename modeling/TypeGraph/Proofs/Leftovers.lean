import Mathlib
import TypeGraph.Proofs.Dangling
import TypeGraph.Proofs.Operands

/-!
# What failed requests leave behind

A request that fails withdraws the keys that it entered, but its slots stay, and so does what it put
into them. Whoever kept a handle to such a slot can still ask for the name of what is there. The
answer may depend on slots that the request reserved and never came to fill, so it need not exist.

It fails in one way only, however. Operands are issued before what is built from them and bases
before what derives from them, so nobody is led to a handle that was never issued; and of all slots
only those of definitions are ever left empty, since a placeholder or a composite is made in one go.
So where an answer fails for a handle that was issued, it is because the definition behind some slot
was withdrawn before it was filled.

## Main definitions

* `Arena.Anchors` — whatever an entity leads to was issued
* `Arena.Orderly` — what holds of every slot that was ever issued
* `Arena.Abandoned` — a definition was withdrawn before it was filled
* `TypeModel.EveryAnswer` — something holds of whatever can be asked about a handle
* `TypeModel.Predictable` — which answers exist, and why others fail

## Main results

* `Arena.Orderly.step`, `Arena.Orderly.move` — requests preserve it
* `TypeModel.everyAnswer_of_confined` — an answer fails as reading the handles does that it leads to
* `TypeModel.Reachable.predictable` — every reachable model is predictable
-/

namespace TypeGraph

/-! ### Slots that were ever issued -/

namespace Arena

variable {store : Store} {limit : Nat} {arena arena' filled : Arena} {key : TypeKey} {id : TypeId}
  {entity : TypeEntity}

/-- Whatever an entity leads to was issued, and the head of an instantiation was issued for the
definition that the instantiation names. -/
structure Anchors (arena : Arena) (entity : TypeEntity) : Prop where
  headed {head : TypeId} {index : DefinitionIndex} {arguments : List TypeId} :
    entity.shape = .genericInstance head index arguments →
      arena.keyAt? head = some (.definition index)
  derived {definition : Definition} {base : TypeId} : entity.definition? = some definition →
    definition.base = some base → ∃ key, arena.keyAt? base = some key

theorem Anchors.mono (h : arena.Anchors entity)
    (keys : ∀ id key, arena.keyAt? id = some key → arena'.keyAt? id = some key) :
    arena'.Anchors entity where
  headed shaped := keys _ _ (h.headed shaped)
  derived declares derives := (h.derived declares derives).imp (keys _)

/-- What links remember has no part in this. -/
theorem Anchors.of_forget_eq {entity' : TypeEntity} (h : arena.Anchors entity)
    (same : entity'.forget = entity.forget) : arena.Anchors entity' where
  headed {head index arguments} shaped := by
    have hplain : entity'.definition? = none := by rw [TypeEntity.definition?, shaped]
    have hplain' : entity.definition? = none := by
      rw [← Option.map_eq_none_iff, ← TypeEntity.definition?_forget, ← same,
        TypeEntity.definition?_forget, hplain, Option.map_none]
    rw [TypeEntity.forget_of_definition?_eq_none hplain,
      TypeEntity.forget_of_definition?_eq_none hplain'] at same
    exact h.headed (same ▸ shaped)
  derived {definition base} declares derives := by
    have hforget : entity.definition?.map Definition.forget = some definition.forget := by
      rw [← TypeEntity.definition?_forget, ← same, TypeEntity.definition?_forget, declares,
        Option.map_some]
    obtain ⟨definition', hdeclares', hsame⟩ := Option.map_eq_some_iff.mp hforget
    refine h.derived hdeclares' ?_
    rw [← definition'.base_forget, hsame, definition.base_forget, derives]

/-- What holds of every slot that was ever issued, also if nothing leads to it any more. -/
structure Orderly (arena : Arena) : Prop where
  /-- An empty slot was reserved for a definition. -/
  vacant {key : TypeKey} {id : TypeId} : arena.keyAt? id = some key → arena.entity? id = none →
    ∃ index, key = .definition index
  /-- Whatever an entity leads to was issued. -/
  anchored {id : TypeId} {entity : TypeEntity} : arena.entity? id = some entity →
    arena.Anchors entity

namespace Orderly

theorem empty : Orderly .empty := by
  constructor <;> simp [Arena.empty, keyAt?, entity?, slot?]

/-! ### Requests preserve it -/

/-- A slot that is opened for a definition may stay empty. -/
theorem reserve (orderly : arena.Orderly) (index : DefinitionIndex) :
    (arena.reserve (.definition index)).2.Orderly where
  vacant {key id} hkey hempty := by
    rw [entity?_reserve] at hempty
    rw [keyAt?_reserve] at hkey
    split at hkey
    · exact ⟨index, (Option.some.inj hkey).symm⟩
    · exact orderly.vacant hkey hempty
  anchored {id entity} hentity := by
    rw [entity?_reserve] at hentity
    exact (orderly.anchored hentity).mono fun _ _ hkey => keyAt?_reserve_of_some hkey _

theorem fill (orderly : arena.Orderly) (anchors : arena.Anchors entity)
    (fills : arena.fill id entity = .ok filled) : filled.Orderly where
  vacant {key id'} hkey hempty := by
    rw [keyAt?_fill fills] at hkey
    rw [entity?_fill fills] at hempty
    split at hempty
    · cases hempty
    · exact orderly.vacant hkey hempty
  anchored {id' entity'} hentity := by
    have hkeys : ∀ id key, arena.keyAt? id = some key → filled.keyAt? id = some key :=
      fun id _ hkey => (keyAt?_fill fills id).trans hkey
    rw [entity?_fill fills] at hentity
    split at hentity
    · exact Option.some.inj hentity ▸ anchors.mono hkeys
    · exact (orderly.anchored hentity).mono hkeys

/-- A slot that is opened for anything is in order once it is filled. -/
theorem make (orderly : arena.Orderly) (anchors : arena.Anchors entity)
    (fills : (arena.reserve key).2.fill (arena.reserve key).1 entity = .ok filled) :
    filled.Orderly where
  vacant {key' id} hkey hempty := by
    rw [keyAt?_fill fills, keyAt?_reserve] at hkey
    rw [entity?_make fills] at hempty
    split at hempty
    · cases hempty
    · next hid =>
      rw [if_neg hid] at hkey
      exact orderly.vacant hkey hempty
  anchored {id entity'} hentity := by
    have hkeys : ∀ id key, arena.keyAt? id = some key → filled.keyAt? id = some key :=
      fun id _ hkey => (keyAt?_fill fills id).trans (keyAt?_reserve_of_some hkey _)
    rw [entity?_make fills] at hentity
    split at hentity
    · exact Option.some.inj hentity ▸ anchors.mono hkeys
    · exact (orderly.anchored hentity).mono hkeys

end Orderly

/-- What is made for a tree is an instantiation of what its head was reserved for. -/
theorem Makes.anchors {tree : TypeTree} {attributes : TypeAttributes} {flag : Bool}
    {shape : TypeShape} (h : arena.Makes store tree attributes flag shape)
    (keyed : ∀ ⦃key id⦄, arena.reserved? key = some id → arena.keyAt? id = some key)
    (shaped : entity.shape = shape) : arena.Anchors entity where
  headed {head index arguments} hhead := by
    rw [shaped] at hhead
    subst hhead
    cases h with
    | genericInstance generic operands flagged => exact keyed generic
  derived declares := by
    rw [h.definition?_eq_none shaped] at declares
    cases declares

/-- The base of a definition is what the arena has for the tree of the parent. -/
theorem Portrays.anchors {waiting : Pending} {definition : Definition}
    (h : arena.Portrays store limit waiting definition)
    (keyed : ∀ ⦃key id⦄, arena.reserved? key = some id → arena.keyAt? id = some key) :
    arena.Anchors (waiting.entity definition) where
  headed shaped := by cases shaped
  derived {definition' base} declares derives := by
    -- at the moment of filling, the base has a handle already
    obtain rfl := Option.some.inj declares
    obtain ⟨parent, -, hbase⟩ := h.base
    rw [derives, Option.map_some] at hbase
    obtain ⟨tree, -, hid⟩ := Option.map_eq_some_iff.mp hbase
    obtain ⟨key, -, hkey⟩ := idOf_eq_some_iff.mp hid
    exact ⟨key, keyed hkey⟩

namespace Orderly

/-- **Every step of a request keeps the slots in order.** -/
theorem step {before after : Transaction} (orderly : before.arena.Orderly)
    (sound : before.Sound store limit) (h : Transaction.Step store limit before after) :
    after.arena.Orderly := by
  cases h with
  | reserve free found reserved queued =>
    obtain ⟨rfl, rfl⟩ := Prod.mk.inj reserved
    exact orderly.reserve _
  | make denotes shallow makes free reserved fills =>
    obtain ⟨rfl, rfl⟩ := Prod.mk.inj reserved
    exact orderly.make (makes.anchors (fun _ _ => sound.keyed) rfl) fills
  | fill queued portrays fills =>
    exact orderly.fill (portrays.anchors fun _ _ => sound.keyed) fills

theorem steps {before after : Transaction} (orderly : before.arena.Orderly)
    (sound : before.Sound store limit) (h : Transaction.Steps store limit before after) :
    after.arena.Orderly := by
  induction h with
  | refl => exact orderly
  | tail steps step ih => exact ih.step (sound.steps steps) step

/-- What is withdrawn stays where it is. -/
theorem rollback {transaction : Transaction} (orderly : transaction.arena.Orderly) :
    transaction.rollback.Orderly := by
  have hslots : transaction.rollback.slots = transaction.arena.slots :=
    slots_withdrawAll transaction.arena transaction.journal
  have hslot (id : TypeId) : transaction.rollback.slot? id = transaction.arena.slot? id := by
    rw [slot?, slot?, hslots]
  have hkey (id : TypeId) : transaction.rollback.keyAt? id = transaction.arena.keyAt? id := by
    rw [keyAt?, keyAt?, hslot]
  constructor
  case vacant =>
    intro key id hid hempty
    exact orderly.vacant ((hkey id).symm.trans hid) ((entity?_rollback _ id).symm.trans hempty)
  case anchored =>
    intro id entity hentity
    have hanchors := orderly.anchored ((entity?_rollback _ id).symm.trans hentity)
    exact hanchors.mono fun id _ hid => (hkey id).trans hid

theorem memoize (orderly : arena.Orderly) (id target : TypeId) (site : MemberSite) :
    (arena.modify (TypeEntity.memoize site target) id).Orderly where
  vacant {key id'} hkey hempty := by
    rw [keyAt?_modify] at hkey
    refine orderly.vacant hkey ?_
    rw [entity?_modify] at hempty
    split at hempty
    · next hid => exact hid ▸ Option.map_eq_none_iff.mp hempty
    · exact hempty
  anchored {id' entity} hentity := by
    obtain ⟨entity', hentity', hforget⟩ := exists_of_entity?_memoize hentity
    have hanchors := (orderly.anchored hentity').of_forget_eq hforget
    exact hanchors.mono fun _ _ hkey => (keyAt?_modify ..).trans hkey

/-- **Every move keeps the slots in order.** -/
theorem move {before after : Arena} (orderly : before.Orderly) (sound : before.Sound store limit)
    (h : Move store limit before after) : after.Orderly := by
  cases h with
  | commit steps idle => exact Orderly.steps orderly sound steps
  | rollback steps => exact (Orderly.steps orderly sound steps).rollback
  | memoize found linked leads => exact orderly.memoize _ _ _

end Orderly

end Arena

namespace TypeModel

variable {store : Store} {config : Config} {model : TypeModel} {id : TypeId}

/-- **The slots of every reachable model are in order.** -/
theorem Reachable.orderly (h : Reachable store config model) : model.arena.Orderly :=
  h.of_moves .empty fun _ _ sound orderly move => orderly.move sound move

/-! ### Answers -/

/-- Something holds of whatever can be asked about a handle. -/
structure EveryAnswer (model : TypeModel) (id : TypeId)
    (holds : ∀ α : Type, Except Fault α → Prop) : Prop where
  namespaceName : holds String (model.namespaceName id)
  name : holds String (model.name id)
  fullName : holds String (model.fullName id)
  displayName : holds String (model.displayName id)
  baseType : holds (Option TypeId) (model.baseType id)
  isValueType : holds Bool (model.isValueType id)
  elementType : holds (Option TypeId) (model.arena.elementType id)
  arrayRank : holds UInt32 (model.arena.arrayRank id)
  genericDefinition : holds (Option TypeId) (model.arena.genericDefinition id)

theorem EveryAnswer.imp {holds holds' : ∀ α : Type, Except Fault α → Prop}
    (h : model.EveryAnswer id holds) (imp : ∀ α answer, holds α answer → holds' α answer) :
    model.EveryAnswer id holds' where
  namespaceName := imp _ _ h.namespaceName
  name := imp _ _ h.name
  fullName := imp _ _ h.fullName
  displayName := imp _ _ h.displayName
  baseType := imp _ _ h.baseType
  isValueType := imp _ _ h.isValueType
  elementType := imp _ _ h.elementType
  arrayRank := imp _ _ h.arrayRank
  genericDefinition := imp _ _ h.genericDefinition

/-- Where nothing can be read, whatever is asked fails with the same fault. -/
theorem everyAnswer_of_get_error {fault : Fault} (h : model.get id = .error fault) :
    model.EveryAnswer id fun _ answer => answer = .error fault := by
  have hread {α : Type} (next : TypeEntity → Except Fault α) :
      (model.arena.get id >>= next) = .error fault := by
    rw [show model.arena.get id = .error fault from h]
    rfl
  have hbase : model.arena.baseType id = .error fault := Arena.visit_of_get_error h _
  constructor
  case isValueType =>
    rw [isValueType, Arena.isValueType, hbase]
    rfl
  case elementType | arrayRank | genericDefinition => exact hread _
  all_goals exact Arena.visit_of_get_error h _

/-- **An answer fails as reading the handles does that it leads to.** -/
theorem everyAnswer_of_confined {store : Store} {limit : Nat} {within : TypeId → Prop}
    {allowed : Fault → Prop} (confined : model.arena.Confined within allowed)
    (honest : model.arena.Honest store limit) (h : within id) :
    model.EveryAnswer id fun _ => FailsWith allowed where
  namespaceName := confined.namespaceName honest h
  name := confined.render honest h
  fullName := confined.fullName honest h
  displayName := confined.render honest h
  baseType := confined.baseType honest h
  isValueType := confined.isValueType honest h
  elementType := (confined.reads h).bind fun _ _ => .ok _
  arrayRank := (confined.reads h).bind fun _ _ => .ok _
  genericDefinition := (confined.reads h).bind fun _ _ => .ok _

end TypeModel

/-! ### Withdrawn before they were filled -/

namespace Arena

variable {store : Store} {limit : Nat} {arena : Arena} {id : TypeId}

/-- A definition was withdrawn before it was filled. -/
structure Abandoned (arena : Arena) (id : TypeId) : Prop where
  spent : arena.Spent id
  definition : ∃ index, arena.keyAt? id = some (.definition index)
  unfilled : arena.entity? id = none

/-- A handle is live, or it was issued and is spent, or it was never issued. -/
theorem Sound.mem_all_or_spent (sound : arena.Sound store limit) (id : TypeId) :
    id ∈ arena.all ∨ arena.Spent id ∨ arena.slots.size ≤ id.index := by
  rcases Nat.lt_or_ge id.index arena.slots.size with hlt | hle
  · by_cases hkeyed : ∃ key, arena.reserved? key = some id
    · exact .inl (sound.mem_all_iff.mpr hkeyed)
    · exact .inr (.inl ⟨hlt, not_exists.mp hkeyed⟩)
  · exact .inr (.inr hle)

/-- Recursion from handles that were issued leads to such handles, and where one of them cannot be
read, a definition was withdrawn before it was filled. -/
theorem Honest.confined_issued (honest : arena.Honest store limit)
    (sound : arena.Sound store limit) (orderly : arena.Orderly) :
    arena.Confined (·.index < arena.slots.size)
      fun fault => ∃ abandoned, fault = .unfilled abandoned ∧ arena.Abandoned abandoned where
  reads {id} hid fault failed := by
    obtain ⟨key, hkey⟩ := exists_keyAt? hid
    obtain ⟨⟨_, entity⟩, hslot, -⟩ := Option.map_eq_some_iff.mp hkey
    rw [get, hslot] at failed
    cases entity with
    | some entity => cases failed
    | none =>
      have hempty : arena.entity? id = none := by
        rw [entity?, hslot]
        rfl
      obtain ⟨index, rfl⟩ := orderly.vacant hkey hempty
      refine ⟨id, (Except.error.inj failed).symm, ⟨hid, fun key hid => ?_⟩, ⟨index, hkey⟩, hempty⟩
      -- whatever a key leads to can be read
      have hsome := sound.isSome_entity? hid
      rw [hempty] at hsome
      cases hsome
  operand {id operand entity} hid found mem :=
    Nat.lt_trans (honest.older (get_eq_ok_iff.mp found) mem) hid
  base _ found declares derives := by
    obtain ⟨key, hkey⟩ := (orderly.anchored (get_eq_ok_iff.mp found)).derived declares derives
    exact index_lt_of_keyAt? hkey

end Arena

namespace TypeModel

variable {store : Store} {config : Config} {model : TypeModel}

/-- What can be asked about a handle is answered if the handle is live. For all others it can be
said why there is no answer. -/
structure Predictable (model : TypeModel) : Prop where
  /-- Whatever a type is built from is older, also where nothing leads to the type any more. -/
  older {id operand : TypeId} {entity : TypeEntity} : model.get id = .ok entity →
    operand ∈ entity.shape.operands → operand.index < id.index
  /-- The head of an instantiation has the key of the definition that the instantiation names. -/
  headed {id head : TypeId} {index : DefinitionIndex} {arguments : List TypeId}
    {entity : TypeEntity} : model.get id = .ok entity →
      entity.shape = .genericInstance head index arguments →
        model.arena.keyAt? head = some (.definition index)
  /-- So every recursion through operands ends. -/
  ends : WellFounded model.arena.BuiltFrom
  /-- And it is never refused an operand. -/
  visits {α : Type} {step : TypeShape → (TypeId → Except Fault α) → Except Fault α} {id : TypeId}
    {entity : TypeEntity} : AsksOperands step → model.get id = .ok entity →
      model.arena.visit step id = step entity.shape (model.arena.visit step)
  /-- A handle is live, or it was issued and is spent, or it was never issued. -/
  cases (id : TypeId) :
    id ∈ model.all ∨ model.arena.Spent id ∨ model.arena.slots.size ≤ id.index
  /-- Everything that is asked about a live type is answered. -/
  live {id : TypeId} : id ∈ model.all →
    model.EveryAnswer id fun _ answer => ∃ value, answer = .ok value
  /-- Nothing that is asked about a handle that was never issued is. -/
  unknown {id : TypeId} : model.arena.slots.size ≤ id.index →
    model.EveryAnswer id fun _ answer => answer = .error (.unknownType id)
  /-- What is asked about a spent handle is answered, or fails because of a definition that was
  withdrawn before it was filled. -/
  spent {id : TypeId} : model.arena.Spent id → model.EveryAnswer id fun _ answer =>
    ∀ fault, answer = .error fault →
      ∃ abandoned, fault = .unfilled abandoned ∧ model.arena.Abandoned abandoned

/-- **Every reachable model is predictable**, whatever failed requests have left behind. -/
theorem Reachable.predictable (h : Reachable store config model) : model.Predictable := by
  have hsound := h.arenaSound
  have hhonest := h.honest
  have horderly := h.orderly
  constructor
  case older => exact fun found mem => hhonest.older (Arena.get_eq_ok_iff.mp found) mem
  case headed =>
    exact fun found shaped => (horderly.anchored (Arena.get_eq_ok_iff.mp found)).headed shaped
  case ends => exact hhonest.wellFounded_builtFrom
  case visits => exact fun asks found => hhonest.visit_eq asks found
  case cases => exact hsound.mem_all_or_spent
  case live =>
    intro id hlive
    refine (everyAnswer_of_confined (hhonest.confined_all hsound) hhonest hlive).imp ?_
    exact fun _ _ fails => fails.exists_ok
  case unknown =>
    intro id hunknown
    refine everyAnswer_of_get_error ?_
    rw [get, Arena.get, Arena.slot?_eq_none_of_le hunknown]
  case spent =>
    intro id hspent
    refine (everyAnswer_of_confined (hhonest.confined_issued hsound horderly) hhonest
      hspent.1).imp ?_
    exact fun _ _ fails fault failed => fails failed

/-- A request that fails leaves a definition, what it derives from, and three definitions that were
never filled. The base is an instantiation of one of them over a vector of another: its simple name
comes to the argument first, its full name to the head. -/
theorem predictable_tangle :
    ((TypeModel.new .tangle .standard).askEach [.definition ⟨2⟩]).2.baseType ⟨0⟩ =
        .ok (some ⟨5⟩) ∧
      ((TypeModel.new .tangle .standard).askEach [.definition ⟨2⟩]).2.name ⟨5⟩ =
        .error (.unfilled ⟨2⟩) ∧
      ((TypeModel.new .tangle .standard).askEach [.definition ⟨2⟩]).2.fullName ⟨5⟩ =
        .error (.unfilled ⟨1⟩) ∧
      ((TypeModel.new .tangle .standard).askEach [.definition ⟨2⟩]).2.Predictable :=
  ⟨by cbv, by cbv, by cbv, Reachable.predictable (reachable_askEach .new [.definition ⟨2⟩])⟩

end TypeModel

end TypeGraph
