import Mathlib.Logic.Relation
import TypeGraph.Proofs.Parts
import TypeGraph.Proofs.Queries

/-!
# Nothing is made in vain

A type leads to the types that it is built from, and a definition to its base. Whatever a request
makes on the way to its answer is something that the answer leads to: an operand is made for the
composite that is built from it, and the base of a definition for the definition.

A step of a request therefore grows a transaction only by what its results lead to. The leads are
read off the key index and off the entities of definitions, both of which a request only adds to, so
what is reached at one moment is reached ever after.

## Main definitions

* `Arena.Leads`, `Arena.Reaches` — one type is directly needed by another, or indirectly
* `Transaction.Grows` — all that is new is reached from given types

## Main results

* `Resolving.grows_usage`, `Resolving.grows_fillDefinition`, `Resolving.grows_complete` — each step
  only adds what its result leads to
* `TypeModel.reaches_of_resolve` — so does every question that is answered
-/

namespace TypeGraph

/-! ### Leads -/

namespace Arena

/-- A type leads to the types that it is built from, and a definition to its base. -/
inductive Leads (arena : Arena) : TypeId → TypeId → Prop where
  | operand {key : TypeKey} {id operand : TypeId} (keyed : arena.reserved? key = some id)
      (mem : operand ∈ key.operands) : Leads arena id operand
  | base {id base : TypeId} {entity : TypeEntity} {definition : Definition}
      (found : arena.entity? id = some entity) (declares : entity.definition? = some definition)
      (derives : definition.base = some base) : Leads arena id base

/-- A type reaches those that it leads to, and those that they reach. -/
abbrev Reaches (arena : Arena) : TypeId → TypeId → Prop := Relation.ReflTransGen arena.Leads

end Arena

/-! ### Growth -/

namespace Transaction

/-- A transaction grows from some types if it forgets nothing, and everything new in it, be it
reserved or waiting, is reached from one of them. -/
structure Grows (roots : List TypeId) (before after : Transaction) : Prop where
  remembers : before.arena.Remembers after.arena
  keeps {id : TypeId} {entity : TypeEntity} :
    before.arena.entity? id = some entity → after.arena.entity? id = some entity
  gains {key : TypeKey} {id : TypeId} : after.arena.reserved? key = some id →
    before.arena.reserved? key = some id ∨ ∃ root ∈ roots, after.arena.Reaches root id
  queues {waiting : Pending} : waiting ∈ after.pending →
    waiting ∈ before.pending ∨ ∃ root ∈ roots, after.arena.Reaches root waiting.id

namespace Grows

variable {roots roots' : List TypeId} {before middle after : Transaction} {id id' : TypeId}

theorem leads (h : Grows roots before after) (leads : before.arena.Leads id id') :
    after.arena.Leads id id' := by
  cases leads with
  | operand keyed mem => exact .operand (h.remembers keyed) mem
  | base found declares derives => exact .base (h.keeps found) declares derives

/-- What is reached stays reached. -/
theorem reaches (h : Grows roots before after) (reaches : before.arena.Reaches id id') :
    after.arena.Reaches id id' :=
  Relation.ReflTransGen.mono (fun _ _ => h.leads) _ _ reaches

theorem refl (roots : List TypeId) (transaction : Transaction) :
    Grows roots transaction transaction where
  remembers := .refl _
  keeps found := found
  gains := .inl
  queues := .inl

/-- Growth in sequence is growth from the later types, if these reach the earlier ones. -/
theorem trans (h : Grows roots before middle) (h' : Grows roots' middle after)
    (each : ∀ root ∈ roots, ∃ root' ∈ roots', after.arena.Reaches root' root) :
    Grows roots' before after := by
  have hreached {id : TypeId} (hroot : ∃ root ∈ roots, middle.arena.Reaches root id) :
      ∃ root' ∈ roots', after.arena.Reaches root' id := by
    obtain ⟨root, hmem, hreaches⟩ := hroot
    obtain ⟨root', hmem', hreaches'⟩ := each root hmem
    exact ⟨root', hmem', hreaches'.trans (h'.reaches hreaches)⟩
  constructor
  case remembers => exact h.remembers.trans h'.remembers
  case keeps => exact fun found => h'.keeps (h.keeps found)
  case gains =>
    intro key id found
    rcases h'.gains found with hmiddle | hroot
    · exact (h.gains hmiddle).imp_right hreached
    · exact .inr hroot
  case queues =>
    intro waiting mem
    rcases h'.queues mem with hmiddle | hroot
    · exact (h.queues hmiddle).imp_right hreached
    · exact .inr hroot

/-- Growth from some types is growth from more types. -/
theorem of_subset (h : Grows roots before after) (sub : ∀ root ∈ roots, root ∈ roots') :
    Grows roots' before after :=
  h.trans (.refl roots' after) fun root mem => ⟨root, sub root mem, .refl⟩

/-- Opening a slot for a free key grows a transaction from that slot. -/
theorem reserve {key : TypeKey} {journal : List (TypeKey × TypeId)} {pending : List Pending}
    (free : before.arena.reserved? key = none)
    (queued : ∀ waiting ∈ pending, waiting ∈ before.pending ∨
      waiting.id = (before.arena.reserve key).1) :
    Grows [(before.arena.reserve key).1] before
      ⟨(before.arena.reserve key).2, journal, pending⟩ := by
  constructor
  case remembers => exact Arena.remembers_reserve free
  case keeps =>
    intro id entity found
    rwa [Arena.entity?_reserve]
  case gains =>
    intro key' id found
    rcases Arena.reserved?_reserve_cases found with ⟨-, rfl⟩ | hold
    · exact .inr ⟨_, List.mem_singleton_self _, .refl⟩
    · exact .inl hold
  case queues =>
    intro waiting mem
    refine (queued waiting mem).imp_right fun hid => ?_
    exact ⟨_, List.mem_singleton_self _, hid ▸ .refl⟩

/-- Filling a slot adds nothing. -/
theorem fill {entity : TypeEntity} {filled : Arena} (roots : List TypeId)
    (fills : before.arena.fill id entity = .ok filled) :
    Grows roots before { before with arena := filled } := by
  constructor
  case remembers => exact Arena.remembers_fill fills
  case keeps =>
    intro id' entity' found
    rw [Arena.entity?_fill fills, if_neg, found]
    -- a slot can only be filled while it is empty
    rintro rfl
    obtain ⟨key, hslot⟩ := Arena.slot?_of_fill fills
    rw [Arena.entity?, hslot] at found
    cases found
  case gains =>
    intro key id' found
    rw [Arena.reserved?_fill fills] at found
    exact .inl found
  case queues => exact .inl

end Grows

end Transaction

/-! ### Steps -/

namespace Resolving

open Transaction

variable {α β : Type} {store : Store} {limit levels : Nat} {before middle after : Transaction}
  {id : TypeId}

theorem run_bind_eq_ok_iff {step : Resolving α} {next : α → Resolving β} {value : β} :
    (step >>= next).run before = .ok value after ↔
      ∃ first middle, step.run before = .ok first middle ∧
        (next first).run middle = .ok value after := by
  rw [EStateM.run_bind]
  cases step.run before <;> simp

theorem run_lift_eq_ok_iff {reading : Except Fault α} {value : α} :
    (monadLift reading : Resolving α).run before = .ok value after ↔
      reading = .ok value ∧ before = after := by
  rw [run_lift]
  cases reading <;> simp

/-- After a step that only reads, the next one begins where it began. -/
theorem run_lift_bind_eq_ok {reading : Except Fault α} {next : α → Resolving β} {value : β}
    (h : (monadLift reading >>= next : Resolving β).run before = .ok value after) :
    ∃ read, reading = .ok read ∧ (next read).run before = .ok value after := by
  obtain ⟨read, middle, hread, hnext⟩ := run_bind_eq_ok_iff.mp h
  obtain ⟨hreading, rfl⟩ := run_lift_eq_ok_iff.mp hread
  exact ⟨read, hreading, hnext⟩

theorem of_run_containsParameters {flag : Bool}
    (h : (containsParameters id).run before = .ok flag after) : before = after := by
  obtain ⟨transaction, middle, hget, hflag⟩ := run_bind_eq_ok_iff.mp h
  obtain ⟨rfl, rfl⟩ := EStateM.Result.ok.inj hget
  exact (run_lift_eq_ok_iff.mp hflag).2

theorem of_run_containsParametersOfAll {ids : List TypeId} {flags : List Bool}
    (h : (ids.mapM containsParameters).run before = .ok flags after) : before = after := by
  induction ids generalizing before flags with
  | nil => exact (EStateM.Result.ok.inj h).2
  | cons id rest ih =>
    rw [List.mapM_cons] at h
    obtain ⟨flag, middle, hflag, h⟩ := run_bind_eq_ok_iff.mp h
    obtain ⟨others, middle', hothers, h⟩ := run_bind_eq_ok_iff.mp h
    obtain ⟨-, rfl⟩ := EStateM.Result.ok.inj h
    exact (of_run_containsParameters hflag).trans (ih hothers)

theorem grows_definition {index : DefinitionIndex}
    (h : (definition store index).run before = .ok id after) : Grows [id] before after := by
  cases hid : before.arena.reserved? (.definition index) with
  | some found =>
    obtain ⟨rfl, rfl⟩ := EStateM.Result.ok.inj ((run_definition_of_reserved hid).symm.trans h)
    exact .refl _ _
  | none =>
    cases hrow : store.definition index with
    | error fault => cases (run_definition_of_error hid hrow).symm.trans h
    | ok row =>
      obtain ⟨rfl, rfl⟩ := EStateM.Result.ok.inj ((run_definition_of_row hid hrow).symm.trans h)
      refine .reserve hid fun waiting mem => ?_
      rcases List.mem_cons.mp mem with rfl | hold
      · exact .inr rfl
      · exact .inl hold

/-- What is constructed leads to its operands. -/
theorem grows_construct {usage : TypeUsage} {attributes : TypeAttributes} {flag : Bool}
    {shape : TypeShape} {roots : List TypeId} {start : Transaction}
    (grows : Grows roots start before) (operands : ∀ root ∈ roots, root ∈ shape.operands)
    (h : (construct usage attributes flag shape).run before = .ok id after) :
    Grows [id] start after := by
  have hleads (keyed : after.arena.reserved? shape.key = some id) (root : TypeId)
      (mem : root ∈ roots) : ∃ root' ∈ [id], after.arena.Reaches root' root :=
    ⟨id, List.mem_singleton_self _,
      .single (.operand keyed (shape.operands_key ▸ operands root mem))⟩
  cases hid : before.arena.reserved? shape.key with
  | some found =>
    obtain ⟨rfl, rfl⟩ := EStateM.Result.ok.inj ((run_construct_of_reserved hid).symm.trans h)
    exact grows.trans (.refl _ _) (hleads hid)
  | none =>
    obtain ⟨filled, hfill⟩ := before.arena.exists_fill_reserve shape.key
      ⟨(before.arena.reserve shape.key).1, .usage usage, attributes, flag, shape⟩
    obtain ⟨rfl, rfl⟩ := EStateM.Result.ok.inj ((run_construct_of_free hid hfill).symm.trans h)
    have hreserved : Grows [(before.arena.reserve shape.key).1] before
        { before with
          arena := (before.arena.reserve shape.key).2
          journal := (shape.key, (before.arena.reserve shape.key).1) :: before.journal } :=
      .reserve hid fun _ => .inl
    have hmade := hreserved.trans (.fill [(before.arena.reserve shape.key).1] hfill)
      fun root mem => ⟨root, mem, .refl⟩
    refine grows.trans hmade (hleads ?_)
    rw [Arena.reserved?_fill hfill, Arena.reserved?_reserve, if_pos rfl]

theorem grows_genericParameter {usage : TypeUsage} {index : GenericParameterIndex}
    {ofMethod : Bool}
    (h : (genericParameter store usage index ofMethod).run before = .ok id after) :
    Grows [id] before after := by
  cases hid : before.arena.reserved? (.genericParameter index ofMethod) with
  | some found =>
    have hrun : (genericParameter store usage index ofMethod).run before = .ok found before := by
      simp [genericParameter, reserved?, hid]
    obtain ⟨rfl, rfl⟩ := EStateM.Result.ok.inj (hrun.symm.trans h)
    exact .refl _ _
  | none =>
    simp only [genericParameter, reserved?, EStateM.run_bind, EStateM.run_get, EStateM.run_pure,
      hid] at h
    obtain ⟨row, -, h⟩ := run_lift_bind_eq_ok h
    exact grows_construct (.refl [] before) (fun _ mem => absurd mem List.not_mem_nil) h

/-! ### Usages -/

/-- Whatever resolving usages makes, its result leads to. -/
def AddsNeeded (inner : TypeUsage → Resolving TypeId) : Prop :=
  ∀ ⦃usage before id after⦄, (inner usage).run before = .ok id after → Grows [id] before after

section Operands

variable {inner : TypeUsage → Resolving TypeId}

theorem grows_operand (each : AddsNeeded inner) {address : Address}
    (h : (operand store inner address).run before = .ok id after) : Grows [id] before after := by
  obtain ⟨operand, -, h⟩ := run_lift_bind_eq_ok h
  exact each h

theorem grows_operands (each : AddsNeeded inner) {addresses : List Address} {ids : List TypeId}
    (h : (addresses.mapM (operand store inner)).run before = .ok ids after) :
    Grows ids before after := by
  induction addresses generalizing before ids with
  | nil =>
    obtain ⟨rfl, rfl⟩ := EStateM.Result.ok.inj h
    exact .refl _ _
  | cons address rest ih =>
    rw [List.mapM_cons] at h
    obtain ⟨id, middle, hid, h⟩ := run_bind_eq_ok_iff.mp h
    obtain ⟨others, last, hothers, h⟩ := run_bind_eq_ok_iff.mp h
    obtain ⟨rfl, rfl⟩ := EStateM.Result.ok.inj h
    have hrest := (ih hothers).of_subset fun _ => List.mem_cons_of_mem id
    refine (grows_operand each hid).trans hrest fun root mem => ?_
    exact ⟨root, List.mem_singleton.mp mem ▸ List.mem_cons_self, .refl⟩

/-- A composite with one operand leads to whatever was made for it. -/
theorem grows_wrapped (each : AddsNeeded inner) {address : Address} {usage : TypeUsage}
    {attributes : TypeAttributes} {shape : TypeId → TypeShape}
    (operands : ∀ operand, operand ∈ (shape operand).operands)
    (h : EStateM.run (do
      let id ← operand store inner address
      construct usage attributes (← containsParameters id) (shape id)) before = .ok id after) :
    Grows [id] before after := by
  obtain ⟨operand, middle, hoperand, h⟩ := run_bind_eq_ok_iff.mp h
  obtain ⟨flag, last, hflag, h⟩ := run_bind_eq_ok_iff.mp h
  obtain rfl := of_run_containsParameters hflag
  refine grows_construct (grows_operand each hoperand) (fun root mem => ?_) h
  exact List.mem_singleton.mp mem ▸ operands root

theorem grows_composite (each : AddsNeeded inner) {usage : TypeUsage} {found : Composite}
    (h : (composite store inner usage found).run before = .ok id after) :
    Grows [id] before after := by
  cases found with
  | genericInstance address =>
    obtain ⟨generic, -, h⟩ := run_lift_bind_eq_ok h
    obtain ⟨head, middle, hhead, h⟩ := run_bind_eq_ok_iff.mp h
    obtain ⟨instantiation, -, h⟩ := run_lift_bind_eq_ok h
    obtain ⟨addresses, -, h⟩ := run_lift_bind_eq_ok h
    obtain ⟨arguments, last, harguments, h⟩ := run_bind_eq_ok_iff.mp h
    obtain ⟨flags, last', hflags, h⟩ := run_bind_eq_ok_iff.mp h
    obtain rfl := of_run_containsParametersOfAll hflags
    have hrest := (grows_operands each harguments).of_subset fun _ => List.mem_cons_of_mem head
    have hgrows := (grows_definition hhead).trans hrest fun root mem =>
      ⟨root, List.mem_singleton.mp mem ▸ List.mem_cons_self, .refl⟩
    exact grows_construct hgrows (fun root mem => by simpa [TypeShape.operands] using mem) h
  | array address =>
    obtain ⟨descriptor, -, h⟩ := run_lift_bind_eq_ok h
    obtain ⟨rank, -, h⟩ := run_lift_bind_eq_ok h
    exact grows_wrapped each (fun _ => List.mem_singleton_self _) h
  | vector address => exact grows_wrapped each (fun _ => List.mem_singleton_self _) h
  | pointer address => exact grows_wrapped each (fun _ => List.mem_singleton_self _) h

end Operands

theorem grows_byShape {nested : TypeUsage → Composite → Resolving TypeId} {usage : TypeUsage}
    (each : ∀ found, (nested usage found).run before = .ok id after → Grows [id] before after)
    (h : (byShape store nested usage).run before = .ok id after) : Grows [id] before after := by
  obtain ⟨shape, -, h⟩ := run_lift_bind_eq_ok h
  cases shape with
  | definition index => exact grows_definition h
  | primitive kind index => exact grows_definition h
  | genericParameter index ofMethod => exact grows_genericParameter h
  | composite found => exact each found h

/-- **Resolving a usage only makes what its result leads to.** -/
theorem grows_usage : AddsNeeded (usage store limit levels) := by
  induction levels with
  | zero => exact fun _ _ _ _ => grows_byShape nofun
  | succ levels ih => exact fun _ _ _ _ => grows_byShape fun _ => grows_composite ih

/-! ### Definitions -/

theorem grows_base {row : TypeDefinition} {base : Option TypeId}
    (h : (Resolving.base store limit row).run before = .ok base after) :
    Grows base.toList before after := by
  rw [Resolving.base] at h
  cases hparent : row.parent with
  | none =>
    rw [hparent] at h
    obtain ⟨rfl, rfl⟩ := EStateM.Result.ok.inj h
    exact .refl _ _
  | some parent =>
    rw [hparent, Option.mapM_some, map_eq_pure_bind] at h
    obtain ⟨id, middle, hid, h⟩ := run_bind_eq_ok_iff.mp h
    obtain ⟨rfl, rfl⟩ := EStateM.Result.ok.inj h
    obtain ⟨usage, -, hid⟩ := run_lift_bind_eq_ok hid
    exact grows_usage hid

/-- A definition is filled once its base is made. -/
theorem exists_fill_of_fillDefinition {waiting : Pending}
    (h : (fillDefinition store limit waiting).run before = .ok () after) :
    ∃ definition middle arena, Grows definition.base.toList before middle ∧
      middle.arena.fill waiting.id (waiting.entity definition) = .ok arena ∧
      after = { middle with arena } := by
  obtain ⟨namespaceName, -, h⟩ := run_lift_bind_eq_ok h
  obtain ⟨name, -, h⟩ := run_lift_bind_eq_ok h
  obtain ⟨base, middle, hbase, h⟩ := run_bind_eq_ok_iff.mp h
  obtain ⟨fields, -, h⟩ := run_lift_bind_eq_ok h
  obtain ⟨methods, -, h⟩ := run_lift_bind_eq_ok h
  rw [run_fill] at h
  split at h
  · next arena hfills =>
    obtain ⟨-, rfl⟩ := EStateM.Result.ok.inj h
    exact ⟨⟨waiting.index, namespaceName, name, base, fields, methods⟩, middle, arena,
      grows_base hbase, hfills, rfl⟩
  · cases h

/-- **Filling a definition only makes what the definition leads to.** -/
theorem grows_fillDefinition {waiting : Pending}
    (h : (fillDefinition store limit waiting).run before = .ok () after) :
    Grows [waiting.id] before after := by
  obtain ⟨definition, middle, arena, hgrows, hfills, rfl⟩ := exists_fill_of_fillDefinition h
  refine hgrows.trans (.fill _ hfills) fun root mem => ?_
  have hfound : arena.entity? waiting.id = some (waiting.entity definition) := by
    rw [Arena.entity?_fill hfills, if_pos rfl]
  exact ⟨waiting.id, List.mem_singleton_self _,
    .single (.base hfound rfl (Option.mem_toList.mp mem))⟩

/-- **Completing a request only makes what the waiting definitions lead to.** -/
theorem grows_complete {roots : List TypeId}
    (reached : ∀ waiting ∈ before.pending,
      ∃ root ∈ roots, before.arena.Reaches root waiting.id)
    (h : (complete store limit).run before = .ok () after) : Grows roots before after := by
  obtain ⟨taken, hruns⟩ := exists_completes store limit before
  rw [h] at hruns
  clear h
  generalize hresult : EStateM.Result.ok () after = result at hruns
  induction hruns with
  | done idle =>
    obtain ⟨-, rfl⟩ := EStateM.Result.ok.inj hresult
    exact .refl _ _
  | fails top fill => cases hresult
  | @goesOn before middle next rest taken result top fill _ ih =>
    have hgrows := grows_fillDefinition fill
    obtain ⟨root, hroot, hreaches⟩ := reached next (top ▸ List.mem_cons_self)
    have hnext : middle.arena.Reaches root next.id := hgrows.reaches hreaches
    have hmiddle (other : Pending) (mem : other ∈ middle.pending) :
        ∃ root ∈ roots, middle.arena.Reaches root other.id := by
      rcases hgrows.queues mem with hrest | ⟨_, hmem, hother⟩
      · obtain ⟨root', hroot', hreaches'⟩ :=
          reached other (top ▸ List.mem_cons_of_mem next hrest)
        exact ⟨root', hroot', hgrows.reaches hreaches'⟩
      · obtain rfl := List.mem_singleton.mp hmem
        exact ⟨root, hroot, hnext.trans hother⟩
    have hrest := ih hmiddle hresult
    have hall := hgrows.trans hrest fun _ mem =>
      ⟨root, hroot, List.mem_singleton.mp mem ▸ hrest.reaches hnext⟩
    exact ⟨hall.remembers, hall.keeps, hall.gains, fun mem =>
      (hall.queues mem).imp_left fun hold => top ▸ List.mem_cons_of_mem next hold⟩

end Resolving

/-! ### Questions -/

/-- Whatever a request for a usage makes, its answer leads to. -/
theorem Arena.reaches_of_request {store : Store} {limit : Nat} {arena after : Arena}
    {usage : TypeUsage} {id : TypeId}
    (h : arena.request store limit (Resolving.usage store limit limit usage) = (.ok id, after))
    {key : TypeKey} {other : TypeId} (found : after.reserved? key = some other) :
    arena.reserved? key = some other ∨ after.Reaches id other := by
  rw [request] at h
  split at h
  · next value reached hrun =>
    obtain ⟨hid, rfl⟩ := Prod.mk.inj h
    obtain rfl := Except.ok.inj hid
    obtain ⟨first, middle, husage, hrun⟩ := Resolving.run_bind_eq_ok_iff.mp hrun
    obtain ⟨⟨⟩, last, hcomplete, hrun⟩ := Resolving.run_bind_eq_ok_iff.mp hrun
    obtain ⟨rfl, rfl⟩ := EStateM.Result.ok.inj hrun
    have hgrows := Resolving.grows_usage husage
    have hrest := Resolving.grows_complete
      (fun waiting mem => (hgrows.queues mem).resolve_left List.not_mem_nil) hcomplete
    have hall := hgrows.trans hrest fun root mem => ⟨root, mem, .refl⟩
    refine (hall.gains found).imp_right ?_
    rintro ⟨root, hroot, hreaches⟩
    exact List.mem_singleton.mp hroot ▸ hreaches
  · cases (Prod.mk.inj h).1

/-- **Whatever a question makes, its answer leads to.** -/
theorem TypeModel.reaches_of_resolve {model : TypeModel} (sound : model.Sound) {query : Query}
    {id : TypeId} (answered : (query.resolve model).1 = .ok id) {key : TypeKey} {other : TypeId}
    (found : (query.resolve model).2.arena.reserved? key = some other) :
    model.arena.reserved? key = some other ∨ (query.resolve model).2.arena.Reaches id other := by
  obtain ⟨tree, after, hread, -⟩ := exists_of_resolve_eq_ok sound answered
  obtain ⟨usage, hasked, -⟩ := bind_eq_ok_iff.mp hread
  have hanswer := answer_of_asked sound hasked
  rw [answer, answered] at hanswer
  exact Arena.reaches_of_request hanswer.symm found

end TypeGraph
