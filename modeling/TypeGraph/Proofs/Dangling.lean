import Mathlib
import TypeGraph.Proofs.FailedRequests
import TypeGraph.Proofs.LiveSet
import TypeGraph.Proofs.Operands

/-!
# No dangling handles

A request that fails leaves slots behind, some of them filled, which mention each other. Nothing
that a model shows ever leads into them. Whatever a live type mentions is live, and whatever a model
answers is live; a slot to which no key leads stays that way, since later requests only enter keys
for slots that they open themselves. So a handle that a failed request used up is spent for good,
also when the same types are made again under other handles.

## Main definitions

* `TypeEntity.Mentions` — the handles that an entity holds
* `TypeModel.Shows` — the handles that a model shows without being asked for a type
* `TypeModel.Returns` — the handles that a model returns when it is asked for types
* `Arena.Spent` — a handle was issued, and no key leads to it
* `TypeModel.NoneDangles` — nothing that a model shows or returns dangles

## Main results

* `TypeModel.Reachable.mem_all_of_shows`, `TypeModel.Reachable.mem_all_of_returns`
* `Arena.Spent.moves` — a spent handle stays spent
* `TypeModel.noneDangles` — no handle dangles, and none that a failed request used up comes back
-/

namespace TypeGraph

/-! ### What entities mention -/

/-- The handles that an entity holds: its own, those of the types that it is built from, its base,
and at its members the declaring types and whatever links remember. -/
inductive TypeEntity.Mentions (entity : TypeEntity) : TypeId → Prop where
  | own : Mentions entity entity.id
  | operand {id : TypeId} (mem : id ∈ entity.shape.operands) : Mentions entity id
  | base {definition : Definition} {id : TypeId} (declares : entity.definition? = some definition)
      (derives : definition.base = some id) : Mentions entity id
  | field {definition : Definition} {field : Field}
      (declares : entity.definition? = some definition) (mem : field ∈ definition.fields) :
      Mentions entity field.declaringType
  | method {definition : Definition} {method : Method}
      (declares : entity.definition? = some definition) (mem : method ∈ definition.methods) :
      Mentions entity method.declaringType
  | link {site : MemberSite} {link : TypeLink} {id : TypeId}
      (linked : entity.link? site = some link) (remembers : link.resolved = some id) :
      Mentions entity id

/-- Members are read for the definition that declares them. -/
theorem Store.declaringType_of_mem_readFields {store : Store} {row : TypeDefinition}
    {owner : TypeId} {fields : List Field} (read : row.readFields store owner = .ok fields)
    {field : Field} (mem : field ∈ fields) : field.declaringType = owner := by
  obtain ⟨index, -, hread⟩ := exists_mem_of_forall₂ (mapM_eq_ok_iff.mp read) mem
  simp only [Field.read, bind_eq_ok_iff] at hread
  obtain ⟨fieldRow, -, name, -, hfield⟩ := hread
  exact (congrArg Field.declaringType (Except.ok.inj hfield)).symm

theorem Store.declaringType_of_mem_readMethods {store : Store} {row : TypeDefinition}
    {owner : TypeId} {methods : List Method} (read : row.readMethods store owner = .ok methods)
    {method : Method} (mem : method ∈ methods) : method.declaringType = owner := by
  obtain ⟨index, -, hread⟩ := exists_mem_of_forall₂ (mapM_eq_ok_iff.mp read) mem
  simp only [Method.read, bind_eq_ok_iff] at hread
  obtain ⟨methodRow, -, parameters, -, name, -, hmethod⟩ := hread
  exact (congrArg Method.declaringType (Except.ok.inj hmethod)).symm

namespace Arena

variable {store : Store} {limit : Nat} {arena : Arena} {tree : TypeTree} {id : TypeId}
  {entity : TypeEntity} {definition : Definition}

/-- The members of what depicts a tree name it as their declaring type. -/
theorem Depicts.declaringType_of_mem (h : arena.Depicts store limit tree entity.forget)
    (declares : entity.definition? = some definition) :
    (∀ field ∈ definition.fields, field.declaringType = entity.id) ∧
      ∀ method ∈ definition.methods, method.declaringType = entity.id := by
  obtain ⟨waiting, -, rfl, -, hportrays⟩ := h.exists_portrays declares
  refine ⟨fun field mem => ?_, fun method mem => ?_⟩
  · have hread : (Field.map id TypeLink.forget field).declaringType = waiting.id :=
      Store.declaringType_of_mem_readFields hportrays.fields (List.mem_map_of_mem mem)
    exact hread
  · have hread : (Method.map id TypeLink.forget method).declaringType = waiting.id :=
      Store.declaringType_of_mem_readMethods hportrays.methods (List.mem_map_of_mem mem)
    exact hread

namespace Honest

variable (honest : arena.Honest store limit) (sound : arena.Sound store limit)

include honest sound

theorem mem_all_of_operand (live : id ∈ arena.all) (found : arena.entity? id = some entity)
    {operand : TypeId} (mem : operand ∈ entity.shape.operands) : operand ∈ arena.all := by
  obtain ⟨-, -, tree, hdepicts⟩ := honest.depicted_of_mem_all sound live found
  rw [← entity.operands_forget] at mem
  exact sound.mem_all_iff.mpr (exists_key_of_idsOf hdepicts.idsOf_parts mem)

/-- What a live definition derives from is live. -/
theorem mem_all_of_base (live : id ∈ arena.all) (found : arena.entity? id = some entity)
    (declares : entity.definition? = some definition) {base : TypeId}
    (derives : definition.base = some base) : base ∈ arena.all := by
  obtain ⟨-, -, tree, hdepicts⟩ := honest.depicted_of_mem_all sound live found
  obtain ⟨parent, -, hparent⟩ := hdepicts.exists_needs_of_base declares derives
  exact (honest.mem_all_iff sound).mpr ⟨parent, hparent⟩

/-- **Whatever a live type mentions is live.** -/
theorem mem_all_of_mentions (linked : arena.Linked store) (live : id ∈ arena.all)
    (found : arena.entity? id = some entity) {other : TypeId} (mentions : entity.Mentions other) :
    other ∈ arena.all := by
  obtain ⟨hsame, -, tree, hdepicts⟩ := honest.depicted_of_mem_all sound live found
  cases mentions with
  | own => exact hsame ▸ live
  | operand mem => exact honest.mem_all_of_operand sound live found mem
  | base declares derives => exact honest.mem_all_of_base sound live found declares derives
  | field declares mem =>
    rw [(hdepicts.declaringType_of_mem declares).1 _ mem, hsame]
    exact live
  | method declares mem =>
    rw [(hdepicts.declaringType_of_mem declares).2 _ mem, hsame]
    exact live
  | link hlink remembers =>
    obtain ⟨target, -, htarget⟩ := linked found hlink remembers
    exact (honest.mem_all_iff sound).mpr ⟨target, htarget⟩

/-- Recursion from live types leads to live types, and all of them can be read. -/
theorem confined_all : arena.Confined (· ∈ arena.all) fun _ => False where
  reads live fault failed := by
    obtain ⟨entity, hentity⟩ := exists_entity_of_mem_all live
    cases failed.symm.trans (get_eq_ok_iff.mpr hentity)
  operand live found mem := honest.mem_all_of_operand sound live (get_eq_ok_iff.mp found) mem
  base live found declares derives :=
    honest.mem_all_of_base sound live (get_eq_ok_iff.mp found) declares derives

/-- The type that a live type derives from is live. -/
theorem mem_all_of_baseType (live : id ∈ arena.all) {base : TypeId}
    (derives : arena.baseType id = .ok (some base)) : base ∈ arena.all :=
  (honest.confined_all sound).within_of_baseType honest live derives

end Honest

end Arena

/-- The element of a type is one of its operands. -/
theorem TypeEntity.mem_operands_of_elementType {entity : TypeEntity} {id : TypeId}
    (h : entity.elementType = some id) : id ∈ entity.shape.operands := by
  rw [elementType] at h
  split at h
  · next hshape => rw [hshape, ← Option.some.inj h]; exact List.mem_singleton_self _
  · next hshape => rw [hshape, ← Option.some.inj h]; exact List.mem_singleton_self _
  · cases h

/-- The head of an instantiation is one of its operands. -/
theorem TypeEntity.mem_operands_of_genericDefinition {entity : TypeEntity} {id : TypeId}
    (h : entity.genericDefinition = some id) : id ∈ entity.shape.operands := by
  rw [genericDefinition] at h
  split at h
  · next hshape => rw [hshape, ← Option.some.inj h]; exact List.mem_cons_self
  · cases h

/-! ### Spent handles -/

namespace Arena

variable {store : Store} {limit : Nat} {before after : Arena} {id : TypeId}

/-- A handle is spent if it was issued and no key leads to it. -/
def Spent (arena : Arena) (id : TypeId) : Prop :=
  id.index < arena.slots.size ∧ ∀ key, arena.reserved? key ≠ some id

namespace Spent

theorem not_mem_all (spent : before.Spent id) : id ∉ before.all := by
  intro live
  rw [all, List.mem_filter, Bool.and_eq_true] at live
  obtain ⟨-, hlive, -⟩ := live
  rw [isLive] at hlive
  split at hlive
  · exact spent.2 _ (eq_of_beq hlive)
  · cases hlive

/-- A request only enters keys for slots that it opens itself. -/
theorem steps {transaction : Transaction} (spent : before.Spent id)
    (steps : Transaction.Steps store limit { arena := before } transaction) :
    transaction.arena.Spent id := by
  have hsince : Transaction.Since before transaction := (Transaction.Since.refl before).steps steps
  refine ⟨?_, fun key hkey => ?_⟩
  · have hsize := hsince.size
    have hid := spent.1
    omega
  · rcases hsince.keys.mp hkey with hnew | hold
    · exact absurd spent.1 (Nat.not_lt_of_le (hsince.le_index hnew))
    · exact spent.2 key hold

theorem move (spent : before.Spent id) (sound : before.Sound store limit)
    (h : Move store limit before after) : after.Spent id := by
  cases h with
  | commit steps idle => exact spent.steps steps
  | rollback steps =>
    have hrestored := sound.restored steps
    refine ⟨Nat.lt_of_lt_of_le spent.1 hrestored.size, fun key hkey => ?_⟩
    exact spent.2 key ((hrestored.keys key).symm.trans hkey)
  | memoize found linked leads =>
    refine ⟨?_, spent.2⟩
    rw [modify, Array.size_modify]
    exact spent.1

/-- **A spent handle stays spent**, whatever goes on. -/
theorem moves (spent : before.Spent id) (sound : before.Sound store limit)
    (h : Moves store limit before after) : after.Spent id := by
  induction h with
  | refl => exact spent
  | tail moves move ih => exact ih.move (Moves.sound moves sound) move

end Spent

end Arena

/-! ### What models show and return -/

namespace TypeModel

variable {store : Store} {config : Config} {model : TypeModel} {id : TypeId}

/-- A model shows a handle without being asked for a type: a live type mentions it or is related to
it, an index leads to it, or a link that only this model resolved remembers it. -/
inductive Shows (store : Store) (config : Config) (model : TypeModel) : TypeId → Prop where
  | mentions {holder id : TypeId} {entity : TypeEntity} (live : holder ∈ model.all)
      (found : model.get holder = .ok entity) (mentions : entity.Mentions id) :
      Shows store config model id
  | lookup {key : TypeKey} {id : TypeId} (found : model.lookup? key = some id) :
      Shows store config model id
  | find {fullName : String} {id : TypeId} (found : model.find? fullName = some id) :
      Shows store config model id
  | baseType {holder id : TypeId} (live : holder ∈ model.all)
      (found : model.baseType holder = .ok (some id)) : Shows store config model id
  | elementType {holder id : TypeId} (live : holder ∈ model.all)
      (found : model.arena.elementType holder = .ok (some id)) : Shows store config model id
  | genericDefinition {holder id : TypeId} (live : holder ∈ model.all)
      (found : model.arena.genericDefinition holder = .ok (some id)) : Shows store config model id
  | link {link : TypeLink} {id : TypeId} (kept : Keeps store config model link)
      (remembers : link.resolved = some id) : Shows store config model id

/-- A model returns a handle when it is asked for a type, and is another model afterwards. -/
inductive Returns (store : Store) (config : Config) (model : TypeModel) :
    TypeId → TypeModel → Prop where
  | query {query : Query} {id : TypeId} (answered : (query.resolve model).1 = .ok id) :
      Returns store config model id (query.resolve model).2
  | link {link : TypeLink} {id : TypeId} (kept : Keeps store config model link)
      (answered : (model.resolveLink link).1 = .ok id) :
      Returns store config model id (model.resolveLink link).2.2
  | member {holder id : TypeId} {site : MemberSite}
      (answered : (model.resolveMember holder site).1 = .ok (some id)) :
      Returns store config model id (model.resolveMember holder site).2
  | all {id : TypeId} (listed : id ∈ model.resolveAll.1.types) :
      Returns store config model id model.resolveAll.2

/-- **Whatever a reachable model shows is live.** -/
theorem Reachable.mem_all_of_shows (h : Reachable store config model)
    (shows : Shows store config model id) : id ∈ model.all := by
  have hsound := h.arenaSound
  have hhonest := h.honest
  have hoperand {holder operand : TypeId} {entity : TypeEntity} (live : holder ∈ model.all)
      (found : model.get holder = .ok entity) (mem : operand ∈ entity.shape.operands) :
      operand ∈ model.all :=
    hhonest.mem_all_of_operand hsound live (Arena.get_eq_ok_iff.mp found) mem
  cases shows with
  | mentions live found mentions =>
    exact hhonest.mem_all_of_mentions hsound h.linked live (Arena.get_eq_ok_iff.mp found) mentions
  | lookup found =>
    rw [lookup?, hsound.lookup?_eq] at found
    exact hsound.mem_all_iff.mpr ⟨_, found⟩
  | find found =>
    obtain ⟨key, entity, hid, -⟩ := Transaction.Sound.named hsound found
    exact hsound.mem_all_iff.mpr ⟨key, hid⟩
  | baseType live found => exact hhonest.mem_all_of_baseType hsound live found
  | elementType live found =>
    obtain ⟨entity, hentity, hfound⟩ := bind_eq_ok_iff.mp found
    exact hoperand live hentity (TypeEntity.mem_operands_of_elementType (Except.ok.inj hfound))
  | genericDefinition live found =>
    obtain ⟨entity, hentity, hfound⟩ := bind_eq_ok_iff.mp found
    exact hoperand live hentity
      (TypeEntity.mem_operands_of_genericDefinition (Except.ok.inj hfound))
  | link kept remembers =>
    obtain ⟨tree, -, hid⟩ := kept.truthful remembers
    exact (hhonest.mem_all_iff hsound).mpr ⟨tree, hid⟩

/-- The answer to a question is live, and stays so. -/
theorem Reachable.mem_all_of_remembers (h : Reachable store config model) {query : Query}
    (answered : (query.resolve model).1 = .ok id) {later : TypeModel}
    (reachable : Reachable store config later)
    (remembers : (query.resolve model).2.arena.Remembers later.arena) : id ∈ later.all := by
  obtain ⟨tree, -, hadds⟩ := h.adds_resolve answered
  exact (reachable.honest.mem_all_iff reachable.arenaSound).mpr
    ⟨tree, remembers.idOf hadds.found⟩

/-- What is answered for several definitions is live once all of them were asked for. -/
theorem Reachable.mem_all_of_resolveEach (h : Reachable store config model)
    {indices : List DefinitionIndex} {index : DefinitionIndex}
    (answered : (index, Except.ok id) ∈ (model.resolveEach indices).1) :
    id ∈ (model.resolveEach indices).2.all := by
  induction indices generalizing model with
  | nil => cases answered
  | cons first rest ih =>
    have hreachable := h.ask (.definition first)
    rcases List.mem_cons.mp answered with hfirst | hrest
    · have hanswer : ((Query.definition first).resolve model).1 = .ok id :=
        (Prod.mk.inj hfirst).2.symm
      have hremembers := remembers_askEach hreachable.sound (rest.map .definition)
      have hlast := reachable_askEach hreachable (rest.map .definition)
      rw [← model_resolveEach] at hremembers hlast
      exact h.mem_all_of_remembers hanswer hlast hremembers
    · exact ih hreachable hrest

/-- **Whatever a reachable model returns is live afterwards.** -/
theorem Reachable.mem_all_of_returns (h : Reachable store config model) {after : TypeModel}
    (returns : Returns store config model id after) : id ∈ after.all := by
  have hadds {tree : TypeTree} {last : TypeModel} (reachable : Reachable store config last)
      (adds : model.arena.Adds store tree id last.arena) : id ∈ last.all :=
    (reachable.honest.mem_all_iff reachable.arenaSound).mpr ⟨tree, adds.found⟩
  cases returns with
  | @query query _ answered =>
    obtain ⟨tree, -, hquery⟩ := h.adds_resolve answered
    have hreachable := h.ask query.request
    rw [ask_request] at hreachable
    exact hadds hreachable hquery
  | @link link _ kept answered =>
    obtain ⟨tree, -, hlink⟩ := h.adds_resolveLink kept.truthful answered
    exact hadds (h.ask (.link link)) hlink
  | @member holder _ site answered =>
    have hown (link : TypeLink) :
        Request.member holder site = .link link → Keeps store config model link := nofun
    obtain ⟨tree, -, hmember⟩ := h.adds_ask hown answered
    exact hadds (h.ask (.member holder site)) hmember
  | all listed =>
    obtain ⟨⟨index, answer⟩, hmem, hanswer⟩ := List.mem_filterMap.mp listed
    cases answer with
    | ok found =>
      obtain rfl : found = id := Option.some.inj hanswer
      exact h.mem_all_of_resolveEach hmem
    | error fault => cases hanswer

/-- Whatever returns a handle is a history. -/
theorem Returns.exists_askEach {after : TypeModel} (h : Returns store config model id after) :
    ∃ requests, (model.askEach requests).2 = after := by
  cases h with
  | @query query _ answered =>
    refine ⟨[query.request], ?_⟩
    rw [askEach, ask_request]
    rfl
  | @link link _ kept answered => exact ⟨[.link link], rfl⟩
  | @member holder _ site answered => exact ⟨[.member holder site], rfl⟩
  | all listed => exact ⟨_, (model_resolveEach model.store.definitionIndices model).symm⟩

/-- A handle that is spent stays spent over a history. -/
theorem spent_askEach (sound : model.Sound) (spent : model.arena.Spent id)
    (requests : List Request) : (model.askEach requests).2.arena.Spent id := by
  induction requests generalizing model with
  | nil => exact spent
  | cons request rest ih =>
    exact ih (sound_ask sound request) (spent.moves sound (moves_ask sound request))

/-- A request that fails leaves every handle spent that it used up. -/
theorem spent_of_ask_eq_error (sound : model.Sound) {request : Request} {fault : Fault}
    (failed : (model.ask request).1 = .error fault)
    (new : model.arena.slots.size ≤ id.index)
    (issued : id.index < (model.ask request).2.arena.slots.size) :
    (model.ask request).2.arena.Spent id :=
  ⟨issued, (restored_of_ask_eq_error sound failed).reserved?_ne sound new⟩

/-- No handle dangles in a model, and none that a failed request used up comes back. -/
structure NoneDangles (store : Store) (config : Config) (model : TypeModel) : Prop where
  /-- Whatever is shown is live. -/
  shown {id : TypeId} : Shows store config model id → id ∈ model.all
  /-- Whatever is returned is live afterwards. -/
  returned {id : TypeId} {after : TypeModel} : Returns store config model id after → id ∈ after.all
  /-- If a request fails, the handles that were issued during it are not live later on, and neither
  shown nor returned, whatever is asked in between. -/
  lost {request : Request} {fault : Fault} {id : TypeId} :
    (model.ask request).1 = .error fault → model.arena.slots.size ≤ id.index →
      id.index < (model.ask request).2.arena.slots.size → ∀ requests,
        id ∉ ((model.ask request).2.askEach requests).2.all ∧
        ¬ Shows store config ((model.ask request).2.askEach requests).2 id ∧
        ∀ after, ¬ Returns store config ((model.ask request).2.askEach requests).2 id after

/-- **No handle dangles** in any reachable model. -/
theorem noneDangles (reachable : Reachable store config model) :
    NoneDangles store config model where
  shown := reachable.mem_all_of_shows
  returned := reachable.mem_all_of_returns
  lost {request fault id} failed new issued requests := by
    have hspent := spent_of_ask_eq_error reachable.sound failed new issued
    have hlater := reachable_askEach (reachable.ask request) requests
    have hspent' := spent_askEach (reachable.ask request).sound hspent requests
    refine ⟨hspent'.not_mem_all, fun shows => ?_, fun after returns => ?_⟩
    · exact hspent'.not_mem_all (hlater.mem_all_of_shows shows)
    · have hlive := hlater.mem_all_of_returns returns
      obtain ⟨others, rfl⟩ := returns.exists_askEach
      exact (spent_askEach hlater.sound hspent' others).not_mem_all hlive

end TypeModel

/-- In an image whose types are tangled, one request fails and uses up six handles, and the next one
makes a vector and two of the definitions again. -/
theorem TypeModel.noneDangles_tangle :
    ((TypeModel.new .tangle .standard).ask (.definition ⟨2⟩)).1 =
        .error (.indexOutOfRange .string 9 1) ∧
      ((TypeModel.new .tangle .standard).ask (.definition ⟨2⟩)).2.arena.slots.size = 6 ∧
      NoneDangles .tangle .standard (.new .tangle .standard) ∧
      NoneDangles .tangle .standard
        ((TypeModel.new .tangle .standard).askEach [.definition ⟨2⟩, .definition ⟨0⟩]).2 := by
  refine ⟨by cbv, by cbv, ?_, ?_⟩
  · exact noneDangles .new
  · exact noneDangles (reachable_askEach .new [.definition ⟨2⟩, .definition ⟨0⟩])

end TypeGraph
