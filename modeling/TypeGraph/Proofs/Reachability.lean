import TypeGraph.Proofs.Queries

/-!
# Reachable models

Over a history, the arena of a model changes in three ways only. A request is committed, or it is
rolled back, or a link at a member is made to remember its type. `Arena.Move` says so, with
everything that holds at that moment. All of them preserve soundness and keep every handle, so every
reachable model is sound, and a tree that has a handle never loses it.

## Main definitions

* `Arena.Move`, `Arena.Moves` — one change of an arena between requests, and any number of them

## Main results

* `Arena.Moves.sound`, `Arena.Moves.remembers` — moves preserve soundness and keep handles
* `TypeModel.moves_ask` — every request is a sequence of moves
* `TypeModel.Reachable.sound` — every reachable model is sound
-/

namespace TypeGraph

/-! ### Links -/

theorem Definition.fullName_modifyLink (change : TypeLink → TypeLink) (definition : Definition)
    (site : MemberSite) : (definition.modifyLink change site).fullName = definition.fullName := by
  cases site <;> rfl

/-- Remembering the type behind a link leaves the full name alone. -/
theorem TypeEntity.declaredName?_memoize (site : MemberSite) (target : TypeId)
    (entity : TypeEntity) : (entity.memoize site target).declaredName? = entity.declaredName? := by
  rw [memoize]
  split
  · next definition hshape =>
    simp [declaredName?, definition?, hshape, Definition.fullName_modifyLink]
  · rfl

/-! ### Moves -/

namespace Arena

/-- One change of an arena between requests. -/
inductive Move (store : Store) (limit : Nat) : Arena → Arena → Prop where
  /-- A request went through, and nothing waits any more. -/
  | commit {arena : Arena} {after : Transaction}
      (steps : Transaction.Steps store limit { arena } after) (idle : after.pending = []) :
      Move store limit arena after.arena
  /-- A request failed, and is rolled back. -/
  | rollback {arena : Arena} {after : Transaction}
      (steps : Transaction.Steps store limit { arena } after) :
      Move store limit arena after.rollback
  /-- The link at a site of an entity is made to remember a type, which is the one that it remembers
  already or the one that its usage denotes. -/
  | memoize {arena : Arena} {id target : TypeId} {site : MemberSite} {entity : TypeEntity}
      {link : TypeLink} (found : arena.entity? id = some entity)
      (linked : entity.link? site = some link)
      (leads : link.resolved = some target ∨ ∃ usage tree, store.usage link.usage = .ok usage ∧
        Denotes store usage tree ∧ arena.idOf tree = some target) :
      Move store limit arena (arena.modify (TypeEntity.memoize site target) id)

/-- Any number of changes of an arena. -/
abbrev Moves (store : Store) (limit : Nat) : Arena → Arena → Prop :=
  Relation.ReflTransGen (Move store limit)

variable {store : Store} {limit : Nat} {before after : Arena}

theorem Move.sound (h : Move store limit before after) (sound : before.Sound store limit) :
    after.Sound store limit := by
  cases h with
  | commit steps idle => exact .of_transaction (Transaction.Sound.steps sound steps) idle
  | rollback steps => exact (sound.restored steps).sound sound
  | @memoize id target site entity link found linked leads =>
    refine sound.of_similar (fun _ => rfl) (fun _ => rfl) (fun _ _ => keyAt?_modify ..) ?_
    intro id' _
    rw [entity?_modify]
    split
    · next hid =>
      rw [hid, Option.map_map]
      exact congrArg (Option.map · _) (funext (TypeEntity.declaredName?_memoize site target))
    · rfl

theorem Move.remembers (h : Move store limit before after) (sound : before.Sound store limit) :
    before.Remembers after := by
  cases h with
  | commit steps idle => exact steps.remembers
  | rollback steps => exact .of_eq (sound.restored steps).keys
  | memoize found linked leads => exact .refl _

/-- **Moves preserve soundness.** -/
theorem Moves.sound (h : Moves store limit before after) (sound : before.Sound store limit) :
    after.Sound store limit := by
  induction h with
  | refl => exact sound
  | tail _ move ih => exact move.sound ih

/-- **No move takes a key away from its handle.** -/
theorem Moves.remembers (h : Moves store limit before after) (sound : before.Sound store limit) :
    before.Remembers after := by
  induction h with
  | refl => exact .refl _
  | tail moves move ih => exact ih.trans (move.remembers (Moves.sound moves sound))

end Arena

/-! ### Requests -/

namespace TypeModel

variable {model : TypeModel}

/-- A question for one type is a single move. -/
theorem move_resolve (sound : model.Sound) (query : Query) :
    Arena.Move model.store model.config.maxDepth model.arena (query.resolve model).2.arena := by
  cases hanswer : (query.resolve model).1 with
  | ok id =>
    obtain ⟨tree, after, -, steps, idle, -, hafter⟩ := exists_of_resolve_eq_ok sound hanswer
    exact hafter ▸ .commit steps idle
  | error fault =>
    obtain ⟨after, steps, hafter⟩ := exists_of_resolve_eq_error sound hanswer
    exact hafter ▸ .rollback steps

/-- A question for one type leaves the types alone that were there before. -/
theorem slot?_resolve (sound : model.Sound) (query : Query) {id : TypeId}
    (hid : id.index < model.arena.slots.size) :
    (query.resolve model).2.arena.slot? id = model.arena.slot? id := by
  cases hanswer : (query.resolve model).1 with
  | ok _ =>
    obtain ⟨tree, after, -, steps, -, -, hafter⟩ := exists_of_resolve_eq_ok sound hanswer
    have hsince : Transaction.Since model.arena after := (Transaction.Since.refl _).steps steps
    rw [hafter, hsince.slots hid]
  | error fault =>
    obtain ⟨after, steps, hafter⟩ := exists_of_resolve_eq_error sound hanswer
    rw [hafter]
    exact (Arena.Sound.restored sound steps).slots hid

/-- A link that remembers nothing is resolved by asking for its usage. -/
theorem resolveLink_of_unresolved {link : TypeLink} (h : link.resolved = none)
    (model : TypeModel) :
    model.resolveLink link =
      match (Query.usageIndex link.usage).resolve model with
      | (.ok id, model) => (.ok id, link.memoize id, model)
      | (.error fault, model) => (.error fault, link, model) := by
  rw [resolveLink, h]
  rfl

theorem model_resolveLink {link : TypeLink} (h : link.resolved = none) (model : TypeModel) :
    (model.resolveLink link).2.2 = ((Query.usageIndex link.usage).resolve model).2 := by
  rw [resolveLink_of_unresolved h]
  cases (Query.usageIndex link.usage).resolve model with
  | mk answer after => cases answer <;> rfl

theorem answer_resolveLink {link : TypeLink} (h : link.resolved = none) (model : TypeModel) :
    (model.resolveLink link).1 = ((Query.usageIndex link.usage).resolve model).1 := by
  rw [resolveLink_of_unresolved h]
  cases (Query.usageIndex link.usage).resolve model with
  | mk answer after => cases answer <;> rfl

theorem moves_resolveLink (sound : model.Sound) (link : TypeLink) :
    Arena.Moves model.store model.config.maxDepth model.arena
      (model.resolveLink link).2.2.arena := by
  cases hlink : link.resolved with
  | some id => rw [resolveLink_of_resolved hlink]
  | none =>
    rw [model_resolveLink hlink]
    exact .single (move_resolve sound _)

/-- What a link leads to is what it remembers, or what its usage denotes. -/
theorem leads_of_resolveLink (sound : model.Sound) {link : TypeLink} {target : TypeId}
    (answered : (model.resolveLink link).1 = .ok target) :
    link.resolved = some target ∨ ∃ usage tree, model.store.usage link.usage = .ok usage ∧
      Denotes model.store usage tree ∧
      (model.resolveLink link).2.2.arena.idOf tree = some target := by
  cases hlink : link.resolved with
  | some id =>
    rw [resolveLink_of_resolved hlink] at answered
    exact .inl (congrArg some (Except.ok.inj answered))
  | none =>
    rw [answer_resolveLink hlink] at answered
    obtain ⟨tree, after, hread, -, -, hid, hafter⟩ := exists_of_resolve_eq_ok sound answered
    obtain ⟨usage, husage, hdenotes⟩ := Query.denotes_of_readTree hread
    rw [model_resolveLink hlink, hafter]
    exact .inr ⟨usage, tree, husage, hdenotes, hid⟩

/-- Resolving a link leaves the types alone that were there before. -/
theorem entity?_resolveLink (sound : model.Sound) (link : TypeLink) {id : TypeId}
    {entity : TypeEntity} (found : model.arena.entity? id = some entity) :
    (model.resolveLink link).2.2.arena.entity? id = some entity := by
  cases hlink : link.resolved with
  | some id => rw [resolveLink_of_resolved hlink, found]
  | none =>
    have hid : id.index < model.arena.slots.size := by
      refine Nat.lt_of_not_le fun hle => ?_
      rw [Arena.entity?, Arena.slot?_eq_none_of_le hle] at found
      cases found
    rw [model_resolveLink hlink, Arena.entity?, slot?_resolve sound _ hid, ← Arena.entity?, found]

theorem moves_resolveMember (sound : model.Sound) (id : TypeId) (site : MemberSite) :
    Arena.Moves model.store model.config.maxDepth model.arena
      (model.resolveMember id site).2.arena := by
  rw [resolveMember]
  cases hlink : model.memberLink id site with
  | error fault => exact .refl
  | ok found =>
    cases found with
    | none => exact .refl
    | some link =>
      obtain ⟨entity, hentity, hlinked⟩ := bind_eq_ok_iff.mp hlink
      have hmoves := moves_resolveLink sound link
      have hleads (target : TypeId) : (model.resolveLink link).1 = .ok target → _ :=
        leads_of_resolveLink sound
      have hfound := entity?_resolveLink sound link (Arena.get_eq_ok_iff.mp hentity)
      rcases hresolve : model.resolveLink link with ⟨answer, link', after⟩
      rw [hresolve] at hmoves hleads hfound
      simp only [hresolve]
      cases answer with
      | error fault => exact hmoves
      | ok target =>
        exact hmoves.tail (.memoize hfound (Except.ok.inj hlinked) (hleads target rfl))

/-- **Every request is a sequence of moves.** -/
theorem moves_ask (sound : model.Sound) (request : Request) :
    Arena.Moves model.store model.config.maxDepth model.arena (model.ask request).2.arena := by
  cases request with
  | definition index => exact .single (move_resolve sound (.definition index))
  | usage found => exact .single (move_resolve sound (.usage found))
  | usageIndex index => exact .single (move_resolve sound (.usageIndex index))
  | link link => exact moves_resolveLink sound link
  | member id site => exact moves_resolveMember sound id site

/-! ### Histories -/

theorem sound_ask (sound : model.Sound) (request : Request) : (model.ask request).2.Sound := by
  obtain ⟨hstore, hconfig⟩ := sameImage_ask request model
  rw [Sound, hstore, hconfig]
  exact (moves_ask sound request).sound sound

theorem sound_new (store : Store) (config : Config) : (TypeModel.new store config).Sound :=
  Arena.Sound.empty

/-- **Every reachable model is sound.** -/
theorem Reachable.sound {store : Store} {config : Config} (h : Reachable store config model) :
    model.Sound := by
  induction h with
  | new => exact sound_new store config
  | ask _ request ih => exact sound_ask ih request

/-- A history takes no key away from its handle. -/
theorem remembers_askEach (sound : model.Sound) (requests : List Request) :
    model.arena.Remembers (model.askEach requests).2.arena := by
  induction requests generalizing model with
  | nil => exact .refl _
  | cons request rest ih =>
    exact ((moves_ask sound request).remembers sound).trans (ih (sound_ask sound request))

end TypeModel

end TypeGraph
