import TypeGraph.Proofs.Contents

/-!
# What links remember

A link remembers the type that it was resolved to, and from then on answers without asking anything.
So its memory has to stay right for as long as the link lives, over requests that fail and types
that are made again. It does, because a link only comes to remember the answer to a request that
went through, and that answer stays the handle of its tree.

This is true of links at members, which only the model itself resolves. A link that is held outside
the model might have been resolved by another one, and means nothing here; `TypeModel.Keeps` singles
out those that were only ever resolved by this one.

## Main definitions

* `TypeLink.Truthful` — what a link remembers is the handle of what its usage denotes
* `Arena.Linked` — all links at members are truthful
* `TypeModel.Keeps` — a link was only ever resolved by this model

## Main results

* `Arena.Linked.move`, `TypeModel.Reachable.linked` — links at members are always truthful
* `TypeModel.Keeps.truthful` — so is a link that only this model resolved
-/

namespace TypeGraph

/-! ### Links at members -/

/-- Replacing all links of a definition replaces the one at each site. -/
theorem Definition.link?_map (handle : TypeId → TypeId) (link : TypeLink → TypeLink)
    (definition : Definition) (site : MemberSite) :
    (definition.map handle link).link? site = (definition.link? site).map link := by
  cases site with
  | field position => simp [map, link?, Field.map, Function.comp_def]
  | returnType method => simp [map, link?, Method.map, Function.comp_def]
  | parameter method position =>
    cases h : definition.methods[method]? <;>
      simp [map, link?, Method.map, Parameter.map, Function.comp_def, h]

/-- Changing the link at a site leaves those at other sites as they are. -/
theorem Definition.link?_modifyLink_of_ne {site site' : MemberSite} (ne : site ≠ site')
    (change : TypeLink → TypeLink) (definition : Definition) :
    (definition.modifyLink change site).link? site' = definition.link? site' := by
  cases site <;> cases site' <;> simp_all [modifyLink, link?, List.getElem?_modify]
  case returnType.parameter method method' position =>
    by_cases here : method = method' <;> cases definition.methods[method']? <;> simp [here]
  case parameter.returnType method position method' =>
    by_cases here : method = method' <;> cases definition.methods[method']? <;> simp [here]
  case parameter.parameter method position method' position' =>
    by_cases here : method = method'
    · cases definition.methods[method']? <;> simp [here, ne here]
    · cases definition.methods[method']? <;> simp [here]

namespace TypeEntity

variable {entity : TypeEntity} {site : MemberSite} {link : TypeLink}

/-- Where the links of an entity remember nothing, none of them does. -/
theorem resolved_eq_none_of_forget_eq (plain : entity.forget = entity)
    (linked : entity.link? site = some link) : link.resolved = none := by
  obtain ⟨definition, hdefinition, hlink⟩ := Option.bind_eq_some_iff.mp linked
  have hplain : definition.forget = definition := by
    have hforget := entity.definition?_forget
    rw [plain, hdefinition] at hforget
    exact (Option.some.inj hforget).symm
  rw [← hplain, Definition.forget, Definition.link?_map] at hlink
  obtain ⟨link', -, rfl⟩ := Option.map_eq_some_iff.mp hlink
  rfl

/-- After a link was made to remember a type, it does, and all others are as they were. -/
theorem exists_of_link?_memoize {site' : MemberSite} {target : TypeId}
    (linked : (entity.memoize site target).link? site' = some link) :
    ∃ link', entity.link? site' = some link' ∧
      (link = link' ∨ site' = site ∧ link = link'.memoize target) := by
  rw [memoize] at linked
  split at linked
  · next definition hshape =>
    have hlink {other : MemberSite} : entity.link? other = definition.link? other := by
      rw [link?, definition?, hshape]
      rfl
    have hlinked : (definition.modifyLink (TypeLink.memoize target) site).link? site' = some link :=
      linked
    by_cases hsite : site = site'
    · subst hsite
      rw [Definition.link?_modifyLink] at hlinked
      obtain ⟨link', hlink', rfl⟩ := Option.map_eq_some_iff.mp hlinked
      exact ⟨link', hlink.trans hlink', .inr ⟨rfl, rfl⟩⟩
    · rw [Definition.link?_modifyLink_of_ne hsite] at hlinked
      exact ⟨link, hlink.trans hlinked, .inl rfl⟩
  · exact ⟨link, linked, .inl rfl⟩

end TypeEntity

/-! ### Truthful links -/

/-- A link is truthful if what it remembers is the handle of what its usage denotes. -/
def TypeLink.Truthful (store : Store) (arena : Arena) (link : TypeLink) : Prop :=
  ∀ ⦃target⦄, link.resolved = some target →
    ∃ tree, (Query.usageIndex link.usage).Denotes store tree ∧ arena.idOf tree = some target

namespace TypeLink.Truthful

variable {store : Store} {before after : Arena} {link : TypeLink}

/-- A link that remembers nothing is truthful. -/
theorem of_unresolved (h : link.resolved = none) : link.Truthful store before := by
  intro target htarget
  rw [h] at htarget
  cases htarget

theorem mono (h : link.Truthful store before) (remembers : before.Remembers after) :
    link.Truthful store after := by
  intro target htarget
  obtain ⟨tree, hdenotes, hid⟩ := h htarget
  exact ⟨tree, hdenotes, remembers.idOf hid⟩

/-- A truthful link that is resolved rightly stays truthful. -/
theorem memoize {target : TypeId} (h : link.Truthful store before)
    (leads : link.resolved = some target ∨
      ∃ tree, (Query.usageIndex link.usage).Denotes store tree ∧
        before.idOf tree = some target) : (link.memoize target).Truthful store before := by
  intro target' htarget'
  cases hlink : link.resolved with
  | some memory =>
    have hsame : (link.memoize target).resolved = some memory := by
      rw [TypeLink.memoize, hlink]
      rfl
    obtain rfl := Option.some.inj (hsame.symm.trans htarget')
    exact h hlink
  | none =>
    have hsame : (link.memoize target).resolved = some target := by
      rw [TypeLink.memoize, hlink]
      rfl
    obtain rfl := Option.some.inj (hsame.symm.trans htarget')
    exact leads.resolve_left (by simp [hlink])

end TypeLink.Truthful

namespace Arena

variable {store : Store} {limit : Nat} {before after : Arena}

/-- All links at members are truthful, also those in slots that nothing leads to. -/
def Linked (store : Store) (arena : Arena) : Prop :=
  ∀ ⦃id entity site link⦄, arena.entity? id = some entity → entity.link? site = some link →
    link.Truthful store arena

namespace Linked

theorem empty : Linked store .empty := by
  intro id entity site link found
  cases found

/-- Entities that a request makes have links that remember nothing. -/
theorem steps {transaction : Transaction} (linked : before.Linked store)
    (steps : Transaction.Steps store limit { arena := before } transaction)
    (remembers : before.Remembers after)
    (same : ∀ id, after.entity? id = transaction.arena.entity? id) : after.Linked store := by
  intro id entity site link found hlink
  rw [same] at found
  rcases steps.entity?_cases found with hold | hplain
  · exact (linked hold hlink).mono remembers
  · exact .of_unresolved (TypeEntity.resolved_eq_none_of_forget_eq hplain hlink)

theorem memoize {id target : TypeId} {site : MemberSite} {entity : TypeEntity} {link : TypeLink}
    (linked : before.Linked store) (found : before.entity? id = some entity)
    (hlink : entity.link? site = some link)
    (leads : link.resolved = some target ∨
      ∃ tree, (Query.usageIndex link.usage).Denotes store tree ∧
        before.idOf tree = some target) :
    (before.modify (TypeEntity.memoize site target) id).Linked store := by
  have hremembers : before.Remembers (before.modify (TypeEntity.memoize site target) id) :=
    .refl before
  intro id' entity' site' link' found' hlink'
  rw [entity?_modify] at found'
  split at found'
  · rw [found] at found'
    obtain rfl := Option.some.inj found'
    obtain ⟨original, horiginal, rfl | ⟨rfl, rfl⟩⟩ := TypeEntity.exists_of_link?_memoize hlink'
    · exact (linked found horiginal).mono hremembers
    · obtain rfl := Option.some.inj (horiginal.symm.trans hlink)
      exact ((linked found horiginal).memoize leads).mono hremembers
  · exact (linked found' hlink').mono hremembers

/-- **Every move keeps links truthful.** -/
theorem move (linked : before.Linked store) (sound : before.Sound store limit)
    (h : Move store limit before after) : after.Linked store := by
  cases h with
  | commit steps idle => exact linked.steps steps steps.remembers fun _ => rfl
  | rollback steps =>
    exact linked.steps steps (.of_eq (sound.restored steps).keys) fun _ => entity?_rollback _ _
  | memoize found hlink leads =>
    refine linked.memoize found hlink (leads.imp_right ?_)
    rintro ⟨usage, tree, husage, hdenotes, hid⟩
    exact ⟨tree, ⟨usage, husage, hdenotes⟩, hid⟩

end Linked

end Arena

/-! ### Links of a model -/

namespace TypeModel

variable {store : Store} {config : Config} {model : TypeModel} {link : TypeLink}

/-- **In every reachable model, all links at members are truthful.** -/
theorem Reachable.linked (h : Reachable store config model) : model.arena.Linked store :=
  h.of_moves .empty fun _ _ sound linked move => linked.move sound move

/-- A link was only ever resolved by this model: it is new, or it was found at a member, and since
then it was at most resolved here, while the model went on to be asked other things. -/
inductive Keeps (store : Store) (config : Config) : TypeModel → TypeLink → Prop where
  | new {model : TypeModel} (reachable : Reachable store config model) (usage : UsageIndex) :
      Keeps store config model { usage }
  | member {model : TypeModel} {id : TypeId} {site : MemberSite} {link : TypeLink}
      (reachable : Reachable store config model)
      (found : model.memberLink id site = .ok (some link)) : Keeps store config model link
  | resolve {model : TypeModel} {link : TypeLink} (kept : Keeps store config model link) :
      Keeps store config (model.resolveLink link).2.2 (model.resolveLink link).2.1
  | ask {model : TypeModel} {link : TypeLink} (kept : Keeps store config model link)
      (request : Request) : Keeps store config (model.ask request).2 link

theorem Keeps.reachable (h : Keeps store config model link) : Reachable store config model := by
  induction h with
  | new reachable usage => exact reachable
  | member reachable found => exact reachable
  | @resolve model link _ ih => exact ih.ask (.link link)
  | ask _ request ih => exact ih.ask request

theorem Reachable.truthful_memberLink (h : Reachable store config model) {id : TypeId}
    {site : MemberSite} (found : model.memberLink id site = .ok (some link)) :
    link.Truthful store model.arena := by
  obtain ⟨entity, hentity, hlink⟩ := bind_eq_ok_iff.mp found
  exact h.linked (Arena.get_eq_ok_iff.mp hentity) (Except.ok.inj hlink)

/-- What is left of a link after it was asked for: it remembers the answer, if there is one. -/
theorem link_resolveLink (link : TypeLink) (model : TypeModel) :
    (model.resolveLink link).2.1 = link ∨ ∃ target, (model.resolveLink link).1 = .ok target ∧
      (model.resolveLink link).2.1 = link.memoize target := by
  cases hlink : link.resolved with
  | some id =>
    rw [resolveLink_of_resolved hlink]
    exact .inl rfl
  | none =>
    rw [resolveLink_of_unresolved hlink]
    cases (Query.usageIndex link.usage).resolve model with
    | mk answer after =>
      cases answer with
      | ok target => exact .inr ⟨target, rfl, rfl⟩
      | error fault => exact .inl rfl

/-- **A link that only this model resolved is truthful.** -/
theorem Keeps.truthful (h : Keeps store config model link) : link.Truthful store model.arena := by
  induction h with
  | new reachable usage => exact .of_unresolved rfl
  | member reachable found => exact reachable.truthful_memberLink found
  | @resolve model link kept ih =>
    have hsound := kept.reachable.sound
    have hremembers := (moves_resolveLink hsound link).remembers hsound
    rcases link_resolveLink link model with hsame | ⟨target, hanswer, hmemoized⟩
    · rw [hsame]
      exact ih.mono hremembers
    · rw [hmemoized]
      refine (ih.mono hremembers).memoize ((leads_of_resolveLink hsound hanswer).imp_right ?_)
      rintro ⟨usage, tree, husage, hdenotes, hid⟩
      rw [kept.reachable.sameImage.1] at husage hdenotes
      exact ⟨tree, ⟨usage, husage, hdenotes⟩, hid⟩
  | @ask model link kept request ih =>
    have hsound := kept.reachable.sound
    exact ih.mono ((moves_ask hsound request).remembers hsound)

end TypeModel

end TypeGraph
