import Mathlib
import TypeGraph.Proofs.FailedRequests
import TypeGraph.Proofs.Links
import TypeGraph.Proofs.Repetition

/-!
# What lasts

An entity that can be read once can be read ever after, and reads the same but for what its links
remember; this also holds of entities that a failed request has left behind. A link changes once at
most: it may come to remember a type, and then keeps it.

The memory of a link passes by the arena, so it has to agree with it at any later time. It does as
long as the link is resolved by one model only. What the link remembers is the handle of the tree
that its usage denotes, and no request takes a tree away from its handle. So whoever asks for the
usage afresh is answered with the same handle, and finds it live.

## Main definitions

* `TypeLink.KeptBy`, `TypeEntity.KeptBy`, `Arena.KeptBy` — nothing is lost but empty memories
* `TypeModel.Coherent` — what a link remembers is what a model would answer
* `TypeModel.Lasting` — what lasts over any further requests

## Main results

* `Arena.Moves.keptBy` — entities are kept by every request
* `TypeModel.coherent_of_truthful` — a truthful link is coherent
* `TypeModel.Reachable.lasting` — entities are kept, and links that remember something are coherent
  for ever
-/

namespace TypeGraph

/-! ### Links that remember -/

namespace TypeLink

/-- A link is kept if it leads to the same usage, and remembers what it remembered. It may remember
a type now where it remembered none. -/
structure KeptBy (link later : TypeLink) : Prop where
  usage : later.usage = link.usage
  resolved : ∀ ⦃target⦄, link.resolved = some target → later.resolved = some target

theorem KeptBy.refl (link : TypeLink) : link.KeptBy link := ⟨rfl, fun _ => id⟩

theorem KeptBy.trans {link middle later : TypeLink} (h : link.KeptBy middle)
    (h' : middle.KeptBy later) : link.KeptBy later :=
  ⟨h'.usage.trans h.usage, fun _ resolved => h'.resolved (h.resolved resolved)⟩

theorem keptBy_memoize (link : TypeLink) (target : TypeId) : link.KeptBy (link.memoize target) :=
  ⟨rfl, fun _ resolved => by rw [memoize, resolved]; rfl⟩

/-- A link that remembers something is left as it is. -/
theorem memoize_of_resolved {link : TypeLink} {memory : TypeId} (h : link.resolved = some memory)
    (target : TypeId) : link.memoize target = link := by
  rw [memoize, h, Option.getD_some, ← h]

end TypeLink

/-! ### Links of definitions -/

/-- A change that leaves an element as it is leaves the list as it is. -/
theorem modify_eq_self_of_getElem? {α : Type} {change : α → α} {xs : List α} {position : Nat}
    (same : ∀ x, xs[position]? = some x → change x = x) : xs.modify position change = xs := by
  refine List.ext_getElem? fun place => ?_
  rw [List.getElem?_modify]
  by_cases here : position = place
  · subst here
    cases hx : xs[position]? with
    | none => rfl
    | some x => simp [same x hx]
  · simp [here]

/-- A change that leaves the link at a site as it is leaves the definition as it is. -/
theorem Definition.modifyLink_eq_self {change : TypeLink → TypeLink} {definition : Definition}
    {site : MemberSite} {link : TypeLink} (found : definition.link? site = some link)
    (same : change link = link) : definition.modifyLink change site = definition := by
  cases site with
  | field position =>
    rw [modifyLink, modify_eq_self_of_getElem?]
    intro field hfield
    obtain rfl : field.type = link := by simpa [link?, hfield] using found
    rw [same]
  | returnType position =>
    rw [modifyLink, modify_eq_self_of_getElem?]
    intro method hmethod
    obtain rfl : method.returnType = link := by simpa [link?, hmethod] using found
    rw [same]
  | parameter position place =>
    rw [modifyLink, modify_eq_self_of_getElem?]
    intro method hmethod
    rw [modify_eq_self_of_getElem?]
    intro parameter hparameter
    obtain rfl : parameter.type = link := by simpa [link?, hmethod, hparameter] using found
    rw [same]

/-! ### Entities -/

namespace TypeEntity

variable {entity : TypeEntity} {site : MemberSite} {link : TypeLink}

/-- An entity is kept if it is the same but for what its links remember, and each link is kept. -/
structure KeptBy (entity later : TypeEntity) : Prop where
  plain : later.forget = entity.forget
  links : ∀ ⦃site link⦄, entity.link? site = some link →
    ∃ link', later.link? site = some link' ∧ link.KeptBy link'

theorem KeptBy.refl (entity : TypeEntity) : entity.KeptBy entity :=
  ⟨rfl, fun _ link found => ⟨link, found, .refl link⟩⟩

theorem KeptBy.trans {middle later : TypeEntity} (h : entity.KeptBy middle)
    (h' : middle.KeptBy later) : entity.KeptBy later where
  plain := h'.plain.trans h.plain
  links _ _ found := by
    obtain ⟨link', hlink', hkept⟩ := h.links found
    obtain ⟨link'', hlink'', hkept'⟩ := h'.links hlink'
    exact ⟨link'', hlink'', hkept.trans hkept'⟩

/-- Remembering a type at a site keeps an entity. -/
theorem keptBy_memoize (entity : TypeEntity) (site : MemberSite) (target : TypeId) :
    entity.KeptBy (entity.memoize site target) where
  plain := entity.forget_memoize site target
  links site' link found := by
    obtain ⟨definition, hdefinition, hlink⟩ := Option.bind_eq_some_iff.mp found
    have hmemoize : (entity.memoize site target).link? site' =
        (definition.modifyLink (TypeLink.memoize target) site).link? site' := by
      rw [memoize, definition?_eq_some_iff.mp hdefinition]
      rfl
    rw [hmemoize]
    by_cases hsite : site = site'
    · rw [← hsite] at hlink ⊢
      exact ⟨link.memoize target, by rw [Definition.link?_modifyLink, hlink]; rfl,
        link.keptBy_memoize target⟩
    · exact ⟨link, (Definition.link?_modifyLink_of_ne hsite _ _).trans hlink, .refl link⟩

/-- An entity whose link remembers something already is left as it is. -/
theorem memoize_of_resolved {memory : TypeId} (found : entity.link? site = some link)
    (resolved : link.resolved = some memory) (target : TypeId) :
    entity.memoize site target = entity := by
  obtain ⟨definition, hdefinition, hlink⟩ := Option.bind_eq_some_iff.mp found
  obtain ⟨id, origin, attributes, flag, shape⟩ := entity
  obtain rfl := definition?_eq_some_iff.mp hdefinition
  refine congrArg (fun changed => TypeEntity.mk id origin attributes flag (.definition changed)) ?_
  exact Definition.modifyLink_eq_self hlink (TypeLink.memoize_of_resolved resolved target)

/-- A kept entity has the same link at a site where the link remembered something. -/
theorem KeptBy.link?_of_resolved {later : TypeEntity} {target : TypeId} (h : entity.KeptBy later)
    (found : entity.link? site = some link) (resolved : link.resolved = some target) :
    later.link? site = some link := by
  obtain ⟨⟨usage', resolved'⟩, hlink', hkept⟩ := h.links found
  obtain ⟨usage, _⟩ := link
  obtain rfl := resolved
  obtain rfl : usage' = usage := hkept.usage
  obtain rfl : resolved' = some target := hkept.resolved rfl
  exact hlink'

end TypeEntity

/-! ### Arenas -/

namespace Arena

variable {store : Store} {limit : Nat} {arena before after : Arena}

/-- An arena is kept if every entity in it can still be read and is kept, be it live or not. -/
def KeptBy (before after : Arena) : Prop :=
  ∀ ⦃id entity⦄, before.entity? id = some entity →
    ∃ later, after.entity? id = some later ∧ entity.KeptBy later

theorem KeptBy.trans {middle : Arena} (h : before.KeptBy middle) (h' : middle.KeptBy after) :
    before.KeptBy after := by
  intro id entity found
  obtain ⟨later, hlater, hkept⟩ := h found
  obtain ⟨latest, hlatest, hkept'⟩ := h' hlater
  exact ⟨latest, hlatest, hkept.trans hkept'⟩

/-- A handle whose entity can be read was issued. -/
theorem index_lt_of_entity? {id : TypeId} {entity : TypeEntity}
    (found : arena.entity? id = some entity) : id.index < arena.slots.size := by
  refine index_lt_of_slot? fun hnone => ?_
  rw [entity?, hnone] at found
  cases found

/-- An arena whose slots stay as they are is kept. -/
theorem KeptBy.of_slots
    (slots : ∀ id, id.index < before.slots.size → after.slot? id = before.slot? id) :
    before.KeptBy after := by
  intro id entity found
  have hslot := slots id (index_lt_of_entity? found)
  exact ⟨entity, by rw [entity?, hslot, ← entity?, found], .refl entity⟩

/-- **Every move keeps all entities.** A request fills slots that it has reserved itself, whether it
goes through or not, and remembering a type keeps the entity. -/
theorem Move.keptBy (h : Move store limit before after) (sound : before.Sound store limit) :
    before.KeptBy after := by
  cases h with
  | commit steps idle =>
    have hsince := (Transaction.Since.refl before).steps steps
    exact .of_slots fun id hid => hsince.slots hid
  | rollback steps => exact .of_slots fun id hid => (sound.restored steps).slots hid
  | @memoize id target site _ _ found linked leads =>
    intro id' entity found'
    rw [entity?_modify]
    split
    · next hid =>
      rw [← hid, found']
      exact ⟨_, rfl, entity.keptBy_memoize site target⟩
    · exact ⟨entity, found', .refl entity⟩

theorem Moves.keptBy (h : Moves store limit before after) (sound : before.Sound store limit) :
    before.KeptBy after := by
  induction h with
  | refl => exact fun _ entity found => ⟨entity, found, .refl entity⟩
  | tail moves move ih => exact ih.trans (move.keptBy (Moves.sound moves sound))

/-- Remembering a type at a link that remembers one already changes nothing. -/
theorem modify_memoize_of_resolved {id memory : TypeId} {entity : TypeEntity} {site : MemberSite}
    {link : TypeLink} (found : arena.entity? id = some entity)
    (linked : entity.link? site = some link) (resolved : link.resolved = some memory)
    (target : TypeId) : arena.modify (TypeEntity.memoize site target) id = arena := by
  have hslots : arena.slots.modify id.index (fun slot =>
      { slot with entity := slot.entity.map (TypeEntity.memoize site target) }) = arena.slots := by
    refine Array.ext_getElem? fun place => ?_
    rw [Array.getElem?_modify]
    split
    · next here =>
      obtain ⟨⟨key, content⟩, hslot, rfl⟩ := Option.bind_eq_some_iff.mp found
      rw [slot?, here] at hslot
      rw [hslot, Option.map_some, Option.map_some, TypeEntity.memoize_of_resolved linked resolved]
    · rfl
  rw [modify, hslots]

/-- What depicts a tree was read within the limit. -/
theorem Depicts.depth_le {tree : TypeTree} {entity : TypeEntity}
    (h : arena.Depicts store limit tree entity) : tree.depth ≤ limit := by
  cases h with
  | definition found portrays => exact Nat.zero_le limit
  | usage denotes shallow makes => exact shallow

end Arena

/-! ### Models -/

namespace TypeModel

variable {store : Store} {config : Config} {model : TypeModel} {link : TypeLink} {target : TypeId}

/-- A link remembers what a model would answer: the type is live, and both the link and its usage
are resolved to it, which changes neither the link nor the model. -/
structure Coherent (model : TypeModel) (link : TypeLink) (target : TypeId) : Prop where
  live : target ∈ model.all
  memory : model.resolveLink link = (.ok target, link, model)
  fresh : model.resolveUsageIndex link.usage = (.ok target, model)

/-- **A truthful link is coherent.** -/
theorem coherent_of_truthful (reachable : Reachable store config model)
    (truthful : link.Truthful store model.arena) (resolved : link.resolved = some target) :
    model.Coherent link target := by
  obtain ⟨tree, ⟨usage, husage, hdenotes⟩, hid⟩ := truthful resolved
  obtain ⟨_, -, -, -, hdepicts⟩ := reachable.honest.exists_of_idOf reachable.arenaSound hid
  -- a tree that is live was read within the limit, and so it is now
  have hread : (Query.usageIndex link.usage).readTree store config.maxDepth = .ok tree :=
    bind_eq_ok_iff.mpr ⟨usage, husage, Store.readTree_eq_ok_iff.mpr ⟨hdenotes, hdepicts.depth_le⟩⟩
  exact {
    live := (reachable.honest.mem_all_iff reachable.arenaSound).mpr ⟨tree, hid⟩
    memory := resolveLink_of_resolved resolved model
    fresh := reachable.resolve_of_idOf hread hid }

theorem moves_askEach (sound : model.Sound) (requests : List Request) :
    Arena.Moves model.store model.config.maxDepth model.arena
      (model.askEach requests).2.arena := by
  induction requests generalizing model with
  | nil => exact .refl
  | cons request rest ih =>
    obtain ⟨hstore, hconfig⟩ := sameImage_ask request model
    have hrest := ih (sound_ask sound request)
    rw [hstore, hconfig] at hrest
    exact (moves_ask sound request).trans hrest

/-- A history that a link is kept through leaves it as it is. -/
theorem Keeps.askEach (h : Keeps store config model link) (requests : List Request) :
    Keeps store config (model.askEach requests).2 link := by
  induction requests generalizing model with
  | nil => exact h
  | cons request rest ih => exact ih (h.ask request)

/-- What lasts over any further requests to a model. -/
structure Lasting (store : Store) (config : Config) (model : TypeModel) : Prop where
  /-- An entity that can be read, live or not, can be read ever after and is kept. -/
  entities : ∀ id entity requests, model.get id = .ok entity →
    ∃ later, (model.askEach requests).2.get id = .ok later ∧ entity.KeptBy later
  /-- A request that fails makes no link of an entity remember anything. -/
  failed : ∀ request fault, (model.ask request).1 = .error fault →
    ∀ id entity, model.get id = .ok entity → (model.ask request).2.get id = .ok entity
  /-- Nor does it make the link remember anything that it was asked for. -/
  unset : ∀ link fault, (model.resolveLink link).1 = .error fault →
    (model.resolveLink link).2.1 = link
  /-- What a link remembers is right, if only this model resolved it. -/
  links : ∀ link target requests, Keeps store config model link → link.resolved = some target →
    (model.askEach requests).2.Coherent link target
  /-- What the link at a member remembers is remembered there ever after, and is right. -/
  members : ∀ id site link target requests, model.memberLink id site = .ok (some link) →
    link.resolved = some target →
      (model.askEach requests).2.memberLink id site = .ok (some link) ∧
      (model.askEach requests).2.Coherent link target ∧
      (model.askEach requests).2.resolveMember id site =
        (.ok (some target), (model.askEach requests).2)

/-- A link at a member that remembers something answers with it, and nothing changes. -/
theorem resolveMember_of_resolved {id : TypeId} {site : MemberSite}
    (linked : model.memberLink id site = .ok (some link)) (resolved : link.resolved = some target) :
    model.resolveMember id site = (.ok (some target), model) := by
  obtain ⟨entity, hentity, hlink⟩ := bind_eq_ok_iff.mp linked
  have hsame := Arena.modify_memoize_of_resolved (Arena.get_eq_ok_iff.mp hentity)
    (Except.ok.inj hlink) resolved target
  simp only [resolveMember, linked, resolveLink_of_resolved resolved, hsame]

/-- **Entities last, and so does what links remember.** In every reachable model, an entity that can
be read is only ever changed in that its links come to remember something, once each and never by a
request that fails; and what a link remembers stays the answer that a fresh request would give. -/
theorem Reachable.lasting (reachable : Reachable store config model) :
    model.Lasting store config where
  entities id entity requests found := by
    have hkept := (moves_askEach reachable.sound requests).keptBy reachable.sound
    obtain ⟨later, hlater, hentity⟩ := hkept (Arena.get_eq_ok_iff.mp found)
    exact ⟨later, Arena.get_eq_ok_iff.mpr hlater, hentity⟩
  failed request fault failed id entity found := by
    have hrestored := restored_of_ask_eq_error reachable.sound failed
    have hid := Arena.index_lt_of_entity? (Arena.get_eq_ok_iff.mp found)
    exact (hrestored.get_eq hid).trans found
  unset link fault failed := link_of_resolveLink_eq_error failed
  links link target requests kept resolved :=
    coherent_of_truthful (reachable_askEach reachable requests) (kept.askEach requests).truthful
      resolved
  members id site link target requests linked resolved := by
    have hreachable := reachable_askEach reachable requests
    obtain ⟨entity, hentity, hlink⟩ := bind_eq_ok_iff.mp linked
    have hkept := (moves_askEach reachable.sound requests).keptBy reachable.sound
    obtain ⟨later, hlater, hentity⟩ := hkept (Arena.get_eq_ok_iff.mp hentity)
    have hlinked : (model.askEach requests).2.memberLink id site = .ok (some link) :=
      bind_eq_ok_iff.mpr ⟨later, Arena.get_eq_ok_iff.mpr hlater,
        congrArg Except.ok (hentity.link?_of_resolved (Except.ok.inj hlink) resolved)⟩
    exact ⟨hlinked,
      coherent_of_truthful hreachable (hreachable.truthful_memberLink hlinked) resolved,
      resolveMember_of_resolved hlinked resolved⟩

end TypeModel

/-! ### An image in which a definition lingers -/

/-- An image whose second definition has a field and derives from a vector of the third, which has
no name. The type of the field is the first definition. -/
def Store.lingering : Store where
  definitions := #[{}, { parent := some ⟨0⟩, fieldCount := 1 }, { name := ⟨9⟩ }]
  usages := #[⟨1⟩, ⟨3⟩]
  fields := #[{ type := ⟨1⟩ }]
  mapped := Std.HashMap.emptyWithCapacity
    |>.insert ⟨1⟩ (.usage (.vector ⟨2⟩)) |>.insert ⟨2⟩ (.usage (.definition ⟨2⟩))
    |>.insert ⟨3⟩ (.usage (.definition ⟨0⟩))

/-- A definition is withdrawn after it was filled, and its field can still be asked for. What the
link remembers stays right when the definition is made again, and withdrawn again. -/
theorem TypeModel.lasting_lingering :
    ((TypeModel.new .lingering .standard).askEach
        [.definition ⟨1⟩, .member ⟨0⟩ (.field 0)]).1 =
        [.error (.indexOutOfRange .string 9 1), .ok (some ⟨3⟩)] ∧
      ((TypeModel.new .lingering .standard).askEach
        [.definition ⟨1⟩, .member ⟨0⟩ (.field 0)]).2.all = [⟨3⟩] ∧
      (((TypeModel.new .lingering .standard).askEach
        [.definition ⟨1⟩, .member ⟨0⟩ (.field 0)]).2.askEach [.definition ⟨1⟩]).2.memberLink
          ⟨0⟩ (.field 0) = .ok (some ⟨⟨1⟩, some ⟨3⟩⟩) ∧
      (((TypeModel.new .lingering .standard).askEach
        [.definition ⟨1⟩, .member ⟨0⟩ (.field 0)]).2.askEach [.definition ⟨1⟩]).2.Coherent
          ⟨⟨1⟩, some ⟨3⟩⟩ ⟨3⟩ := by
  have hlinked : ((TypeModel.new .lingering .standard).askEach
      [.definition ⟨1⟩, .member ⟨0⟩ (.field 0)]).2.memberLink ⟨0⟩ (.field 0) =
        .ok (some ⟨⟨1⟩, some ⟨3⟩⟩) := by cbv
  obtain ⟨hlater, hcoherent, -⟩ :=
    (Reachable.lasting (reachable_askEach .new
      [.definition ⟨1⟩, .member ⟨0⟩ (.field 0)])).members _ _ _ _ [.definition ⟨1⟩] hlinked rfl
  exact ⟨by cbv, by cbv, hlater, hcoherent⟩

end TypeGraph
