import Mathlib
import TypeGraph.Proofs.Growth
import TypeGraph.Proofs.KeyIndex
import TypeGraph.Proofs.Links

/-!
# What a request makes live

A request that goes well makes its own tree live and whatever that tree needs: the parts of a
composite, and what a definition derives from. It makes nothing else live. In particular the types
of fields, parameters and results stay out, unless something needs them for another reason.

That nothing is missing is soundness: between requests nothing waits, so whatever is live has all
that it needs. That nothing is in excess is growth: what is new is reached from the answer. Both are
said of handles first, and `Arena.Honest` turns handles into trees.

## Main definitions

* `Store.Needs`, `Store.Involves` — what a tree needs, directly or indirectly
* `Arena.Adds` — an arena has gained a tree, what it involves, and nothing else
* `TypeModel.AsksFor` — the tree that a request asks for
* `TypeModel.MakesLive` — what a request has made live

## Main results

* `Arena.isSome_idOf_of_needs` — what a live tree needs is live
* `Arena.exists_needs_of_leads` — what a handle leads to is needed by its tree
* `TypeModel.live_ask` — the trees that are live after a request
-/

namespace TypeGraph

/-! ### What trees need -/

/-- A tree needs its parts, and a definition needs the tree of the usage that it derives from. -/
inductive Store.Needs (store : Store) : TypeTree → TypeTree → Prop where
  | part {tree part : TypeTree} (mem : part ∈ tree.parts) : Needs store tree part
  | parent {index : DefinitionIndex} {row : TypeDefinition} {parent : UsageIndex}
      {usage : TypeUsage} {tree : TypeTree} (found : store.definition index = .ok row)
      (derives : row.parent = some parent) (read : store.usage parent = .ok usage)
      (denotes : Denotes store usage tree) : Needs store (.definition index) tree

/-- A tree involves itself, what it needs, and whatever that involves. -/
abbrev Store.Involves (store : Store) : TypeTree → TypeTree → Prop :=
  Relation.ReflTransGen store.Needs

namespace Arena

variable {store : Store} {limit : Nat} {arena : Arena} {tree other : TypeTree} {id : TypeId}

/-- **What a live tree needs is live.** -/
theorem isSome_idOf_of_needs (sound : arena.Sound store limit) (live : (arena.idOf tree).isSome)
    (needs : store.Needs tree other) : (arena.idOf other).isSome := by
  obtain ⟨id, hid⟩ := Option.isSome_iff_exists.mp live
  cases needs with
  | part mem =>
    obtain ⟨key, hkey, -⟩ := idOf_eq_some_iff.mp hid
    exact isSome_idsOf.mp (Option.isSome_of_mem (idsOf_parts hkey)) other mem
  | parent found derives read denotes =>
    rw [idOf] at hid
    have hfilled := Option.isSome_iff_ne_none.mp (sound.isSome_entity? hid)
    obtain ⟨parent, hread, hparent⟩ := Transaction.Sound.settled sound hid hfilled
    obtain ⟨row, hrow, -, -, hreadParent, -⟩ := Store.readDefinition_eq_ok_iff.mp hread
    obtain rfl := Except.ok.inj (found.symm.trans hrow)
    -- the parent that was read is the one that the usage denotes
    rw [Store.readParent_eq_ok_iff, derives] at hreadParent
    cases parent with
    | none => cases hreadParent
    | some parent =>
      obtain ⟨usage, husage, hdenotes, -⟩ := hreadParent
      obtain rfl := Except.ok.inj (read.symm.trans husage)
      rw [denotes.unique hdenotes]
      exact hparent parent rfl

theorem isSome_idOf_of_involves (sound : arena.Sound store limit)
    (live : (arena.idOf tree).isSome) (involves : store.Involves tree other) :
    (arena.idOf other).isSome := by
  induction involves with
  | refl => exact live
  | tail _ needs ih => exact isSome_idOf_of_needs sound ih needs

/-- What the entity of a definition derives from is needed by the definition. -/
theorem Depicts.exists_needs_of_base {entity : TypeEntity} {definition : Definition}
    {base : TypeId} (h : arena.Depicts store limit tree entity.forget)
    (declares : entity.definition? = some definition) (derives : definition.base = some base) :
    ∃ other, store.Needs tree other ∧ arena.idOf other = some base := by
  obtain ⟨waiting, rfl, -, hfound, hportrays⟩ := h.exists_portrays declares
  obtain ⟨hnone, hbase⟩ := hportrays.exists_base
  rw [definition.base_forget, derives] at hnone hbase
  cases hparent : waiting.row.parent with
  | none => cases hnone.mpr hparent
  | some parent =>
    obtain ⟨base', other, hsame, hread, hid⟩ := hbase parent hparent
    obtain rfl := Option.some.inj hsame
    obtain ⟨usage, husage, hdenotes⟩ := Query.denotes_of_readTree hread
    exact ⟨other, .parent hfound hparent husage hdenotes, hid⟩

/-- **What a handle leads to is needed by its tree.** -/
theorem exists_needs_of_leads (honest : arena.Honest store limit)
    (sound : arena.Sound store limit) (found : arena.idOf tree = some id) {id' : TypeId}
    (leads : arena.Leads id id') :
    ∃ other, store.Needs tree other ∧ arena.idOf other = some id' := by
  cases leads with
  | @operand key _ _ keyed mem =>
    obtain ⟨key', hkey, hid⟩ := idOf_eq_some_iff.mp found
    obtain rfl := Transaction.Sound.keysDistinct sound hid keyed
    obtain ⟨part, hpart, hid⟩ := exists_mem_of_idsOf (idsOf_parts hkey) mem
    exact ⟨part, .part hpart, hid⟩
  | base hentity declares derives =>
    obtain ⟨entity, hentity', -, -, hdepicts⟩ := honest.exists_of_idOf sound found
    obtain rfl := Option.some.inj (hentity'.symm.trans hentity)
    exact hdepicts.exists_needs_of_base declares derives

theorem exists_involves_of_reaches (honest : arena.Honest store limit)
    (sound : arena.Sound store limit) (found : arena.idOf tree = some id) {id' : TypeId}
    (reaches : arena.Reaches id id') :
    ∃ other, store.Involves tree other ∧ arena.idOf other = some id' := by
  induction reaches with
  | refl => exact ⟨tree, .refl, found⟩
  | tail _ leads ih =>
    obtain ⟨middle, hinvolves, hmiddle⟩ := ih
    obtain ⟨other, hneeds, hother⟩ := exists_needs_of_leads honest sound hmiddle leads
    exact ⟨other, hinvolves.tail hneeds, hother⟩

end Arena

/-! ### What requests add -/

namespace Arena

/-- One arena adds to another the tree of a handle and what the tree involves, and nothing else. -/
structure Adds (store : Store) (tree : TypeTree) (id : TypeId) (before after : Arena) : Prop where
  found : after.idOf tree = some id
  isSome_iff (other : TypeTree) :
    (after.idOf other).isSome ↔ (before.idOf other).isSome ∨ store.Involves tree other

variable {store : Store} {limit : Nat} {before after : Arena} {tree : TypeTree} {id : TypeId}

/-- Asking for a type that is live adds nothing, since all that it needs is live as well. -/
theorem Adds.of_idOf (sound : before.Sound store limit) (found : before.idOf tree = some id) :
    Adds store tree id before before where
  found := found
  isSome_iff other := by
    have hlive : (before.idOf tree).isSome := Option.isSome_of_mem found
    refine ⟨.inl, ?_⟩
    rintro (hold | hinvolves)
    · exact hold
    · exact isSome_idOf_of_involves sound hlive hinvolves

/-- A change that leaves all keys where they lead changes nothing about what was added. -/
theorem Adds.of_keys {last : Arena} (h : Adds store tree id before after)
    (keys : ∀ key, last.reserved? key = after.reserved? key) : Adds store tree id before last where
  found := Remembers.idOf (.of_eq keys) h.found
  isSome_iff other := by
    rw [← h.isSome_iff other]
    exact ⟨Remembers.isSome_idOf (.of_eq fun key => (keys key).symm),
      Remembers.isSome_idOf (.of_eq keys)⟩

end Arena

namespace TypeModel

variable {store : Store} {config : Config} {model : TypeModel} {id : TypeId}

/-- What is live between requests is the handle of a tree, and the tree is read back from it. -/
theorem Reachable.holds_iff (h : Reachable store config model) {tree : TypeTree} :
    model.arena.Holds id tree ↔ model.arena.idOf tree = some id :=
  h.honest.holds_iff h.arenaSound

theorem Reachable.mem_all_iff (h : Reachable store config model) :
    id ∈ model.all ↔ ∃ tree, model.arena.Holds id tree := by
  simp only [h.holds_iff]
  exact h.honest.mem_all_iff h.arenaSound

/-- **A question adds the tree that it asks for and what the tree involves.** -/
theorem Reachable.adds_resolve (h : Reachable store config model) {query : Query}
    (answered : (query.resolve model).1 = .ok id) :
    ∃ tree, query.Denotes store tree ∧
      model.arena.Adds store tree id (query.resolve model).2.arena := by
  obtain ⟨tree, reached, hread, hsteps, hidle, hid, hafter⟩ :=
    exists_of_resolve_eq_ok h.sound answered
  have hdenotes := Query.denotes_of_readTree hread
  rw [← hafter] at hid
  rw [h.sameImage.1] at hdenotes
  have hgrows {key : TypeKey} {other : TypeId} :
      (query.resolve model).2.arena.reserved? key = some other →
        model.arena.reserved? key = some other ∨
          (query.resolve model).2.arena.Reaches id other := reaches_of_resolve h.sound answered
  have hremembers := (move_resolve h.sound query).remembers h.sound
  have hreachable := h.resolve query
  have hsound := h.arenaSound
  have hsound' := hreachable.arenaSound
  refine ⟨tree, hdenotes, hid, fun other => ⟨fun hother => ?_, ?_⟩⟩
  · -- a key is old, and stands for the tree that it stood for, or is reached from the answer
    obtain ⟨id', hid'⟩ := Option.isSome_iff_exists.mp hother
    obtain ⟨key, -, hkey⟩ := Arena.idOf_eq_some_iff.mp hid'
    have hdistinct := Transaction.Sound.keysDistinct hsound'
    rcases hgrows hkey with hold | hreaches
    · obtain ⟨tree', -, htree'⟩ := h.honest.exists_keyOf hsound hold
      obtain rfl := Arena.tree_eq_of_idOf hdistinct (hremembers.idOf htree') hid'
      exact .inl (Option.isSome_of_mem htree')
    · obtain ⟨tree', hinvolves, htree'⟩ :=
        Arena.exists_involves_of_reaches hreachable.honest hsound' hid hreaches
      obtain rfl := Arena.tree_eq_of_idOf hdistinct htree' hid'
      exact .inr hinvolves
  · rintro (hold | hinvolves)
    · exact hremembers.isSome_idOf hold
    · exact Arena.isSome_idOf_of_involves hsound' (Option.isSome_of_mem hid) hinvolves

/-- A truthful link adds what its usage denotes, unless it remembers it. -/
theorem Reachable.adds_resolveLink (h : Reachable store config model) {link : TypeLink}
    (truthful : link.Truthful store model.arena)
    (answered : (model.resolveLink link).1 = .ok id) :
    ∃ tree, (Query.usageIndex link.usage).Denotes store tree ∧
      model.arena.Adds store tree id (model.resolveLink link).2.2.arena := by
  cases hlink : link.resolved with
  | some target =>
    rw [resolveLink_of_resolved hlink] at answered ⊢
    obtain rfl := Except.ok.inj answered
    obtain ⟨tree, hdenotes, hid⟩ := truthful hlink
    exact ⟨tree, hdenotes, .of_idOf h.arenaSound hid⟩
  | none =>
    rw [answer_resolveLink hlink] at answered
    rw [model_resolveLink hlink]
    exact h.adds_resolve answered

/-- A member that is resolved has a link. -/
theorem exists_of_resolveMember_eq_ok {site : MemberSite} {target : TypeId}
    (answered : (model.resolveMember id site).1 = .ok (some target)) :
    ∃ link, model.memberLink id site = .ok (some link) ∧
      (model.resolveLink link).1 = .ok target ∧
      ∀ key, (model.resolveMember id site).2.arena.reserved? key =
        (model.resolveLink link).2.2.arena.reserved? key := by
  rw [resolveMember] at answered ⊢
  cases hlink : model.memberLink id site with
  | error fault => rw [hlink] at answered; cases answered
  | ok found =>
    cases found with
    | none => rw [hlink] at answered; cases answered
    | some link =>
      rcases hresolve : model.resolveLink link with ⟨answer, link', after⟩
      simp only [hlink, hresolve] at answered ⊢
      cases answer with
      | error fault => cases answered
      | ok target' =>
        obtain rfl := Option.some.inj (Except.ok.inj answered)
        exact ⟨link, rfl, by rw [hresolve], fun key => by rw [hresolve]; rfl⟩

/-- The question that a request comes down to. A link asks for the row of its usage, be it held
outside or found at a member. -/
def query? (model : TypeModel) : Request → Option Query
  | .definition index => some (.definition index)
  | .usage found => some (.usage found)
  | .usageIndex index => some (.usageIndex index)
  | .link link => some (.usageIndex link.usage)
  | .member id site =>
    match model.memberLink id site with
    | .ok (some link) => some (.usageIndex link.usage)
    | _ => none

/-- The tree that a request asks for. -/
def AsksFor (model : TypeModel) (request : Request) (tree : TypeTree) : Prop :=
  ∃ query, model.query? request = some query ∧ query.Denotes model.store tree

/-- A request asks for at most one tree. -/
theorem AsksFor.unique {request : Request} {tree tree' : TypeTree}
    (h : model.AsksFor request tree) (h' : model.AsksFor request tree') : tree = tree' := by
  obtain ⟨query, hquery, hdenotes⟩ := h
  obtain ⟨query', hquery', hdenotes'⟩ := h'
  obtain rfl := Option.some.inj (hquery.symm.trans hquery')
  exact hdenotes.unique hdenotes'

/-- **A request that goes well adds the tree that it asks for and what the tree involves.** -/
theorem Reachable.adds_ask (h : Reachable store config model) {request : Request}
    (own : ∀ link, request = .link link → Keeps store config model link)
    (answered : (model.ask request).1 = .ok (some id)) :
    ∃ tree, model.AsksFor request tree ∧
      model.arena.Adds store tree id (model.ask request).2.arena := by
  have hquery (query : Query) (asks : model.query? query.request = some query)
      (answered : (model.ask query.request).1 = .ok (some id)) :
      ∃ tree, model.AsksFor query.request tree ∧
        model.arena.Adds store tree id (model.ask query.request).2.arena := by
    rw [ask_request] at answered ⊢
    obtain ⟨id', hanswer, hsame⟩ := map_eq_ok_iff.mp answered
    obtain ⟨tree, hdenotes, hadds⟩ := h.adds_resolve (Option.some.inj hsame ▸ hanswer)
    exact ⟨tree, ⟨query, asks, h.sameImage.1 ▸ hdenotes⟩, hadds⟩
  cases request with
  | definition index => exact hquery (.definition index) rfl answered
  | usage found => exact hquery (.usage found) rfl answered
  | usageIndex index => exact hquery (.usageIndex index) rfl answered
  | link link =>
    rw [ask_link] at answered ⊢
    obtain ⟨id', hanswer, hsame⟩ := map_eq_ok_iff.mp answered
    obtain ⟨tree, hdenotes, hadds⟩ :=
      h.adds_resolveLink (own link rfl).truthful (Option.some.inj hsame ▸ hanswer)
    exact ⟨tree, ⟨_, rfl, h.sameImage.1 ▸ hdenotes⟩, hadds⟩
  | member holder site =>
    obtain ⟨link, hfound, hanswer, hkeys⟩ := exists_of_resolveMember_eq_ok answered
    obtain ⟨tree, hdenotes, hadds⟩ := h.adds_resolveLink (h.truthful_memberLink hfound) hanswer
    refine ⟨tree, ⟨.usageIndex link.usage, ?_, h.sameImage.1 ▸ hdenotes⟩, hadds.of_keys hkeys⟩
    rw [query?, hfound]

/-! ### The live trees -/

/-- One model has more live types than another by a tree and what it involves. Live types are told
apart by their trees. -/
structure MakesLive (store : Store) (tree : TypeTree) (id : TypeId) (before after : TypeModel) :
    Prop where
  /-- The handle is live and stands for the tree. -/
  holds : after.arena.Holds id tree
  /-- A tree is live afterwards if it was live before, or if the tree involves it. -/
  live_iff (other : TypeTree) : (∃ id', after.arena.Holds id' other) ↔
    (∃ id', before.arena.Holds id' other) ∨ store.Involves tree other
  /-- Whatever is live stands for a tree, and is filled. -/
  exists_tree {id' : TypeId} : id' ∈ after.all →
    ∃ other entity, after.arena.Holds id' other ∧ after.get id' = .ok entity
  /-- No tree is live twice. -/
  unique {other : TypeTree} {id' id'' : TypeId} :
    after.arena.Holds id' other → after.arena.Holds id'' other → id' = id''

/-- **The live trees after a request.** A request that goes well makes the tree live that it asks
for, with all that the tree involves, and nothing else. -/
theorem live_ask (reachable : Reachable store config model) {request : Request}
    (own : ∀ link, request = .link link → Keeps store config model link)
    (answered : (model.ask request).1 = .ok (some id)) :
    ∃ tree, (∀ other, model.AsksFor request other ↔ other = tree) ∧
      MakesLive store tree id model (model.ask request).2 := by
  obtain ⟨tree, hasks, hadds⟩ := reachable.adds_ask own answered
  have hreachable := reachable.ask request
  refine ⟨tree, fun other => ⟨fun h => h.unique hasks, fun h => h ▸ hasks⟩, ?_⟩
  constructor
  case holds => exact hreachable.holds_iff.mpr hadds.found
  case live_iff =>
    intro other
    simp only [reachable.holds_iff, hreachable.holds_iff, ← Option.isSome_iff_exists]
    exact hadds.isSome_iff other
  case exists_tree =>
    intro id' hlive
    obtain ⟨other, hother⟩ := hreachable.mem_all_iff.mp hlive
    obtain ⟨entity, hentity⟩ := Arena.exists_entity_of_mem_all hlive
    exact ⟨other, entity, hother, Arena.get_eq_ok_iff.mpr hentity⟩
  case unique =>
    intro other id' id'' hid hid'
    exact Option.some.inj ((hreachable.holds_iff.mp hid).symm.trans (hreachable.holds_iff.mp hid'))

end TypeModel

/-- In an image whose types are tangled, a definition involves an instantiation over itself, the
vector that occurs in it, and the generic definition. A request for it has failed before, and left
six slots. -/
theorem TypeModel.live_ask_tangle :
    (((TypeModel.new .tangle .standard).askEach [.definition ⟨2⟩]).2.ask (.definition ⟨0⟩)).1 =
        .ok (some ⟨6⟩) ∧
      ∃ tree, (∀ other, ((TypeModel.new .tangle .standard).askEach [.definition ⟨2⟩]).2.AsksFor
          (.definition ⟨0⟩) other ↔ other = tree) ∧
        MakesLive .tangle tree ⟨6⟩ ((TypeModel.new .tangle .standard).askEach [.definition ⟨2⟩]).2
          (((TypeModel.new .tangle .standard).askEach [.definition ⟨2⟩]).2.ask
            (.definition ⟨0⟩)).2 := by
  have hanswer : (((TypeModel.new .tangle .standard).askEach [.definition ⟨2⟩]).2.ask
      (.definition ⟨0⟩)).1 = .ok (some ⟨6⟩) := by
    cbv
  refine ⟨hanswer, live_ask (reachable_askEach .new _) (fun link same => ?_) hanswer⟩
  cases same

end TypeGraph
