import Mathlib
import TypeGraph.Proofs.LiveSet

/-!
# Asking again

A composite is not remembered by its record: each time it is asked for, its usage is walked again
from the top. Still, asking for a type that is resolved costs nothing. What its tree names is known,
so nothing is left to settle and the question is answered; the answer is the handle that the tree
has; and no key is gained, since whatever the tree involves has its key already. A request in which
nothing waits and no key is gained takes no step at all, so that not even a slot is used up.

## Main results

* `Transaction.Steps.eq_of_keys` — a request that gains no key takes no step
* `TypeModel.Reachable.resolve_of_idOf` — a question for a tree that has a handle is answered with
  it, and changes nothing
* `TypeModel.resolve_again` — a question that was answered once is answered so for ever, for nothing
-/

namespace TypeGraph

/-! ### Requests that gain no key -/

namespace Transaction

variable {store : Store} {limit : Nat} {arena : Arena} {before after : Transaction}

/-- Where nothing waits to be filled, every step gains a key. -/
theorem Step.exists_gained (h : Step store limit before after) (idle : before.pending = []) :
    ∃ key id, before.arena.reserved? key = none ∧ after.arena.reserved? key = some id := by
  cases h with
  | @reserve index row id arena pending free found reserved queued =>
    have hgained := Arena.reserved?_reserve before.arena (.definition index) (.definition index)
    rw [reserved, if_pos rfl] at hgained
    exact ⟨_, id, free, hgained⟩
  | @make usage tree attributes flag shape id arena filled denotes shallow makes free reserved
      fills =>
    have hgained := Arena.reserved?_reserve before.arena shape.key shape.key
    rw [reserved, if_pos rfl, ← Arena.reserved?_fill fills] at hgained
    exact ⟨_, id, free, hgained⟩
  | fill queued portrays fills =>
    rw [idle] at queued
    cases queued.symm.eq_nil

/-- **A request that gains no key takes no step.** -/
theorem Steps.eq_of_keys (h : Steps store limit { arena } after)
    (keys : ∀ key, after.arena.reserved? key = arena.reserved? key) : after = { arena } := by
  rcases h.cases_head with same | ⟨middle, step, rest⟩
  · exact same.symm
  · obtain ⟨key, id, hfree, hgained⟩ := step.exists_gained rfl
    have hkept : after.arena.reserved? key = some id := Steps.remembers rest hgained
    rw [keys, hfree] at hkept
    cases hkept

end Transaction

/-! ### Trees that have handles -/

namespace Arena

variable {store : Store} {limit : Nat} {before after : Arena} {tree : TypeTree} {id : TypeId}

/-- Two sound arenas in which the same trees have handles have the same keys, if the one remembers
those of the other. -/
theorem reserved?_eq_of_isSome_idOf (sound : after.Sound store limit)
    (honest : after.Honest store limit) (remembers : before.Remembers after)
    (trees : ∀ tree, (after.idOf tree).isSome → (before.idOf tree).isSome) (key : TypeKey) :
    after.reserved? key = before.reserved? key := by
  cases hafter : after.reserved? key with
  | none =>
    cases hbefore : before.reserved? key with
    | none => rfl
    | some id =>
      rw [remembers hbefore] at hafter
      cases hafter
  | some id =>
    -- the key is that of a tree, which had a handle before, and so this one
    obtain ⟨tree, -, hid⟩ := honest.exists_keyOf sound hafter
    obtain ⟨id', hid'⟩ := Option.isSome_iff_exists.mp (trees tree (Option.isSome_of_mem hid))
    obtain rfl := Option.some.inj ((remembers.idOf hid').symm.trans hid)
    obtain ⟨key', -, hkey'⟩ := idOf_eq_some_iff.mp hid'
    obtain rfl := Transaction.Sound.keysDistinct sound hafter (remembers hkey')
    exact hkey'.symm

/-- Nothing is left to settle of a tree that has a handle. -/
theorem ends_of_isSome_idOf (found : (before.idOf tree).isSome) :
    Ends store limit before.knows (.ok tree) (.ok tree) := by
  have hmet : Agenda.meetAll ⟨before.knows, []⟩ tree.definitions = ⟨before.knows, []⟩ :=
    Agenda.meetAll_of_met fun _ mem => knows_of_idOf found mem
  have hsettles : Settles store limit (Agenda.meetAll ⟨before.knows, []⟩ tree.definitions)
      (.ok ()) := by
    rw [hmet]
    exact .done
  exact .goesOn hsettles

end Arena

namespace TypeModel

variable {store : Store} {config : Config} {model : TypeModel} {query : Query} {tree : TypeTree}
  {id : TypeId}

/-- A question for a tree that has a handle is answered with it. -/
theorem Reachable.answer_of_idOf (h : Reachable store config model)
    (read : query.readTree store config.maxDepth = .ok tree)
    (found : model.arena.idOf tree = some id) : (query.resolve model).1 = .ok id := by
  obtain ⟨rfl, rfl⟩ : model.store = store ∧ model.config = config := h.sameImage
  obtain ⟨result, hends, hanswers⟩ := exists_answers h.sound query
  rw [read] at hends
  obtain rfl := hends.unique (Arena.ends_of_isSome_idOf (Option.isSome_of_mem found))
  obtain ⟨id', hanswer⟩ := exists_ok_of_outcome hanswers.outcome_eq.symm ⟨tree, rfl⟩
  obtain ⟨tree', after, hread', hsteps, -, hid', -⟩ := exists_of_resolve_eq_ok h.sound hanswer
  rw [read] at hread'
  obtain rfl := Except.ok.inj hread'
  obtain rfl := Option.some.inj ((hsteps.remembers.idOf found).symm.trans hid')
  exact hanswer

/-- **A question for a tree that has a handle is answered with it, and changes nothing.** -/
theorem Reachable.resolve_of_idOf (h : Reachable store config model)
    (read : query.readTree store config.maxDepth = .ok tree)
    (found : model.arena.idOf tree = some id) : query.resolve model = (.ok id, model) := by
  have hanswer := h.answer_of_idOf read found
  have hreachable := h.resolve query
  obtain ⟨tree', hdenotes, hadds⟩ := h.adds_resolve hanswer
  obtain rfl := hdenotes.unique (Query.denotes_of_readTree read)
  have hkeys (key : TypeKey) :
      (query.resolve model).2.arena.reserved? key = model.arena.reserved? key := by
    refine Arena.reserved?_eq_of_isSome_idOf hreachable.arenaSound hreachable.honest
      ((move_resolve h.sound query).remembers h.sound) (fun other hother => ?_) key
    rcases (hadds.isSome_iff other).mp hother with hold | hinvolves
    · exact hold
    · exact Arena.isSome_idOf_of_involves h.arenaSound (Option.isSome_of_mem found) hinvolves
  obtain ⟨-, after, -, hsteps, -, -, hafter⟩ := exists_of_resolve_eq_ok h.sound hanswer
  rw [hafter] at hkeys
  rw [hsteps.eq_of_keys hkeys] at hafter
  rw [resolve_eq, hanswer, hafter]

/-! ### Asking again -/

/-- **A question that was answered once is answered so for ever, for nothing.** Whatever a model is
asked in between, and whether that succeeds or fails, asking again gives the same handle and leaves
the model as it is. -/
theorem resolve_again (reachable : Reachable store config model)
    (answered : (query.resolve model).1 = .ok id) (requests : List Request) :
    query.resolve ((query.resolve model).2.askEach requests).2 =
      (.ok id, ((query.resolve model).2.askEach requests).2) := by
  obtain ⟨rfl, rfl⟩ : model.store = store ∧ model.config = config := reachable.sameImage
  have hreachable := reachable.resolve query
  obtain ⟨tree, after, hread, -, -, hid, hafter⟩ := exists_of_resolve_eq_ok reachable.sound answered
  rw [← hafter] at hid
  have hlater := (remembers_askEach hreachable.sound requests).idOf hid
  exact (reachable_askEach hreachable requests).resolve_of_idOf hread hlater

end TypeModel

/-- In an image whose types are tangled, an instantiation is asked for by its row. The request that
failed before, and the one that fails in between, use up handles; asking again does not. -/
theorem TypeModel.resolve_again_tangle :
    ((Query.usageIndex ⟨0⟩).resolve
        ((TypeModel.new .tangle .standard).askEach [.definition ⟨2⟩]).2).1 = .ok ⟨9⟩ ∧
      (Query.usageIndex ⟨0⟩).resolve (((Query.usageIndex ⟨0⟩).resolve
          ((TypeModel.new .tangle .standard).askEach [.definition ⟨2⟩]).2).2.askEach
            [.definition ⟨2⟩, .usage (.vector ⟨9⟩)]).2 =
        (.ok ⟨9⟩, (((Query.usageIndex ⟨0⟩).resolve
          ((TypeModel.new .tangle .standard).askEach [.definition ⟨2⟩]).2).2.askEach
            [.definition ⟨2⟩, .usage (.vector ⟨9⟩)]).2) := by
  have hanswer : ((Query.usageIndex ⟨0⟩).resolve
      ((TypeModel.new .tangle .standard).askEach [.definition ⟨2⟩]).2).1 = .ok ⟨9⟩ := by
    cbv
  exact ⟨hanswer, resolve_again (reachable_askEach .new _) hanswer _⟩

end TypeGraph
