import Mathlib
import TypeGraph.Proofs.KeyIndex

/-!
# The index of full names

Definitions of different namespaces may share a full name, since a namespace may contain dots and so
may a name. The index leads to the one that was filled first, and the others leave it alone. A
request that is rolled back withdraws its own entries, and that might leave a name without an entry
although another definition has it.

It does not. A definition that is filled finds the name entered or enters it, so at every moment of
a request every filled definition has an entry for its name. Rolling back restores the entries that
there were when the request began, and with them the agreement that held then.

## Main definitions

* `Arena.NamesEntered` — every filled definition has an entry for its full name
* `TypeModel.NamesAgree` — the index of full names agrees with the live definitions, now and later

## Main results

* `Arena.NamesEntered.step`, `Arena.NamesEntered.move` — requests keep every name entered
* `Arena.Moves.find?` — an entry stays where it leads
* `TypeModel.Reachable.namesAgree` — the index of every reachable model agrees
-/

namespace TypeGraph

/-! ### Names of filled definitions -/

namespace Arena

/-- Every filled definition that a key leads to has an entry for its full name, which may be that of
another definition. -/
def NamesEntered (arena : Arena) : Prop :=
  ∀ ⦃key id entity name⦄, arena.reserved? key = some id → arena.entity? id = some entity →
    entity.declaredName? = some name → arena.find? name ≠ none

variable {store : Store} {limit : Nat} {arena filled start after : Arena}

theorem NamesEntered.empty : NamesEntered .empty := by
  intro key id entity name hid
  simp [Arena.empty, reserved?] at hid

/-- A slot that was only reserved has no name yet. -/
theorem NamesEntered.reserve (entered : arena.NamesEntered) (key : TypeKey) :
    (arena.reserve key).2.NamesEntered := by
  intro key' id entity name hid hentity hname
  rw [entity?_reserve] at hentity
  rcases reserved?_reserve_cases hid with ⟨-, rfl⟩ | hid
  · rw [entity?_reserve_fst] at hentity
    cases hentity
  · exact entered hid hentity hname

/-- Filling a slot enters the name of its entity unless there is an entry already. -/
theorem NamesEntered.fill (entered : arena.NamesEntered) {id : TypeId} {entity : TypeEntity}
    (fills : arena.fill id entity = .ok filled) : filled.NamesEntered := by
  intro key id' entity' name hid hentity hname hnone
  rw [find?_fill fills] at hnone
  split at hnone
  · cases hnone
  · next huntouched =>
    rw [reserved?_fill fills] at hid
    rw [entity?_fill fills] at hentity
    split at hentity
    · obtain rfl := Option.some.inj hentity
      exact huntouched ⟨hname, hnone⟩
    · exact entered hid hentity hname hnone

/-- **Every step of a request keeps every name entered.** -/
theorem NamesEntered.step {before after : Transaction} (entered : before.arena.NamesEntered)
    (h : Transaction.Step store limit before after) : after.arena.NamesEntered := by
  cases h with
  | reserve free found reserved queued =>
    obtain ⟨rfl, rfl⟩ := Prod.mk.inj reserved
    exact entered.reserve _
  | make denotes shallow makes free reserved fills =>
    obtain ⟨rfl, rfl⟩ := Prod.mk.inj reserved
    exact (entered.reserve _).fill fills
  | fill queued portrays fills => exact entered.fill fills

theorem NamesEntered.steps {before after : Transaction} (entered : before.arena.NamesEntered)
    (h : Transaction.Steps store limit before after) : after.arena.NamesEntered := by
  induction h with
  | refl => exact entered
  | tail _ step ih => exact ih.step step

/-- What is restored has the entries and the live definitions that there were. -/
theorem NamesEntered.restored (entered : start.NamesEntered) (sound : start.Sound store limit)
    (restored : start.Restored after) : after.NamesEntered := by
  intro key id entity name hid hentity hname
  rw [restored.keys] at hid
  rw [restored.entity?_eq (index_lt_of_keyAt? (sound.keyed hid))] at hentity
  rw [restored.names]
  exact entered hid hentity hname

/-- What a link remembers has no part in a name. -/
theorem NamesEntered.memoize (entered : arena.NamesEntered) (id target : TypeId)
    (site : MemberSite) : (arena.modify (TypeEntity.memoize site target) id).NamesEntered := by
  intro key id' entity name hid hentity hname
  rw [entity?_modify] at hentity
  split at hentity
  · next hsame =>
    obtain ⟨entity', hentity', rfl⟩ := Option.map_eq_some_iff.mp hentity
    rw [TypeEntity.declaredName?_memoize] at hname
    exact entered hid (hsame ▸ hentity') hname
  · exact entered hid hentity hname

/-- **Every move keeps every name entered.** -/
theorem NamesEntered.move {before after : Arena} (entered : before.NamesEntered)
    (sound : before.Sound store limit) (h : Move store limit before after) :
    after.NamesEntered := by
  cases h with
  | commit steps idle => exact entered.steps steps
  | rollback steps => exact entered.restored sound (sound.restored steps)
  | memoize found linked leads => exact entered.memoize _ _ _

/-! ### Entries that stay -/

/-- A move leaves an entry where it leads: what is committed enters names that led nowhere, and what
is rolled back withdraws no more than it entered. -/
theorem Move.find? {before after : Arena} (h : Move store limit before after)
    (sound : before.Sound store limit) {name : String} {id : TypeId}
    (found : before.find? name = some id) : after.find? name = some id := by
  cases h with
  | commit steps idle =>
    have hsince := (Transaction.Since.refl before).steps steps
    exact hsince.kept found
  | rollback steps => rw [(sound.restored steps).names, found]
  | memoize _ linked leads => exact found

theorem Moves.find? {before after : Arena} (h : Moves store limit before after)
    (sound : before.Sound store limit) {name : String} {id : TypeId}
    (found : before.find? name = some id) : after.find? name = some id := by
  induction h with
  | refl => exact found
  | tail moves move ih => exact move.find? (Moves.sound moves sound) ih

/-! ### Full names of definitions -/

/-- The full name of a definition is read off its entity. -/
theorem fullName_of_definition {id : TypeId} {entity : TypeEntity} {definition : Definition}
    (found : arena.get id = .ok entity) (declares : entity.shape = .definition definition)
    (naming : PointerNaming) : arena.fullName naming id = .ok definition.fullName := by
  rw [fullName, visit_of_get found, declares]
  rfl

end Arena

/-- What has a name under which it can be looked up is a definition of this full name. -/
theorem TypeEntity.declaredName?_eq_some_iff {entity : TypeEntity} {name : String} :
    entity.declaredName? = some name ↔
      ∃ definition, entity.shape = .definition definition ∧ definition.fullName = name := by
  rw [declaredName?, definition?]
  cases entity.shape <;> simp

/-! ### Models -/

namespace TypeModel

variable {store : Store} {config : Config} {model : TypeModel}

/-- Whatever a model is asked, an entry stays where it leads. -/
theorem find?_askEach (sound : model.Sound) {name : String} {id : TypeId}
    (found : model.find? name = some id) (requests : List Request) :
    (model.askEach requests).2.find? name = some id := by
  induction requests generalizing model with
  | nil => exact found
  | cons request rest ih =>
    exact ih (sound_ask sound request) ((moves_ask sound request).find? sound found)

/-- The index of full names agrees with the live definitions of a model, and will not change what it
says. -/
structure NamesAgree (model : TypeModel) : Prop where
  /-- What is found under a name is a live definition that has it. -/
  sound {name : String} {id : TypeId} : model.find? name = some id →
    id ∈ model.all ∧ model.fullName id = .ok name ∧
      ∃ entity definition, model.get id = .ok entity ∧ entity.shape = .definition definition
  /-- Where nothing is found under a name, no live definition has it. -/
  complete {name : String} {id : TypeId} {entity : TypeEntity} {definition : Definition} :
    model.find? name = none → id ∈ model.all → model.get id = .ok entity →
      entity.shape = .definition definition → model.fullName id ≠ .ok name
  /-- What is found under a name is found under it for ever, whatever is asked and whether that
  succeeds or fails. -/
  stable {name : String} {id : TypeId} : model.find? name = some id →
    ∀ requests, (model.askEach requests).2.find? name = some id ∧
      (model.askEach requests).2.resolveAll.2.find? name = some id

/-- Between requests, every live definition has an entry for its full name. -/
theorem Reachable.namesEntered (h : Reachable store config model) : model.arena.NamesEntered :=
  h.of_moves .empty fun _ _ sound entered move => entered.move sound move

/-- **The index of full names of every reachable model agrees with its live definitions**, however
many of them share a name. -/
theorem Reachable.namesAgree (h : Reachable store config model) : model.NamesAgree := by
  have hsound := h.arenaSound
  constructor
  case sound =>
    intro name id hname
    obtain ⟨key, entity, hid, hentity, hdeclared⟩ := Transaction.Sound.named hsound hname
    obtain ⟨definition, hshape, rfl⟩ := TypeEntity.declaredName?_eq_some_iff.mp hdeclared
    have hget : model.arena.get id = .ok entity := Arena.get_eq_ok_iff.mpr hentity
    exact ⟨hsound.mem_all_iff.mpr ⟨key, hid⟩, Arena.fullName_of_definition hget hshape _,
      entity, definition, hget, hshape⟩
  case complete =>
    intro name id entity definition hnone hlive hget hshape hname
    have hfull : model.fullName id = .ok definition.fullName :=
      Arena.fullName_of_definition hget hshape _
    obtain rfl := Except.ok.inj (hfull.symm.trans hname)
    obtain ⟨key, hid⟩ := hsound.mem_all_iff.mp hlive
    have hdeclared : entity.declaredName? = some definition.fullName :=
      TypeEntity.declaredName?_eq_some_iff.mpr ⟨definition, hshape, rfl⟩
    exact h.namesEntered hid (Arena.get_eq_ok_iff.mp hget) hdeclared hnone
  case stable =>
    intro name id hname requests
    have hlater := find?_askEach h.sound hname requests
    refine ⟨hlater, ?_⟩
    have hreachable := reachable_askEach h requests
    have hall := find?_askEach hreachable.sound hlater
      ((model.askEach requests).2.store.definitionIndices.map .definition)
    rwa [← model_resolveEach] at hall

end TypeModel

/-! ### An image with one name for three definitions -/

/-- An image in which three definitions are called `A.B.C`: the first is `C` of `A.B`, the other two
are `B.C` of `A`. The third derives from the last, which has no name. -/
def Store.homonyms : Store where
  strings := ⟨⟨#[0, 65, 46, 66, 0, 67, 0, 65, 0, 66, 46, 67, 0]⟩, Std.HashMap.emptyWithCapacity⟩
  definitions := #[{ namespaceName := ⟨1⟩, name := ⟨5⟩ }, { namespaceName := ⟨7⟩, name := ⟨9⟩ },
    { namespaceName := ⟨7⟩, name := ⟨9⟩, parent := some ⟨0⟩ }, { name := ⟨99⟩ }]
  usages := #[⟨1⟩]
  mapped := Std.HashMap.emptyWithCapacity |>.insert ⟨1⟩ (.usage (.definition ⟨3⟩))

/-- The third definition is entered under the name and withdrawn again, the second is entered, and
the first finds the name taken. -/
theorem TypeModel.namesAgree_homonyms :
    ((TypeModel.new .homonyms .standard).askEach
        [.definition ⟨2⟩, .definition ⟨1⟩, .definition ⟨0⟩]).1 =
        [.error (.indexOutOfRange .string 99 13), .ok (some ⟨2⟩), .ok (some ⟨3⟩)] ∧
      ((TypeModel.new .homonyms .standard).askEach
        [.definition ⟨2⟩, .definition ⟨1⟩, .definition ⟨0⟩]).2.find? "A.B.C" = some ⟨2⟩ ∧
      ((TypeModel.new .homonyms .standard).askEach
        [.definition ⟨2⟩, .definition ⟨1⟩, .definition ⟨0⟩]).2.NamesAgree := by
  refine ⟨by cbv, by cbv, ?_⟩
  exact Reachable.namesAgree
    (reachable_askEach .new [.definition ⟨2⟩, .definition ⟨1⟩, .definition ⟨0⟩])

end TypeGraph
