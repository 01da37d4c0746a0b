import Mathlib.Logic.Relation
import TypeGraph.Proofs.Reading

/-!
# Agendas

Of the definitions that a request meets, those that are met for the first time wait on a stack, and
each of them is read in its turn, which may put more on the stack. Whether a request succeeds, and
with which fault it fails, depends on this alone: an *agenda* says which definitions have been met
and which wait, and `Settles` what becomes of it. Neither mentions an arena.

A model that has resolved something before starts with definitions that it knows already. Those are
settled, and so is everything that they lead to. Taking such definitions off an agenda does not
change what becomes of it, because whatever they would have put on the stack is known as well. So
the definitions that remain come up in the same order, and the first broken one is the same.

## Main definitions

* `Agenda`, `Agenda.meet` — the definitions met so far, and those of them that wait
* `Settles` — what becomes of an agenda when its definitions are read one after the other
* `Store.Settled` — definitions that can be read, and only name each other
* `Store.Names` — a definition names another one in the tree of its parent

## Main results

* `Settles.unique` — an agenda comes to one outcome
* `Settles.knowing` — knowing settled definitions beforehand does not change the outcome
* `Settles.exists_of_error` — a failure comes from a definition that what waited leads to
-/

namespace TypeGraph

/-! ### Agendas -/

/-- The definitions that have been met, and those of them that wait; the one on top is next. -/
structure Agenda where
  met : DefinitionIndex → Bool
  waiting : List DefinitionIndex

namespace Agenda

/-- Meets a definition. It waits if this is the first time. -/
def meet (agenda : Agenda) (index : DefinitionIndex) : Agenda :=
  if agenda.met index then agenda
  else ⟨fun other => other == index || agenda.met other, index :: agenda.waiting⟩

/-- Meets several definitions, one after the other. -/
def meetAll (agenda : Agenda) (indices : List DefinitionIndex) : Agenda := indices.foldl meet agenda

variable {agenda : Agenda} {index : DefinitionIndex}

theorem meet_of_met (h : agenda.met index = true) : agenda.meet index = agenda := if_pos h

theorem meet_of_not_met (h : agenda.met index = false) :
    agenda.meet index =
      ⟨fun other => other == index || agenda.met other, index :: agenda.waiting⟩ :=
  if_neg (by simp [h])

theorem meetAll_cons (agenda : Agenda) (index : DefinitionIndex) (rest : List DefinitionIndex) :
    agenda.meetAll (index :: rest) = (agenda.meet index).meetAll rest := rfl

theorem meetAll_append (agenda : Agenda) (indices rest : List DefinitionIndex) :
    agenda.meetAll (indices ++ rest) = (agenda.meetAll indices).meetAll rest :=
  List.foldl_append

/-- Whatever waits after a meeting waited before or has just been met. -/
theorem mem_waiting_meetAll {indices : List DefinitionIndex}
    (h : index ∈ (agenda.meetAll indices).waiting) : index ∈ indices ∨ index ∈ agenda.waiting := by
  induction indices generalizing agenda with
  | nil => exact .inr h
  | cons first rest ih =>
    rw [meetAll_cons] at h
    rcases ih h with hrest | hwaits
    · exact .inl (List.mem_cons_of_mem _ hrest)
    · by_cases hmet : agenda.met first = true
      · rw [meet_of_met hmet] at hwaits
        exact .inr hwaits
      · rw [meet_of_not_met (by simpa using hmet)] at hwaits
        rcases List.mem_cons.mp hwaits with rfl | hwaits
        · exact .inl List.mem_cons_self
        · exact .inr hwaits

/-! ### Knowing definitions beforehand -/

/-- The agenda of a request that knew some definitions before it began. -/
def knowing (known : DefinitionIndex → Bool) (agenda : Agenda) : Agenda :=
  ⟨fun index => known index || agenda.met index, agenda.waiting.filter fun index => !known index⟩

theorem knowing_meet (known : DefinitionIndex → Bool) (agenda : Agenda) (index : DefinitionIndex) :
    (agenda.meet index).knowing known = (agenda.knowing known).meet index := by
  cases hmet : agenda.met index with
  | true =>
    have hmet' : (agenda.knowing known).met index = true := by simp [knowing, hmet]
    rw [meet_of_met hmet, meet_of_met hmet']
  | false =>
    cases hknown : known index with
    | true =>
      have hmet' : (agenda.knowing known).met index = true := by simp [knowing, hknown]
      rw [meet_of_not_met hmet, meet_of_met hmet', knowing, knowing]
      congr 1
      · funext other
        show (known other || (other == index || agenda.met other)) =
          (known other || agenda.met other)
        cases hsame : other == index with
        | true => simp [eq_of_beq hsame, hknown]
        | false => rw [Bool.false_or]
      · rw [List.filter_cons_of_neg (by simp [hknown])]
    | false =>
      have hmet' : (agenda.knowing known).met index = false := by simp [knowing, hknown, hmet]
      rw [meet_of_not_met hmet, meet_of_not_met hmet', knowing, knowing]
      congr 1
      · funext other
        exact Bool.or_left_comm _ _ _
      · rw [List.filter_cons_of_pos (by simp [hknown])]

theorem knowing_meetAll (known : DefinitionIndex → Bool) (agenda : Agenda)
    (indices : List DefinitionIndex) :
    (agenda.meetAll indices).knowing known = (agenda.knowing known).meetAll indices := by
  induction indices generalizing agenda with
  | nil => rfl
  | cons index rest ih => rw [meetAll_cons, meetAll_cons, ih, knowing_meet]

theorem meetAll_of_met {indices : List DefinitionIndex}
    (h : ∀ index ∈ indices, agenda.met index = true) : agenda.meetAll indices = agenda := by
  induction indices with
  | nil => rfl
  | cons index rest ih =>
    obtain ⟨hindex, hrest⟩ := List.forall_mem_cons.mp h
    rw [meetAll_cons, meet_of_met hindex, ih hrest]

end Agenda

/-- The definitions that the tree of a parent names, if there is a parent. -/
def named (parent : Option TypeTree) : List DefinitionIndex := parent.elim [] TypeTree.definitions

/-! ### What becomes of an agenda -/

/-- What becomes of an agenda: the topmost definition is read, and with it goes on whatever waits
then. The first definition that cannot be read decides. -/
inductive Settles (store : Store) (limit : Nat) : Agenda → Except Fault Unit → Prop where
  | done {met : DefinitionIndex → Bool} : Settles store limit ⟨met, []⟩ (.ok ())
  | fails {met : DefinitionIndex → Bool} {index : DefinitionIndex} {rest : List DefinitionIndex}
      {fault : Fault} (read : store.readDefinition limit index = .error fault) :
      Settles store limit ⟨met, index :: rest⟩ (.error fault)
  | goesOn {met : DefinitionIndex → Bool} {index : DefinitionIndex} {rest : List DefinitionIndex}
      {parent : Option TypeTree} {outcome : Except Fault Unit}
      (read : store.readDefinition limit index = .ok parent)
      (then_ : Settles store limit (Agenda.meetAll ⟨met, rest⟩ (named parent)) outcome) :
      Settles store limit ⟨met, index :: rest⟩ outcome

/-- The definitions of which `known` is true are settled: each of them can be read, and whatever it
names is known as well. -/
def Store.Settled (store : Store) (limit : Nat) (known : DefinitionIndex → Bool) : Prop :=
  ∀ ⦃index⦄, known index = true → ∃ parent, store.readDefinition limit index = .ok parent ∧
    ∀ other ∈ named parent, known other = true

namespace Settles

variable {store : Store} {limit : Nat} {agenda : Agenda} {outcome outcome' : Except Fault Unit}

/-- An agenda comes to one outcome. -/
theorem unique (h : Settles store limit agenda outcome) (h' : Settles store limit agenda outcome') :
    outcome = outcome' := by
  induction h generalizing outcome' with
  | done => cases h'; rfl
  | fails read =>
    cases h' with
    | fails read' => rw [read] at read'; rw [Except.error.inj read']
    | goesOn read' _ => rw [read] at read'; cases read'
  | goesOn read _ ih =>
    cases h' with
    | fails read' => rw [read] at read'; cases read'
    | goesOn read' then' =>
      rw [read] at read'
      obtain rfl := Except.ok.inj read'
      exact ih then'

/-- **Knowing settled definitions beforehand does not change the outcome.** -/
theorem knowing {known : DefinitionIndex → Bool} (settled : store.Settled limit known)
    (h : Settles store limit agenda outcome) :
    Settles store limit (agenda.knowing known) outcome := by
  induction h with
  | done => exact .done
  | @fails met index rest fault read =>
    cases hknown : known index with
    | true =>
      obtain ⟨parent, hread, _⟩ := settled hknown
      rw [read] at hread
      cases hread
    | false =>
      rw [Agenda.knowing, List.filter_cons_of_pos (by simp [hknown])]
      exact .fails read
  | @goesOn met index rest parent outcome read _ ih =>
    rw [Agenda.knowing_meetAll] at ih
    cases hknown : known index with
    | true =>
      -- all that the definition names is known, so reading it would put nothing on the stack
      obtain ⟨parent', hread, hall⟩ := settled hknown
      rw [read] at hread
      obtain rfl := Except.ok.inj hread
      rw [Agenda.meetAll_of_met fun other mem => by simp [Agenda.knowing, hall other mem]] at ih
      rw [Agenda.knowing, List.filter_cons_of_neg (by simp [hknown])]
      exact ih
    | false =>
      rw [Agenda.knowing, List.filter_cons_of_pos (by simp [hknown])]
      exact .goesOn read ih

end Settles

/-! ### What definitions lead to -/

/-- A definition names another one if the other one occurs anywhere in the tree of the usage that
the first one derives from. -/
def Store.Names (store : Store) (index other : DefinitionIndex) : Prop :=
  ∃ row parent usage tree, store.definition index = .ok row ∧ row.parent = some parent ∧
    store.usage parent = .ok usage ∧ Denotes store usage tree ∧ other ∈ tree.definitions

/-- A definition leads to another one if it names it, or names one that leads to it. Every
definition leads to itself. -/
abbrev Store.LeadsTo (store : Store) : DefinitionIndex → DefinitionIndex → Prop :=
  Relation.ReflTransGen store.Names

section Names

variable {store : Store} {limit : Nat} {index other : DefinitionIndex} {parent : Option TypeTree}

theorem Store.names_iff_of_readDefinition (read : store.readDefinition limit index = .ok parent) :
    store.Names index other ↔ other ∈ named parent := by
  obtain ⟨row, hrow, -, -, hparent, -, -⟩ := Store.readDefinition_eq_ok_iff.mp read
  rw [Store.readParent_eq_ok_iff] at hparent
  constructor
  · rintro ⟨row', index', usage, tree, hrow', hindex', husage, hdenotes, hother⟩
    obtain rfl := Except.ok.inj (hrow.symm.trans hrow')
    rw [hindex'] at hparent
    cases parent with
    | none => cases hparent
    | some tree' =>
      obtain ⟨usage', husage', hdenotes', -⟩ := hparent
      obtain rfl := Except.ok.inj (husage.symm.trans husage')
      rwa [hdenotes.unique hdenotes'] at hother
  · intro hother
    cases parent with
    | none => cases hother
    | some tree =>
      cases hindex : row.parent with
      | none => rw [hindex] at hparent; cases hparent
      | some index' =>
        rw [hindex] at hparent
        obtain ⟨usage, husage, hdenotes, -⟩ := hparent
        exact ⟨row, index', usage, tree, hrow, hindex, husage, hdenotes, hother⟩

end Names

/-- **A failure comes from a definition that what waited leads to**, and that cannot be read. -/
theorem Settles.exists_of_error {store : Store} {limit : Nat} {agenda : Agenda} {fault : Fault}
    (h : Settles store limit agenda (.error fault)) :
    ∃ first ∈ agenda.waiting, ∃ broken, store.LeadsTo first broken ∧
      store.readDefinition limit broken = .error fault := by
  generalize hresult : Except.error fault = result at h
  induction h with
  | done => cases hresult
  | @fails met index rest _ read =>
    obtain rfl := Except.error.inj hresult
    exact ⟨index, List.mem_cons_self, index, .refl, read⟩
  | @goesOn met index rest parent _ read _ ih =>
    obtain ⟨first, hfirst, broken, hleads, hbroken⟩ := ih hresult
    rcases Agenda.mem_waiting_meetAll hfirst with hnamed | hwaits
    · have hnames := (Store.names_iff_of_readDefinition read).mpr hnamed
      exact ⟨index, List.mem_cons_self, broken, .head hnames hleads, hbroken⟩
    · exact ⟨first, List.mem_cons_of_mem _ hwaits, broken, hleads, hbroken⟩

end TypeGraph
