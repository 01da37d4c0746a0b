import TypeGraph.Proofs.Agenda
import TypeGraph.Proofs.Soundness

/-!
# Resolving mirrors reading

A step of a request that begins in a sound transaction fails exactly if the corresponding reading
fails, and with the same fault; and what it makes of the store is what the reading yields. Here this
is shown for one usage. The handle that comes back is the one that the arena then has for the tree
of the usage, and the definitions of the tree have been met, in the order in which the tree names
them.

`Resolving.Mirrors` relates the result of a step to that of a reading. It follows the structure of
the two: where both go on in sequence, so does the relation, and a failure on one side is a failure
on the other. In either case the transaction has only been changed by `Transaction.Steps`.

## Main definitions

* `Transaction.agenda` — the definitions that are known, and those of them that wait
* `Resolving.Mirrors` — the result of a step mirrors the result of a reading
* `Resolving.Found` — a handle is that of a tree, whose definitions have been met
* `Resolving.Faithful` — resolving usages mirrors reading their trees

## Main results

* `Resolving.Mirrors.bind` — steps in sequence mirror readings in sequence
* `Resolving.mirrors_usage` — resolving a usage mirrors reading its tree
-/

namespace TypeGraph

namespace Transaction

/-- The definitions that a transaction has met are those that its arena knows. -/
def agenda (transaction : Transaction) : Agenda :=
  ⟨transaction.arena.knows, transaction.pending.map Pending.index⟩

/-- A transaction in which the definitions `current`, which are being filled, still count as
waiting. -/
def besides (current : List Pending) (transaction : Transaction) : Transaction :=
  { transaction with pending := current ++ transaction.pending }

end Transaction

namespace Resolving

open Transaction

variable {α β γ δ : Type} {store : Store} {limit : Nat} {current : List Pending}
  {before after : Transaction}

/-! ### The relation -/

/-- The result of a step mirrors that of a reading: both succeed, with values of which `holds` is
true, or both fail with the same fault. The request was at `start` when the step began, and the
definitions `current` still count as waiting when it ends. -/
inductive Mirrors (store : Store) (limit : Nat) (start : Transaction) (current : List Pending)
    (holds : β → α → Transaction → Prop) :
    EStateM.Result Fault Transaction α → Except Fault β → Prop where
  | ok {value : α} {read : β} {after : Transaction}
      (steps : Steps store limit start (after.besides current)) (post : holds read value after) :
      Mirrors store limit start current holds (.ok value after) (.ok read)
  | error {fault : Fault} {after : Transaction} (pending : List Pending)
      (steps : Steps store limit start { after with pending }) :
      Mirrors store limit start current holds (.error fault after) (.error fault)

namespace Mirrors

variable {start : Transaction} {current' : List Pending} {holds : β → α → Transaction → Prop}
  {holds' : δ → γ → Transaction → Prop}

/-- What mirrors a reading still does so if steps were taken before it. -/
theorem of_steps {result : EStateM.Result Fault Transaction α} {reading : Except Fault β}
    (steps : Steps store limit start after)
    (h : Mirrors store limit after current holds result reading) :
    Mirrors store limit start current holds result reading := by
  cases h with
  | ok steps' post => exact .ok (steps.trans steps') post
  | error pending steps' => exact .error pending (steps.trans steps')

/-- Steps in sequence mirror readings in sequence. -/
theorem bind {step : Resolving α} {reading : Except Fault β} {next : α → Resolving γ}
    {next' : β → Except Fault δ}
    (first : Mirrors store limit start current holds (step.run before) reading)
    (second : ∀ read value after, reading = .ok read →
      Steps store limit start (after.besides current) → holds read value after →
        Mirrors store limit (after.besides current) current' holds' ((next value).run after)
          (next' read)) :
    Mirrors store limit start current' holds' ((step >>= next).run before) (reading >>= next') := by
  rw [EStateM.run_bind]
  cases hrun : step.run before with
  | ok value after =>
    rw [hrun] at first
    cases first with
    | ok steps post => exact of_steps steps (second _ value after rfl steps post)
  | error fault after =>
    rw [hrun] at first
    cases first with
    | error pending steps => exact .error pending steps

/-- A step that only reads mirrors any reading that comes to the same. -/
theorem lift_bind_of_outcome {reading : Except Fault α} {reading' : Except Fault β}
    {next : α → Resolving γ} {next' : β → Except Fault δ}
    (same : outcome reading = outcome reading')
    (each : ∀ read read', reading = .ok read → reading' = .ok read' →
      Mirrors store limit (before.besides current) current' holds' ((next read).run before)
        (next' read')) :
    Mirrors store limit (before.besides current) current' holds'
      ((monadLift reading >>= next : Resolving γ).run before) (reading' >>= next') := by
  rw [EStateM.run_bind, run_lift]
  cases reading with
  | ok read =>
    obtain ⟨read', rfl⟩ := exists_ok_of_outcome same ⟨read, rfl⟩
    exact each read read' rfl rfl
  | error fault =>
    cases reading' with
    | ok read' => cases same
    | error fault' =>
      obtain rfl : fault = fault' := Except.error.inj same
      exact .error _ .refl

/-- A step that only reads mirrors its own reading. -/
theorem lift_bind {reading : Except Fault β} {next : β → Resolving γ} {next' : β → Except Fault δ}
    (each : ∀ read, reading = .ok read →
      Mirrors store limit (before.besides current) current' holds' ((next read).run before)
        (next' read)) :
    Mirrors store limit (before.besides current) current' holds'
      ((monadLift reading >>= next : Resolving γ).run before) (reading >>= next') := by
  refine lift_bind_of_outcome rfl fun read read' hread hread' => ?_
  obtain rfl := Except.ok.inj (hread.symm.trans hread')
  exact each read hread

/-- What is made of a reading afterwards may go into what is known of its value. -/
theorem map {holds' : δ → α → Transaction → Prop} {result : EStateM.Result Fault Transaction α}
    {reading : Except Fault β} {make : β → δ}
    (h : Mirrors store limit start current holds result reading)
    (each : ∀ read value after, holds read value after → holds' (make read) value after) :
    Mirrors store limit start current holds' result
      (reading >>= fun read => .ok (make read)) := by
  cases h with
  | ok steps post => exact .ok steps (each _ _ _ post)
  | error pending steps => exact .error pending steps

/-- A step that succeeds mirrors a reading that does, and leaves what is known of the two. -/
theorem exists_of_ok {value : α} {reading : Except Fault β}
    (h : Mirrors store limit start current holds (.ok value after) reading) :
    ∃ read, reading = .ok read ∧ Steps store limit start (after.besides current) ∧
      holds read value after := by
  cases h with
  | ok steps post => exact ⟨_, rfl, steps, post⟩

end Mirrors

/-! ### Definitions -/

/-- Meeting a definition mirrors reading its row. -/
theorem mirrors_definition (sound : (before.besides current).Sound store limit)
    (index : DefinitionIndex) :
    Mirrors store limit (before.besides current) current
      (fun _ id after => after.arena.reserved? (.definition index) = some id ∧
        after.agenda = before.agenda.meet index)
      ((definition store index).run before) (store.definition index) := by
  cases hid : before.arena.reserved? (.definition index) with
  | some id =>
    -- nothing is read here, but whoever reserved the definition had read its row
    obtain ⟨row, hrow⟩ := sound.exists_row hid
    have hmet : before.agenda.met index = true := by simp [agenda, Arena.knows, hid]
    rw [run_definition_of_reserved hid, hrow]
    exact .ok .refl ⟨hid, (Agenda.meet_of_met hmet).symm⟩
  | none =>
    cases hrow : store.definition index with
    | error fault =>
      rw [run_definition_of_error hid hrow]
      exact .error _ .refl
    | ok row =>
      rw [run_definition_of_row hid hrow]
      refine .ok (.single (.reserve hid hrow rfl List.perm_middle)) ⟨?_, ?_⟩
      · rw [Arena.reserved?_reserve, if_pos rfl]
      · have hmet : before.agenda.met index = false := by simp [agenda, Arena.knows, hid]
        rw [Agenda.meet_of_not_met hmet, agenda, List.map_cons]
        congr 1
        funext other
        rw [Arena.knows, Arena.reserved?_reserve]
        by_cases hsame : index = other
        · subst hsame
          simp
        · simp [agenda, Arena.knows, hsame, Ne.symm hsame]

/-! ### New types -/

/-- A handle is that of a tree, and since the agenda of a moment before, the definitions that the
tree names have been met and nothing else. -/
def Found (agenda : Agenda) (tree : TypeTree) (id : TypeId) (after : Transaction) : Prop :=
  after.arena.idOf tree = some id ∧ after.agenda = agenda.meetAll tree.definitions

/-- Making what stands for a tree adds no definition to those that were met. -/
theorem agenda_of_fill {key : TypeKey} {entity : TypeEntity} {filled : Arena}
    {journal : List (TypeKey × TypeId)} (other : ∀ index, key ≠ .definition index)
    (fills : (before.arena.reserve key).2.fill (before.arena.reserve key).1 entity = .ok filled) :
    agenda { before with arena := filled, journal } = before.agenda := by
  rw [agenda, agenda]
  congr 1
  funext index
  rw [Arena.knows, Arena.reserved?_fill fills, Arena.reserved?_reserve, if_neg (other index),
    Arena.knows]

/-- A placeholder or a composite is found or made, once its operands are there. -/
theorem mirrors_construct {agenda : Agenda} {usage : TypeUsage} {tree : TypeTree}
    {attributes : TypeAttributes} {flag : Bool} {shape : TypeShape}
    (denotes : Denotes store usage tree) (shallow : tree.depth ≤ limit)
    (makes : before.arena.Makes store tree attributes flag shape)
    (met : before.agenda = agenda.meetAll tree.definitions) :
    Mirrors store limit (before.besides current) current (Found agenda)
      ((construct usage attributes flag shape).run before) (.ok tree) := by
  cases hid : before.arena.reserved? shape.key with
  | some id =>
    rw [run_construct_of_reserved hid]
    exact .ok .refl ⟨Arena.idOf_eq_some_iff.mpr ⟨_, makes.keyOf, hid⟩, met⟩
  | none =>
    obtain ⟨filled, hfills⟩ := before.arena.exists_fill_reserve shape.key
      ⟨(before.arena.reserve shape.key).1, .usage usage, attributes, flag, shape⟩
    have hremembers : before.arena.Remembers filled :=
      (Arena.remembers_reserve hid).trans (Arena.remembers_fill hfills)
    rw [run_construct_of_free hid hfills]
    refine .ok (.single (.make denotes shallow makes hid rfl hfills)) ⟨?_, ?_⟩
    · refine Arena.idOf_eq_some_iff.mpr ⟨_, hremembers.keyOf makes.keyOf, ?_⟩
      rw [Arena.reserved?_fill hfills, Arena.reserved?_reserve, if_pos rfl]
    · exact (agenda_of_fill makes.key_ne_definition hfills).trans met

theorem mirrors_genericParameter (sound : (before.besides current).Sound store limit)
    {usage : TypeUsage} {index : GenericParameterIndex} {ofMethod : Bool}
    (shape : usage.shape = .ok (.genericParameter index ofMethod)) :
    Mirrors store limit (before.besides current) current (Found before.agenda)
      ((genericParameter store usage index ofMethod).run before)
      (store.genericParameter index >>= fun _ => .ok (.genericParameter index ofMethod)) := by
  cases hid : before.arena.reserved? (.genericParameter index ofMethod) with
  | some id =>
    obtain ⟨row, hrow⟩ := sound.placed hid
    have hrun : (genericParameter store usage index ofMethod).run before = .ok id before := by
      simp [genericParameter, reserved?, hid]
    rw [hrun, hrow]
    exact .ok .refl ⟨Arena.idOf_eq_some_iff.mpr ⟨_, rfl, hid⟩, rfl⟩
  | none =>
    have hrun : (genericParameter store usage index ofMethod).run before =
        (do let row ← (monadLift (store.genericParameter index) : Resolving GenericParameterRow)
            construct usage .ofClass true (.genericParameter index row.position ofMethod
              (placeholderName row.position))).run before := by
      simp only [genericParameter, reserved?, EStateM.run_bind, EStateM.run_get, EStateM.run_pure,
        hid]
    rw [hrun]
    refine Mirrors.lift_bind fun row hrow => ?_
    exact mirrors_construct (.genericParameter shape hrow) (Nat.zero_le _) (.genericParameter hrow)
      rfl

/-! ### Operands -/

/-- Handles are those of several trees, whose definitions have been met since. -/
def FoundAll (agenda : Agenda) (trees : List TypeTree) (ids : List TypeId) (after : Transaction) :
    Prop :=
  after.arena.idsOf trees = some ids ∧
    after.agenda = agenda.meetAll (TypeTree.definitionsOfAll trees)

/-- Whether a generic parameter occurs in a type is known for every type that a tree stands for. -/
theorem exists_flag (sound : (before.besides current).Sound store limit) {tree : TypeTree}
    {id : TypeId} (found : before.arena.idOf tree = some id) :
    ∃ flag, before.arena.containsParameters id = .ok flag := by
  obtain ⟨key, -, hid⟩ := Arena.idOf_eq_some_iff.mp found
  exact sound.exists_flag hid

theorem exists_flags (sound : (before.besides current).Sound store limit) {trees : List TypeTree}
    {ids : List TypeId} (found : before.arena.idsOf trees = some ids) :
    ∃ flags, ids.mapM before.arena.containsParameters = .ok flags := by
  have heach (id : TypeId) (mem : id ∈ ids) :
      ∃ flag, before.arena.containsParameters id = .ok flag := by
    obtain ⟨key, hid⟩ := Arena.exists_key_of_idsOf found mem
    exact sound.exists_flag hid
  clear found
  induction ids with
  | nil => exact ⟨[], rfl⟩
  | cons id rest ih =>
    obtain ⟨⟨flag, hflag⟩, hrest⟩ := List.forall_mem_cons.mp heach
    obtain ⟨flags, hflags⟩ := ih hrest
    exact ⟨flag :: flags, by rw [List.mapM_cons, hflag, hflags]; rfl⟩

theorem run_containsParameters_bind {id : TypeId} {flag : Bool}
    (h : before.arena.containsParameters id = .ok flag) (next : Bool → Resolving α) :
    (containsParameters id >>= next).run before = (next flag).run before := by
  have hrun : (containsParameters id).run before = .ok flag before := by
    simp [containsParameters, h]
  rw [EStateM.run_bind, hrun]

theorem run_containsParametersOfAll_bind {ids : List TypeId} {flags : List Bool}
    (h : ids.mapM before.arena.containsParameters = .ok flags) (next : List Bool → Resolving α) :
    (ids.mapM containsParameters >>= next).run before = (next flags).run before := by
  induction ids generalizing flags next with
  | nil =>
    obtain rfl := Except.ok.inj h
    rfl
  | cons id rest ih =>
    rw [List.mapM_cons] at h ⊢
    obtain ⟨flag, hflag, h⟩ := bind_eq_ok_iff.mp h
    obtain ⟨others, hothers, h⟩ := bind_eq_ok_iff.mp h
    obtain rfl := Except.ok.inj h
    rw [bind_assoc, run_containsParameters_bind hflag, bind_assoc, ih hothers]
    rfl

/-- Resolving usages mirrors reading their trees, wherever in a request this is done. -/
def Faithful (store : Store) (limit : Nat) (current : List Pending)
    (inner : TypeUsage → Resolving TypeId) (read : TypeUsage → Except Fault TypeTree) : Prop :=
  ∀ ⦃before : Transaction⦄, (before.besides current).Sound store limit → ∀ usage,
    Mirrors store limit (before.besides current) current (Found before.agenda)
      ((inner usage).run before) (read usage)

section Operands

variable {inner : TypeUsage → Resolving TypeId} {read : TypeUsage → Except Fault TypeTree}

theorem mirrors_operand (sound : (before.besides current).Sound store limit)
    (each : Faithful store limit current inner read)
    (address : Address) :
    Mirrors store limit (before.besides current) current (Found before.agenda)
      ((operand store inner address).run before) (store.readOperand read address) :=
  .lift_bind fun operand _ => each sound operand

theorem mirrors_operands (sound : (before.besides current).Sound store limit)
    (each : Faithful store limit current inner read)
    (addresses : List Address) :
    Mirrors store limit (before.besides current) current (FoundAll before.agenda)
      ((addresses.mapM (operand store inner)).run before)
      (addresses.mapM (store.readOperand read)) := by
  induction addresses generalizing before with
  | nil => exact .ok .refl ⟨rfl, rfl⟩
  | cons address rest ih =>
    rw [List.mapM_cons, List.mapM_cons]
    refine (mirrors_operand sound each address).bind ?_
    rintro tree id middle - hsteps ⟨hid, hmet⟩
    refine (ih (sound.steps hsteps)).bind ?_
    rintro trees ids after - hsteps' ⟨hids, hmet'⟩
    refine .ok .refl ⟨?_, ?_⟩
    · exact Arena.idsOf_cons.mpr ⟨id, ids, hsteps'.remembers.idOf hid, hids, rfl⟩
    · rw [hmet', hmet, TypeTree.definitionsOfAll, Agenda.meetAll_append]

/-! ### Composites -/

/-- A composite with one operand is found or made, once the operand is there. -/
theorem mirrors_wrapped {address : Address} {usage : TypeUsage} {wrap : TypeTree → TypeTree}
    {attributes : TypeAttributes} {shape : TypeId → TypeShape}
    (sound : (before.besides current).Sound store limit)
    (each : Faithful store limit current inner read)
    (denotes : ∀ tree, store.readOperand read address = .ok tree →
      Denotes store usage (wrap tree) ∧ (wrap tree).depth ≤ limit)
    (names : ∀ tree, (wrap tree).definitions = tree.definitions)
    (makes : ∀ {arena : Arena} {tree : TypeTree} {id : TypeId} {flag : Bool},
      arena.idOf tree = some id → arena.containsParameters id = .ok flag →
        arena.Makes store (wrap tree) attributes flag (shape id)) :
    Mirrors store limit (before.besides current) current (Found before.agenda)
      (EStateM.run (do
        let id ← operand store inner address
        construct usage attributes (← containsParameters id) (shape id)) before)
      (do return wrap (← store.readOperand read address)) := by
  refine (mirrors_operand sound each address).bind ?_
  rintro tree id after htree hsteps ⟨hid, hmet⟩
  obtain ⟨flag, hflag⟩ := exists_flag (sound.steps hsteps) hid
  obtain ⟨hdenotes, hdepth⟩ := denotes tree htree
  rw [run_containsParameters_bind hflag]
  refine mirrors_construct hdenotes hdepth (makes hid hflag) ?_
  rw [hmet, names]

/-- Resolving a composite mirrors reading its tree, if resolving an operand mirrors reading that of
the operand. -/
theorem mirrors_composite {levels : Nat} {usage : TypeUsage} {found : Composite}
    (sound : (before.besides current).Sound store limit)
    (each : Faithful store limit current inner read)
    (denotes : ∀ operand tree, read operand = .ok tree →
      Denotes store operand tree ∧ tree.depth ≤ levels)
    (bound : levels < limit) (shape : usage.shape = .ok (.composite found)) :
    Mirrors store limit (before.besides current) current (Found before.agenda)
      ((composite store inner usage found).run before) (store.readComposite read found) := by
  have hdenotes (tree : TypeTree) (hread : store.readComposite read found = .ok tree) :
      Denotes store usage tree ∧ tree.depth ≤ limit := by
    obtain ⟨hdenotes, hdepth⟩ := Store.denotes_of_readComposite denotes shape hread
    exact ⟨hdenotes, Nat.le_trans hdepth bound⟩
  cases found with
  | genericInstance address =>
    refine .lift_bind fun generic hgeneric => ?_
    refine (mirrors_definition sound generic.definition).bind ?_
    rintro row head middle hrow hsteps ⟨hhead, hmet⟩
    refine .lift_bind fun instantiation happlies => ?_
    refine .lift_bind fun addresses hlisted => ?_
    refine (mirrors_operands (sound.steps hsteps) each addresses).bind ?_
    rintro trees ids after htrees hsteps' ⟨hids, hmet'⟩
    obtain ⟨flags, hflags⟩ := exists_flags ((sound.steps hsteps).steps hsteps') hids
    rw [run_containsParametersOfAll_bind hflags]
    -- the operands are there, and the whole composite has been read by now
    obtain ⟨hdenotes, hdepth⟩ := hdenotes (.genericInstance generic.definition trees) (by
      rw [Store.readComposite, hgeneric]
      simp only [hrow, happlies, hlisted, htrees, bind, Except.bind]
      rfl)
    refine mirrors_construct hdenotes hdepth
      (.genericInstance (hsteps'.remembers hhead) hids hflags) ?_
    rw [hmet', hmet, TypeTree.definitions, Agenda.meetAll_cons]
  | array address =>
    refine .lift_bind fun descriptor hdescriptor => .lift_bind fun rank hrank => ?_
    refine mirrors_wrapped sound each (fun tree htree => hdenotes (.array tree rank) ?_)
      (fun _ => rfl) .array
    rw [Store.readComposite, hdescriptor]
    simp only [hrank, htree, bind, Except.bind]
    rfl
  | vector address =>
    refine mirrors_wrapped sound each (fun tree htree => hdenotes (.vector tree) ?_)
      (fun _ => rfl) .vector
    rw [Store.readComposite, htree]
    rfl
  | pointer address =>
    refine mirrors_wrapped sound each (fun tree htree => hdenotes (.pointer tree) ?_)
      (fun _ => rfl) .pointer
    rw [Store.readComposite, htree]
    rfl

end Operands

/-! ### Usages -/

/-- Resolving a usage by its shape mirrors reading it, if that is so for a composite. -/
theorem mirrors_byShape {nested : TypeUsage → Composite → Resolving TypeId}
    {read : Composite → Except Fault TypeTree} {usage : TypeUsage}
    (sound : (before.besides current).Sound store limit)
    (each : ∀ found, usage.shape = .ok (.composite found) →
      Mirrors store limit (before.besides current) current (Found before.agenda)
        ((nested usage found).run before) (read found)) :
    Mirrors store limit (before.besides current) current (Found before.agenda)
      ((byShape store nested usage).run before) (store.readByShape read usage) := by
  refine .lift_bind fun shape hshape => ?_
  cases shape with
  | definition index | primitive _ index =>
    refine (mirrors_definition sound index).map fun _ id after h => ?_
    exact ⟨Arena.idOf_eq_some_iff.mpr ⟨_, rfl, h.1⟩, h.2⟩
  | genericParameter index ofMethod => exact mirrors_genericParameter sound hshape
  | composite found => exact each found hshape

/-- **Resolving a usage mirrors reading its tree.** -/
theorem mirrors_usage {levels : Nat} (bound : levels ≤ limit) :
    Faithful store limit current (usage store limit levels) (store.readTree limit levels) := by
  induction levels with
  | zero => exact fun _ sound _ => mirrors_byShape sound fun _ _ => .error _ .refl
  | succ levels ih =>
    intro before sound found
    refine mirrors_byShape sound fun composite shape => ?_
    exact mirrors_composite sound (ih (Nat.le_of_lt bound)) (fun _ _ => Store.denotes_of_readTree)
      bound shape

end Resolving

end TypeGraph
