import TypeGraph.Resolve.Step

/-!
# Outstanding work

Filling a definition can queue further definitions, so a transaction that works off its queue needs
a reason to end. The reason is that a row is queued only when it is reserved, and it is reserved at
most once: the definitions that wait and the rows that have no slot yet are, together, the work that
is *outstanding*. No step adds to it, whether it succeeds or fails, and taking a definition off the
queue lowers it by one.

## Main definitions

* `Transaction.outstanding` — the waiting definitions and the rows without a slot
* `Resolving.AddsNoWork` — a step leaves no more work than it found

## Main results

* `Resolving.addsNoWork_usage`, `Resolving.addsNoWork_fillDefinition` — no step of resolution adds
  work
-/

namespace TypeGraph

/-- A row of the definition table is unreserved if no slot stands for it. -/
def Arena.isUnreserved (arena : Arena) (row : Nat) : Bool :=
  (arena.reserved? (.definition ⟨UInt32.ofNat row⟩)).isNone

/-- How many definitions a transaction may still have to fill: those that wait, and the rows of the
table that are not reserved yet. -/
def Transaction.outstanding (store : Store) (transaction : Transaction) : Nat :=
  transaction.pending.length +
    (List.range store.definitions.size).countP transaction.arena.isUnreserved

/-! ### Reserving and filling -/

theorem Arena.isUnreserved_of_reserve {arena : Arena} {key : TypeKey} {row : Nat}
    (h : (arena.reserve key).2.isUnreserved row) : arena.isUnreserved row := by
  simp only [Arena.isUnreserved, Arena.reserved?_reserve] at h ⊢
  split at h
  · simp at h
  · exact h

/-- Reserving any key leaves no more rows unreserved. -/
theorem Arena.countP_reserve_le (arena : Arena) (key : TypeKey) (rows : List Nat) :
    rows.countP (arena.reserve key).2.isUnreserved ≤ rows.countP arena.isUnreserved :=
  List.countP_mono_left fun _ _ => Arena.isUnreserved_of_reserve

/-- Reserving an unreserved definition takes its row out of the unreserved ones. -/
theorem Arena.countP_reserve_lt {arena : Arena} {index : DefinitionIndex} {rows : List Nat}
    (free : arena.reserved? (.definition index) = none) (mem : index.toNat ∈ rows) :
    rows.countP (arena.reserve (.definition index)).2.isUnreserved <
      rows.countP arena.isUnreserved := by
  have same : (⟨UInt32.ofNat index.toNat⟩ : DefinitionIndex) = index := by
    simp [Index.toNat]
  induction rows with
  | nil => cases mem
  | cons row rows ih =>
    have rest := arena.countP_reserve_le (.definition index) rows
    by_cases here : row = index.toNat
    · subst here
      have before : arena.isUnreserved index.toNat := by simp [isUnreserved, same, free]
      have after : ¬ (arena.reserve (.definition index)).2.isUnreserved index.toNat := by
        simp [isUnreserved, same, reserved?_reserve]
      rw [List.countP_cons_of_neg after, List.countP_cons_of_pos before]
      omega
    · have tail := ih (by simpa [Ne.symm here] using mem)
      by_cases after : (arena.reserve (.definition index)).2.isUnreserved row
      · rw [List.countP_cons_of_pos after, List.countP_cons_of_pos (isUnreserved_of_reserve after)]
        omega
      · rw [List.countP_cons_of_neg after]
        exact Nat.lt_of_lt_of_le tail (by rw [List.countP_cons]; omega)

/-- Filling a slot reserves nothing. -/
theorem Arena.isUnreserved_of_fill {arena filled : Arena} {id : TypeId} {entity : TypeEntity}
    (h : arena.fill id entity = .ok filled) : filled.isUnreserved = arena.isUnreserved :=
  funext fun row => by simp [isUnreserved, reserved?_fill h]

namespace Resolving

/-! ### Steps that add no work -/

/-- The transaction that a result leaves behind, be it a success or a failure. -/
def left {α : Type} : EStateM.Result Fault Transaction α → Transaction
  | .ok _ transaction => transaction
  | .error _ transaction => transaction

/-- A step adds no work if it leaves no more outstanding than it found. -/
def AddsNoWork {α : Type} (store : Store) (step : Resolving α) : Prop :=
  ∀ transaction : Transaction,
    (left (step.run transaction)).outstanding store ≤ transaction.outstanding store

variable {α β : Type} {store : Store}

theorem addsNoWork_pure (value : α) : AddsNoWork store (pure value) :=
  fun _ => Nat.le_refl _

theorem addsNoWork_throw (fault : Fault) : AddsNoWork store (throw fault : Resolving α) :=
  fun _ => Nat.le_refl _

/-- Steps that add no work can be taken one after the other. -/
theorem AddsNoWork.bind {step : Resolving α} {next : α → Resolving β}
    (first : AddsNoWork store step) (second : ∀ value, AddsNoWork store (next value)) :
    AddsNoWork store (step >>= next) := by
  intro transaction
  have bound := first transaction
  simp only [EStateM.run_bind] at bound ⊢
  cases h : step.run transaction with
  | ok value reached => exact Nat.le_trans (second value reached) (by simpa [h, left] using bound)
  | error fault reached => simpa [h, left] using bound

theorem addsNoWork_lift (reading : Except Fault α) :
    AddsNoWork store (monadLift reading : Resolving α) := by
  intro transaction
  cases reading <;> exact Nat.le_refl _

theorem addsNoWork_listMapM {step : α → Resolving β} (each : ∀ value, AddsNoWork store (step value))
    (values : List α) : AddsNoWork store (values.mapM step) := by
  induction values with
  | nil => exact addsNoWork_pure _
  | cons value values ih =>
    rw [List.mapM_cons]
    exact (each value).bind fun _ => ih.bind fun _ => addsNoWork_pure _

theorem addsNoWork_optionMapM {step : α → Resolving β}
    (each : ∀ value, AddsNoWork store (step value)) (value : Option α) :
    AddsNoWork store (value.mapM step) := by
  cases value with
  | none => exact addsNoWork_pure _
  | some value => exact (each value).bind fun _ => addsNoWork_pure _

theorem addsNoWork_reserved? (key : TypeKey) : AddsNoWork store (reserved? key) :=
  fun _ => Nat.le_refl _

theorem addsNoWork_containsParameters (id : TypeId) : AddsNoWork store (containsParameters id) :=
  AddsNoWork.bind (fun _ => Nat.le_refl _) fun _ => addsNoWork_lift _

theorem addsNoWork_reserve (key : TypeKey) : AddsNoWork store (reserve key) := fun transaction =>
  Nat.add_le_add_left (transaction.arena.countP_reserve_le key _) _

theorem addsNoWork_fill (id : TypeId) (entity : TypeEntity) :
    AddsNoWork store (fill id entity) := by
  intro transaction
  rw [run_fill]
  cases h : transaction.arena.fill id entity with
  | ok arena => simp [left, Transaction.outstanding, Arena.isUnreserved_of_fill h]
  | error fault => exact Nat.le_refl _

theorem addsNoWork_construct (usage : TypeUsage) (attributes : TypeAttributes)
    (containsParameters : Bool) (shape : TypeShape) :
    AddsNoWork store (construct usage attributes containsParameters shape) := by
  refine (addsNoWork_reserved? _).bind fun found => ?_
  cases found with
  | some id => exact addsNoWork_pure _
  | none =>
    exact (addsNoWork_reserve _).bind fun _ => (addsNoWork_fill _ _).bind fun _ =>
      addsNoWork_pure _

/-! ### Steps of resolution -/

/-- A definition is queued when its row is reserved: one more waits, and one row fewer is
unreserved. -/
theorem addsNoWork_definition (index : DefinitionIndex) :
    AddsNoWork store (definition store index) := by
  intro transaction
  cases free : transaction.arena.reserved? (.definition index) with
  | some id =>
    rw [run_definition_of_reserved free]
    exact Nat.le_refl _
  | none =>
    cases found : store.definition index with
    | error fault =>
      rw [run_definition_of_error free found]
      exact Nat.le_refl _
    | ok row =>
      have inside : index.toNat ∈ List.range store.definitions.size :=
        List.mem_range.2 (Store.lt_of_row found)
      have fewer := Arena.countP_reserve_lt free inside
      rw [run_definition_of_row free found]
      simp only [left, Transaction.outstanding, List.length_cons]
      omega

theorem addsNoWork_genericParameter (usage : TypeUsage) (index : GenericParameterIndex)
    (ofMethod : Bool) : AddsNoWork store (genericParameter store usage index ofMethod) := by
  refine (addsNoWork_reserved? _).bind fun found => ?_
  cases found with
  | some id => exact addsNoWork_pure _
  | none => exact (addsNoWork_lift _).bind fun _ => addsNoWork_construct _ _ _ _

theorem addsNoWork_operand {inner : TypeUsage → Resolving TypeId}
    (each : ∀ usage, AddsNoWork store (inner usage)) (address : Address) :
    AddsNoWork store (operand store inner address) :=
  (addsNoWork_lift _).bind each

/-- A composite adds no work if its operands add none. -/
theorem addsNoWork_composite {inner : TypeUsage → Resolving TypeId}
    (each : ∀ usage, AddsNoWork store (inner usage)) (usage : TypeUsage) (found : Composite) :
    AddsNoWork store (composite store inner usage found) := by
  cases found with
  | genericInstance address =>
    exact (addsNoWork_lift _).bind fun _ => (addsNoWork_definition _).bind fun _ =>
      (addsNoWork_lift _).bind fun _ => (addsNoWork_lift _).bind fun _ =>
      (addsNoWork_listMapM (addsNoWork_operand each) _).bind fun _ =>
      (addsNoWork_listMapM addsNoWork_containsParameters _).bind fun _ =>
      addsNoWork_construct _ _ _ _
  | array address =>
    exact (addsNoWork_lift _).bind fun _ => (addsNoWork_lift _).bind fun _ =>
      (addsNoWork_operand each _).bind fun _ =>
      (addsNoWork_containsParameters _).bind fun _ => addsNoWork_construct _ _ _ _
  | vector address =>
    exact (addsNoWork_operand each _).bind fun _ =>
      (addsNoWork_containsParameters _).bind fun _ => addsNoWork_construct _ _ _ _
  | pointer address =>
    exact (addsNoWork_operand each _).bind fun _ =>
      (addsNoWork_containsParameters _).bind fun _ => addsNoWork_construct _ _ _ _

theorem addsNoWork_byShape {nested : TypeUsage → Composite → Resolving TypeId}
    (each : ∀ usage found, AddsNoWork store (nested usage found)) (usage : TypeUsage) :
    AddsNoWork store (byShape store nested usage) := by
  refine (addsNoWork_lift _).bind fun shape => ?_
  cases shape with
  | definition index => exact addsNoWork_definition index
  | primitive kind index => exact addsNoWork_definition index
  | composite found => exact each usage found
  | genericParameter index ofMethod => exact addsNoWork_genericParameter usage index ofMethod

/-- Resolving a usage adds no work, however deep it may nest. -/
theorem addsNoWork_usage (limit levels : Nat) (found : TypeUsage) :
    AddsNoWork store (usage store limit levels found) := by
  induction levels generalizing found with
  | zero => exact addsNoWork_byShape (fun _ _ => addsNoWork_throw _) found
  | succ levels ih => exact addsNoWork_byShape (addsNoWork_composite ih) found

theorem addsNoWork_base (limit : Nat) (row : TypeDefinition) :
    AddsNoWork store (base store limit row) :=
  addsNoWork_optionMapM (fun _ => (addsNoWork_lift _).bind (addsNoWork_usage limit limit)) _

/-- Filling a definition adds no work. -/
theorem addsNoWork_fillDefinition (limit : Nat) (waiting : Pending) :
    AddsNoWork store (fillDefinition store limit waiting) :=
  (addsNoWork_lift _).bind fun _ => (addsNoWork_lift _).bind fun _ =>
    (addsNoWork_base limit _).bind fun _ => (addsNoWork_lift _).bind fun _ =>
    (addsNoWork_lift _).bind fun _ => addsNoWork_fill _ _

end Resolving

end TypeGraph
