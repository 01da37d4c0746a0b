import Mathlib.Data.List.Forall2
import TypeGraph.Tree.Denotation

/-!
# What a request reads

Resolving does two things at once: it reads records, and it makes types of what it has read. The
reading alone needs no arena. It yields the tree of a usage, or the first fault on the way, and it
goes through the records in the order in which the resolver does, so that it meets the same fault
where several lie in wait.

Reading is also what the limit on nesting applies to. A usage is read within a number of levels
exactly if it denotes a tree that is no deeper.

## Main definitions

* `Store.readTree` — the tree of a usage, within a number of levels
* `Store.readDefinition` — everything that filling a definition reads, with the tree of its parent
* `outcome` — a result with its value left out
* `FailsWith` — a reading fails with none but certain faults

## Main results

* `Store.readTree_eq_ok_iff` — reading yields the tree that a usage denotes, if it is not too deep
-/

namespace TypeGraph

variable {α β : Type}

/-! ### Sequences of reads -/

theorem bind_eq_ok_iff {reading : Except Fault α} {next : α → Except Fault β} {value : β} :
    reading >>= next = .ok value ↔ ∃ read, reading = .ok read ∧ next read = .ok value := by
  cases reading <;> simp [bind, Except.bind]

theorem map_eq_ok_iff {reading : Except Fault α} {change : α → β} {value : β} :
    change <$> reading = .ok value ↔ ∃ read, reading = .ok read ∧ change read = value := by
  cases reading <;> simp [Functor.map, Except.map]

theorem map_eq_error_iff {reading : Except Fault α} {change : α → β} {fault : Fault} :
    change <$> reading = .error fault ↔ reading = .error fault := by
  cases reading <;> simp [Functor.map, Except.map]

theorem mapM_eq_ok_iff {read : α → Except Fault β} {xs : List α} {ys : List β} :
    xs.mapM read = .ok ys ↔ List.Forall₂ (fun x y => read x = .ok y) xs ys := by
  induction xs generalizing ys with
  | nil =>
    rw [List.mapM_nil, List.forall₂_nil_left_iff]
    exact ⟨fun h => (Except.ok.inj h).symm, fun h => h ▸ rfl⟩
  | cons x xs ih =>
    rw [List.mapM_cons, bind_eq_ok_iff, List.forall₂_cons_left_iff]
    simp only [bind_eq_ok_iff, ih]
    constructor
    · rintro ⟨y, hy, rest, hrest, h⟩
      exact ⟨y, rest, hy, hrest, (Except.ok.inj h).symm⟩
    · rintro ⟨y, rest, hy, hrest, rfl⟩
      exact ⟨y, hy, rest, hrest, rfl⟩

/-- Reading several things succeeds exactly if reading each of them does. -/
theorem exists_mapM_iff {α β : Type} {read : α → Except Fault β} {xs : List α} :
    (∃ ys, xs.mapM read = .ok ys) ↔ ∀ x ∈ xs, ∃ y, read x = .ok y := by
  simp only [mapM_eq_ok_iff]
  induction xs with
  | nil => simp
  | cons x xs ih =>
    rw [List.forall_mem_cons, ← ih]
    constructor
    · rintro ⟨ys, h⟩
      obtain ⟨y, rest, hy, hrest, -⟩ := List.forall₂_cons_left_iff.mp h
      exact ⟨⟨y, hy⟩, rest, hrest⟩
    · rintro ⟨⟨y, hy⟩, rest, hrest⟩
      exact ⟨y :: rest, .cons hy hrest⟩

/-- Each member of the second of two related lists is related to a member of the first. -/
theorem exists_mem_of_forall₂ {rel : α → β → Prop} {xs : List α} {ys : List β}
    (h : List.Forall₂ rel xs ys) {y : β} (mem : y ∈ ys) : ∃ x ∈ xs, rel x y := by
  obtain ⟨position, bound, rfl⟩ := List.getElem_of_mem mem
  have bound' : position < xs.length := h.length_eq ▸ bound
  exact ⟨xs[position], List.getElem_mem bound', h.get bound' bound⟩

/-- Lists are related if they have one length and are related place by place. -/
theorem forall₂_of_getElem? {rel : α → β → Prop} {xs : List α} {ys : List β}
    (count : ys.length = xs.length)
    (each : ∀ (position : Nat) x y, xs[position]? = some x → ys[position]? = some y → rel x y) :
    List.Forall₂ rel xs ys :=
  List.forall₂_iff_get.mpr ⟨count.symm, fun position bound bound' =>
    each position _ _ (List.getElem?_eq_getElem bound) (List.getElem?_eq_getElem bound')⟩

/-- What a result comes to once its value is left out: success, or the fault. -/
def outcome (result : Except Fault α) : Except Fault Unit := result.map fun _ => ()

theorem exists_ok_of_outcome {result : Except Fault α} {result' : Except Fault β}
    (same : outcome result = outcome result') (h : ∃ value, result = .ok value) :
    ∃ value, result' = .ok value := by
  obtain ⟨value, rfl⟩ := h
  cases result' with
  | ok value' => exact ⟨value', rfl⟩
  | error fault => cases same

theorem outcome_bind {reading : Except Fault α} {next next' : α → Except Fault β}
    (each : ∀ value, outcome (next value) = outcome (next' value)) :
    outcome (reading >>= next) = outcome (reading >>= next') := by
  cases reading with
  | error fault => rfl
  | ok value => exact each value

theorem outcome_mapM {read read' : α → Except Fault β}
    (each : ∀ x, outcome (read x) = outcome (read' x)) (xs : List α) :
    outcome (xs.mapM read) = outcome (xs.mapM read') := by
  induction xs with
  | nil => rfl
  | cons x xs ih =>
    have hx := each x
    rw [List.mapM_cons, List.mapM_cons]
    cases hread : read x <;> cases hread' : read' x <;> rw [hread, hread'] at hx
    · exact hx
    · cases hx
    · cases hx
    · cases hrest : xs.mapM read <;> cases hrest' : xs.mapM read' <;> rw [hrest, hrest'] at ih
      · exact ih
      · cases ih
      · cases ih
      · rfl

/-! ### What can go wrong -/

/-- A reading fails with none but certain faults, if it fails at all. -/
def FailsWith (allowed : Fault → Prop) (reading : Except Fault α) : Prop :=
  ∀ ⦃fault⦄, reading = .error fault → allowed fault

namespace FailsWith

variable {allowed : Fault → Prop}

theorem ok (value : α) : FailsWith allowed (.ok value) := fun _ failed => nomatch failed

theorem error {fault : Fault} (h : allowed fault) :
    FailsWith allowed (.error fault : Except Fault α) := fun _ failed => Except.error.inj failed ▸ h

theorem bind {reading : Except Fault α} {next : α → Except Fault β}
    (first : FailsWith allowed reading)
    (second : ∀ value, reading = .ok value → FailsWith allowed (next value)) :
    FailsWith allowed (reading >>= next) := by
  cases reading with
  | error fault => exact error (first rfl)
  | ok value => exact second value rfl

theorem map {reading : Except Fault α} (h : FailsWith allowed reading) (change : α → β) :
    FailsWith allowed (change <$> reading) :=
  fun _ failed => h (map_eq_error_iff.mp failed)

theorem mapM {read : α → Except Fault β} {xs : List α}
    (each : ∀ x ∈ xs, FailsWith allowed (read x)) : FailsWith allowed (xs.mapM read) := by
  induction xs with
  | nil => exact ok _
  | cons x xs ih =>
    obtain ⟨hx, hxs⟩ := List.forall_mem_cons.mp each
    rw [List.mapM_cons]
    exact hx.bind fun _ _ => (ih hxs).bind fun _ _ => ok _

/-- Where no fault is left over, reading succeeds. -/
theorem exists_ok {reading : Except Fault α} (h : FailsWith (fun _ => False) reading) :
    ∃ value, reading = .ok value := by
  cases reading with
  | ok value => exact ⟨value, rfl⟩
  | error fault => exact (h rfl).elim

end FailsWith

namespace Store

variable {store : Store} {limit levels : Nat} {usage : TypeUsage} {tree : TypeTree}

/-! ### Trees -/

/-- Reads the usage at an address, and its tree by `inner`. -/
def readOperand (store : Store) (inner : TypeUsage → Except Fault TypeTree) (address : Address) :
    Except Fault TypeTree := do
  inner (← store.usageAt address)

/-- Reads the tree of a composite, and those of its operands by `inner`. The row of a generic
definition is read before its arguments, the rank of an array before its element. -/
def readComposite (store : Store) (inner : TypeUsage → Except Fault TypeTree) :
    Composite → Except Fault TypeTree
  | .genericInstance address => do
    let generic ← store.genericClass address
    let _row ← store.definition generic.definition
    let instantiation ← store.instantiation generic.instantiation
    let addresses ←
      store.argumentAddresses instantiation.arguments instantiation.argumentCount
    let arguments ← addresses.mapM (store.readOperand inner)
    return .genericInstance generic.definition arguments
  | .array address => do
    let descriptor ← store.arrayDescriptor address
    let rank ← descriptor.checkedRank
    return .array (← store.readOperand inner descriptor.element) rank
  | .vector address => return .vector (← store.readOperand inner address)
  | .pointer address => return .pointer (← store.readOperand inner address)

/-- Reads the tree of a usage by its shape, that of a composite by `nested`. -/
def readByShape (store : Store) (nested : Composite → Except Fault TypeTree) (usage : TypeUsage) :
    Except Fault TypeTree := do
  match ← usage.shape with
  | .definition index | .primitive _ index =>
    let _row ← store.definition index
    return .definition index
  | .genericParameter index ofMethod =>
    let _row ← store.genericParameter index
    return .genericParameter index ofMethod
  | .composite found => nested found

/-- Reads the tree of a usage in which composites lie inside each other down to `levels` levels.
Where they lie deeper, the `limit` is reported. -/
def readTree (store : Store) (limit : Nat) : (levels : Nat) → TypeUsage → Except Fault TypeTree
  | 0 => store.readByShape fun _ => .error (.recursionLimit limit)
  | levels + 1 => store.readByShape (store.readComposite (store.readTree limit levels))

/-! ### Reading and denotation -/

theorem readOperand_eq_ok_iff {inner : TypeUsage → Except Fault TypeTree} {address : Address} :
    store.readOperand inner address = .ok tree ↔
      ∃ operand, store.usageAt address = .ok operand ∧ inner operand = .ok tree :=
  bind_eq_ok_iff

/-- The operands at several addresses denote trees if each of them denotes its own. -/
theorem exists_operands {addresses : List Address} {trees : List TypeTree}
    (h : List.Forall₂
      (fun address tree => ∃ operand, store.usageAt address = .ok operand ∧
        Denotes store operand tree) addresses trees) :
    ∃ operands, addresses.mapM store.usageAt = .ok operands ∧
      List.Forall₂ (Denotes store) operands trees := by
  simp only [mapM_eq_ok_iff]
  induction h with
  | nil => exact ⟨[], .nil, .nil⟩
  | cons head _ ih =>
    obtain ⟨operand, hoperand, hdenotes⟩ := head
    obtain ⟨operands, hoperands, hall⟩ := ih
    exact ⟨operand :: operands, .cons hoperand hoperands, .cons hdenotes hall⟩

/-- Operands that are read one by one are read together. -/
theorem mapM_readOperand {inner : TypeUsage → Except Fault TypeTree} {addresses : List Address}
    {operands : List TypeUsage} {trees : List TypeTree}
    (reads : addresses.mapM store.usageAt = .ok operands)
    (each : List.Forall₂ (fun operand tree => inner operand = .ok tree) operands trees) :
    addresses.mapM (store.readOperand inner) = .ok trees := by
  rw [mapM_eq_ok_iff] at reads ⊢
  induction reads generalizing trees with
  | nil => exact List.forall₂_nil_left_iff.mp each ▸ .nil
  | cons head _ ih =>
    obtain ⟨tree, rest, htree, hrest, rfl⟩ := List.forall₂_cons_left_iff.mp each
    exact .cons (readOperand_eq_ok_iff.mpr ⟨_, head, htree⟩) (ih hrest)

/-- An instantiation denotes the tree of its head and its arguments, however they are read. -/
theorem denotes_genericInstance {address : Address} {generic : GenericClass} {row : TypeDefinition}
    {instantiation : GenericInstantiation} {addresses : List Address} {trees : List TypeTree}
    (shape : usage.shape = .ok (.composite (.genericInstance address)))
    (head : store.genericClass address = .ok generic)
    (found : store.definition generic.definition = .ok row)
    (applies : store.instantiation generic.instantiation = .ok instantiation)
    (listed : store.argumentAddresses instantiation.arguments instantiation.argumentCount =
      .ok addresses)
    (each : List.Forall₂
      (fun address tree => ∃ operand, store.usageAt address = .ok operand ∧
        Denotes store operand tree) addresses trees) :
    Denotes store usage (.genericInstance generic.definition trees) := by
  obtain ⟨operands, hoperands, hall⟩ := exists_operands each
  refine .genericInstance shape head found applies listed hoperands hall.length_eq.symm ?_
  intro position operand tree hoperand htree
  obtain ⟨bound, rfl⟩ := List.getElem?_eq_some_iff.mp hoperand
  obtain ⟨bound', rfl⟩ := List.getElem?_eq_some_iff.mp htree
  exact (List.forall₂_iff_get.mp hall).2 position bound bound'

theorem depths_le_of_forall₂ {xs : List α} {trees : List TypeTree}
    (h : List.Forall₂ (fun _ tree => TypeTree.depth tree ≤ levels) xs trees) :
    TypeTree.depths trees ≤ levels := by
  induction h with
  | nil => exact Nat.zero_le _
  | cons head _ ih => exact Nat.max_le.mpr ⟨head, ih⟩

/-- What is read of a composite is denoted by it, and one level deeper than its operands. -/
theorem denotes_of_readComposite {inner : TypeUsage → Except Fault TypeTree}
    (each : ∀ operand tree, inner operand = .ok tree →
      Denotes store operand tree ∧ tree.depth ≤ levels)
    {found : Composite} (shape : usage.shape = .ok (.composite found))
    (read : store.readComposite inner found = .ok tree) :
    Denotes store usage tree ∧ tree.depth ≤ levels + 1 := by
  cases found with
  | genericInstance address =>
    obtain ⟨generic, hgeneric, read⟩ := bind_eq_ok_iff.mp read
    obtain ⟨row, hrow, read⟩ := bind_eq_ok_iff.mp read
    obtain ⟨instantiation, happlies, read⟩ := bind_eq_ok_iff.mp read
    obtain ⟨addresses, hlisted, read⟩ := bind_eq_ok_iff.mp read
    obtain ⟨trees, htrees, read⟩ := bind_eq_ok_iff.mp read
    obtain rfl := Except.ok.inj read
    rw [mapM_eq_ok_iff] at htrees
    refine ⟨denotes_genericInstance shape hgeneric hrow happlies hlisted ?_, ?_⟩
    · refine htrees.imp fun address tree h => ?_
      obtain ⟨operand, hoperand, hinner⟩ := readOperand_eq_ok_iff.mp h
      exact ⟨operand, hoperand, (each operand tree hinner).1⟩
    · refine Nat.succ_le_succ (depths_le_of_forall₂ (htrees.imp fun address tree h => ?_))
      obtain ⟨operand, _, hinner⟩ := readOperand_eq_ok_iff.mp h
      exact (each operand tree hinner).2
  | array address =>
    obtain ⟨descriptor, hdescriptor, read⟩ := bind_eq_ok_iff.mp read
    obtain ⟨rank, hrank, read⟩ := bind_eq_ok_iff.mp read
    obtain ⟨element, helement, read⟩ := bind_eq_ok_iff.mp read
    obtain rfl := Except.ok.inj read
    obtain ⟨operand, hoperand, hinner⟩ := readOperand_eq_ok_iff.mp helement
    obtain ⟨hdenotes, hdepth⟩ := each operand element hinner
    obtain ⟨hcounted, hranked⟩ := ArrayDescriptor.checkedRank_eq_ok_iff.mp hrank
    exact ⟨.array shape hdescriptor hcounted hranked hoperand hdenotes, Nat.succ_le_succ hdepth⟩
  | vector address =>
    obtain ⟨element, helement, read⟩ := bind_eq_ok_iff.mp read
    obtain rfl := Except.ok.inj read
    obtain ⟨operand, hoperand, hinner⟩ := readOperand_eq_ok_iff.mp helement
    obtain ⟨hdenotes, hdepth⟩ := each operand element hinner
    exact ⟨.vector shape hoperand hdenotes, Nat.succ_le_succ hdepth⟩
  | pointer address =>
    obtain ⟨pointee, hpointee, read⟩ := bind_eq_ok_iff.mp read
    obtain rfl := Except.ok.inj read
    obtain ⟨operand, hoperand, hinner⟩ := readOperand_eq_ok_iff.mp hpointee
    obtain ⟨hdenotes, hdepth⟩ := each operand pointee hinner
    exact ⟨.pointer shape hoperand hdenotes, Nat.succ_le_succ hdepth⟩

theorem denotes_of_readByShape {nested : Composite → Except Fault TypeTree}
    (each : ∀ found tree, usage.shape = .ok (.composite found) → nested found = .ok tree →
      Denotes store usage tree ∧ tree.depth ≤ levels)
    (read : store.readByShape nested usage = .ok tree) :
    Denotes store usage tree ∧ tree.depth ≤ levels := by
  obtain ⟨shape, hshape, read⟩ := bind_eq_ok_iff.mp read
  cases shape with
  | definition index =>
    obtain ⟨row, hrow, read⟩ := bind_eq_ok_iff.mp read
    obtain rfl := Except.ok.inj read
    exact ⟨.definition hshape hrow, Nat.zero_le _⟩
  | primitive kind index =>
    obtain ⟨row, hrow, read⟩ := bind_eq_ok_iff.mp read
    obtain rfl := Except.ok.inj read
    exact ⟨.primitive hshape hrow, Nat.zero_le _⟩
  | genericParameter index ofMethod =>
    obtain ⟨row, hrow, read⟩ := bind_eq_ok_iff.mp read
    obtain rfl := Except.ok.inj read
    exact ⟨.genericParameter hshape hrow, Nat.zero_le _⟩
  | composite found => exact each found tree hshape read

/-- What is read of a usage is denoted by it, and lies within the levels. -/
theorem denotes_of_readTree (read : store.readTree limit levels usage = .ok tree) :
    Denotes store usage tree ∧ tree.depth ≤ levels := by
  induction levels generalizing usage tree with
  | zero =>
    refine denotes_of_readByShape (fun found tree _ refused => ?_) read
    cases refused
  | succ levels ih =>
    exact denotes_of_readByShape
      (fun found tree shape read => denotes_of_readComposite (fun _ _ => ih) shape read) read

theorem readTree_of_composite {found : Composite}
    (shape : usage.shape = .ok (.composite found)) :
    store.readTree limit (levels + 1) usage =
      store.readComposite (store.readTree limit levels) found := by
  rw [readTree, readByShape, shape]
  rfl

theorem readOperand_of_eq {address : Address} {operand : TypeUsage}
    (reads : store.usageAt address = .ok operand) (inner : TypeUsage → Except Fault TypeTree) :
    store.readOperand inner address = inner operand := by
  rw [readOperand, reads]
  rfl

/-- What a usage denotes is read, if there are levels enough. -/
theorem readTree_of_denotes (h : Denotes store usage tree) (deep : tree.depth ≤ levels) :
    store.readTree limit levels usage = .ok tree := by
  induction h generalizing levels with
  | definition shape found | primitive shape found | genericParameter shape found =>
    cases levels <;> rw [readTree, readByShape, shape] <;> simp [found, bind, Except.bind] <;> rfl
  | genericInstance shape head found applies listed reads count each ih =>
    cases levels with
    | zero => exact absurd deep (Nat.not_succ_le_zero _)
    | succ levels =>
      have htrees : List.Forall₂
          (fun operand tree => store.readTree limit levels operand = .ok tree) _ _ :=
        forall₂_of_getElem? count fun position operand tree hoperand htree =>
          ih position operand tree hoperand htree <|
            Nat.le_trans (TypeTree.depth_le_depths (List.mem_of_getElem? htree))
              (Nat.le_of_succ_le_succ deep)
      rw [readTree_of_composite shape, readComposite, head]
      simp only [found, applies, listed, mapM_readOperand reads htrees, bind, Except.bind]
      rfl
  | array shape described counted ranked reads inner ih =>
    cases levels with
    | zero => exact absurd deep (Nat.not_succ_le_zero _)
    | succ levels =>
      have hrank := ArrayDescriptor.checkedRank_eq_ok_iff.mpr ⟨counted, ranked⟩
      rw [readTree_of_composite shape, readComposite, described]
      simp only [hrank, readOperand_of_eq reads, ih (Nat.le_of_succ_le_succ deep), bind,
        Except.bind]
      rfl
  | vector shape reads inner ih | pointer shape reads inner ih =>
    cases levels with
    | zero => exact absurd deep (Nat.not_succ_le_zero _)
    | succ levels =>
      rw [readTree_of_composite shape, readComposite, readOperand_of_eq reads,
        ih (Nat.le_of_succ_le_succ deep)]
      rfl

/-- **Reading yields what is denoted**, if it is not too deep. -/
theorem readTree_eq_ok_iff :
    store.readTree limit levels usage = .ok tree ↔ Denotes store usage tree ∧ tree.depth ≤ levels :=
  ⟨denotes_of_readTree, fun h => readTree_of_denotes h.1 h.2⟩

/-! ### Definitions -/

/-- Reads the tree of the usage that a definition derives from. -/
def readParent (store : Store) (limit : Nat) (row : TypeDefinition) :
    Except Fault (Option TypeTree) :=
  row.parent.mapM fun parent => do store.readTree limit limit (← store.usage parent)

/-- Reads everything that filling a definition reads. Whom the members are read for makes no
difference to what can go wrong, so they are read for the default handle. -/
def readDefinition (store : Store) (limit : Nat) (index : DefinitionIndex) :
    Except Fault (Option TypeTree) := do
  let row ← store.definition index
  let _namespaceName ← store.string row.namespaceName
  let _name ← store.string row.name
  let parent ← store.readParent limit row
  let _fields ← row.readFields store default
  let _methods ← row.readMethods store default
  return parent

/-- Whom the fields of a definition are read for makes no difference to what can go wrong. -/
theorem outcome_readFields (row : TypeDefinition) (owner owner' : TypeId) :
    outcome (row.readFields store owner) = outcome (row.readFields store owner') := by
  refine outcome_mapM (fun index => ?_) _
  exact outcome_bind fun fieldRow => outcome_bind fun name => rfl

/-- Whom the methods of a definition are read for makes no difference either. -/
theorem outcome_readMethods (row : TypeDefinition) (owner owner' : TypeId) :
    outcome (row.readMethods store owner) = outcome (row.readMethods store owner') := by
  refine outcome_mapM (fun index => ?_) _
  exact outcome_bind fun methodRow => outcome_bind fun parameters => outcome_bind fun name => rfl

/-- A parent is read if its usage denotes a tree that is not too deep. -/
theorem readParent_eq_ok_iff {row : TypeDefinition} {parent : Option TypeTree} :
    store.readParent limit row = .ok parent ↔
      match row.parent, parent with
      | none, none => True
      | some index, some tree => ∃ usage, store.usage index = .ok usage ∧
          Denotes store usage tree ∧ tree.depth ≤ limit
      | _, _ => False := by
  rw [readParent]
  cases row.parent with
  | none => cases parent <;> simp [pure, Except.pure]
  | some index =>
    rw [Option.mapM_some, map_eq_ok_iff]
    cases parent with
    | none => simp
    | some tree =>
      simp only [Option.some.injEq, exists_eq_right]
      exact bind_eq_ok_iff.trans (exists_congr fun usage => and_congr_right' readTree_eq_ok_iff)

theorem readDefinition_eq_ok_iff {index : DefinitionIndex} {parent : Option TypeTree} :
    store.readDefinition limit index = .ok parent ↔
      ∃ row, store.definition index = .ok row ∧
        (∃ namespaceName, store.string row.namespaceName = .ok namespaceName) ∧
        (∃ name, store.string row.name = .ok name) ∧ store.readParent limit row = .ok parent ∧
        (∃ fields, row.readFields store default = .ok fields) ∧
        ∃ methods, row.readMethods store default = .ok methods := by
  simp only [readDefinition, bind_eq_ok_iff]
  refine exists_congr fun row => and_congr_right' ?_
  constructor
  · rintro ⟨namespaceName, hnamespaceName, name, hname, parent', hparent, fields, hfields, methods,
      hmethods, h⟩
    obtain rfl := Except.ok.inj h
    exact ⟨⟨_, hnamespaceName⟩, ⟨_, hname⟩, hparent, ⟨_, hfields⟩, ⟨_, hmethods⟩⟩
  · rintro ⟨⟨namespaceName, hnamespaceName⟩, ⟨name, hname⟩, hparent, ⟨fields, hfields⟩, ⟨methods,
      hmethods⟩⟩
    exact ⟨_, hnamespaceName, _, hname, _, hparent, _, hfields, _, hmethods, rfl⟩

end Store

end TypeGraph
