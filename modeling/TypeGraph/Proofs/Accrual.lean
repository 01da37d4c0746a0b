import Mathlib
import TypeGraph.Proofs.Interning
import TypeGraph.Store.History

/-!
# What a store accrues

One edit adds little to a store: a row to one table, a string to the heap, or a record or two to
what is mapped. What it adds may depend on the addresses that it takes, and those depend on nothing
but how many were handed out before. So every part of a store is followed by itself here, with the
count of addresses beside it. For each part there is a step, which says what one edit leaves there,
and the sum of all steps of a history.

Only the type definitions need more. They are changed after they were pushed, so a row is the sum of
what was pushed and of all later changes that were made to it.

## Main definitions

* `Store.HandedOut` — how many addresses a store has handed out
* `Store.Notes` — what is noted for an edit is what the edit adds to a table
* `Store.mapEach` — maps several records, one after the other
* `Store.rowCount` — how many rows a table has

## Main results

* `Store.Notes.applyEach` — the rows of a table are those that were noted
* `Store.toList_definitions_applyEach` — the type definitions, after all changes
* `Store.strings_applyEach` — the strings are those that were interned
* `Store.mapped_applyEach` — the records that are mapped, and where
* `Store.handles_applyEach`, `Store.addresses_applyEach` — what a history's edits answer
-/

namespace TypeGraph

namespace Store

variable {store : Store} {history : List Edit} {count : Nat} {table : Table} {α : Type}

/-! ### Counting addresses -/

/-- A store has handed out so many addresses. -/
def HandedOut (count : Nat) (store : Store) : Prop := store.nextAddress = (nthAddress count).value

theorem handedOut_withStrings (strings : StringHeap) : (withStrings strings).HandedOut 0 := rfl

theorem nthAddress_succ (count : Nat) :
    (nthAddress (count + 1)).value = (nthAddress count).value + addressStride := by
  have hnext : 0x1000 + 0x10 * (count + 1) = 0x1000 + 0x10 * count + 0x10 := by omega
  rw [nthAddress, nthAddress, hnext]
  exact UInt64.ofNat_add _ _

theorem HandedOut.allocate (h : store.HandedOut count) :
    store.allocate.2.HandedOut (count + 1) := by
  rw [HandedOut, nthAddress_succ, ← h]
  rfl

theorem HandedOut.allocate_fst (h : store.HandedOut count) : store.allocate.1 = nthAddress count :=
  congrArg Address.mk h

/-- An edit takes as many addresses as are counted for it. -/
theorem HandedOut.apply (h : store.HandedOut count) (edit : Edit) :
    (store.apply edit).2.HandedOut (count + edit.addressCount) := by
  cases edit with
  | amendDefinition index change =>
    rw [Store.apply, Prod.map_snd, amendDefinition_snd]
    exact h
  | mapInstantiation arguments => exact h.allocate.allocate
  | allocate | pushUsage | mapUsage | mapGenericClass | mapArray => exact h.allocate
  | _ => exact h

theorem HandedOut.applyEach (h : store.HandedOut count) (history : List Edit) :
    (store.applyEach history).2.HandedOut (count + addressCount history) := by
  induction history generalizing store count with
  | nil => exact h
  | cons edit rest ih =>
    rw [applyEach_cons, addressCount, ← Nat.add_assoc]
    exact ih (h.apply edit)

theorem handedOut_build (strings : StringHeap) (history : List Edit) :
    (build strings history).HandedOut (addressCount history) := by
  have hcounted := (handedOut_withStrings strings).applyEach history
  rwa [Nat.zero_add] at hcounted

/-! ### Rows -/

/-- Every edit adds what is noted for it to the rows of a table, and leaves the others alone. -/
def Notes (rows : Store → Array α) (note : Nat → Edit → List α) : Prop :=
  ∀ {count : Nat} {store : Store}, store.HandedOut count → ∀ edit,
    (rows (store.apply edit).2).toList = (rows store).toList ++ note count edit

/-- **What was noted is what was added.** -/
theorem Notes.applyEach {rows : Store → Array α} {note : Nat → Edit → List α} (h : Notes rows note)
    (counted : store.HandedOut count) (history : List Edit) :
    (rows (store.applyEach history).2).toList =
      (rows store).toList ++ gather note count history := by
  induction history generalizing store count with
  | nil => exact (List.append_nil _).symm
  | cons edit rest ih =>
    rw [applyEach_cons, ih (counted.apply edit), h counted edit, List.append_assoc, gather]

theorem filterMap_cons_eq_append {β : Type} (f : β → Option α) (a : β) (rest : List β) :
    (a :: rest).filterMap f = (f a).toList ++ rest.filterMap f := by
  rw [List.filterMap_cons]
  cases f a <;> rfl

/-- What does not depend on addresses is gathered edit by edit. -/
theorem gather_toList (pushed? : Edit → Option α) (count : Nat) (history : List Edit) :
    gather (fun _ edit => (pushed? edit).toList) count history = history.filterMap pushed? := by
  induction history generalizing count with
  | nil => rfl
  | cons edit rest ih => rw [gather, ih, filterMap_cons_eq_append]

theorem notes_fields : Notes fields fun _ edit => edit.field?.toList := by
  intro _ store _ edit
  cases edit with
  | pushField row => exact Array.toList_push
  | amendDefinition index change => simp [apply, amendDefinition_snd, Edit.field?]
  | _ => exact (List.append_nil _).symm

theorem notes_methods : Notes methods fun _ edit => edit.method?.toList := by
  intro _ store _ edit
  cases edit with
  | pushMethod row => exact Array.toList_push
  | amendDefinition index change => simp [apply, amendDefinition_snd, Edit.method?]
  | _ => exact (List.append_nil _).symm

theorem notes_parameters : Notes parameters fun _ edit => edit.parameter?.toList := by
  intro _ store _ edit
  cases edit with
  | pushParameter row => exact Array.toList_push
  | amendDefinition index change => simp [apply, amendDefinition_snd, Edit.parameter?]
  | _ => exact (List.append_nil _).symm

theorem notes_genericParameters :
    Notes genericParameters fun _ edit => edit.genericParameter?.toList := by
  intro _ store _ edit
  cases edit with
  | pushGenericParameter row => exact Array.toList_push
  | amendDefinition index change => simp [apply, amendDefinition_snd, Edit.genericParameter?]
  | _ => exact (List.append_nil _).symm

/-- A usage that is pushed together with its address has the address that was handed out for it. -/
theorem notes_usages : Notes usages Edit.usageAddress := by
  intro count store counted edit
  cases edit with
  | pushUsageAddress address => exact Array.toList_push
  | pushUsage usage =>
    rw [Edit.usageAddress, ← counted.allocate_fst]
    exact Array.toList_push
  | amendDefinition index change => simp [apply, amendDefinition_snd, Edit.usageAddress]
  | _ => exact (List.append_nil _).symm

/-- **The type definitions of a store** are those it had before, after all changes that were made to
them, and those that were pushed to it. -/
theorem toList_definitions_applyEach (history : List Edit) (store : Store) :
    (store.applyEach history).2.definitions.toList =
      store.definitions.toList.mapIdx (fun place row => amended place history row) ++
        definitionsFrom store.definitions.size history := by
  induction history generalizing store with
  | nil =>
    rw [definitionsFrom, List.append_nil]
    refine List.ext_getElem? fun place => ?_
    rw [List.getElem?_mapIdx]
    exact Option.map_id'.symm
  | cons edit rest ih =>
    rw [applyEach_cons, ih]
    cases edit with
    | pushDefinition row =>
      simp [apply, pushDefinition, definitionsFrom, amended, Edit.amend, List.mapIdx_append]
    | amendDefinition index change =>
      -- the row that is changed now is changed before all later changes are made to it
      have hpushed (place : Nat) : definitionsFrom place (.amendDefinition index change :: rest) =
          definitionsFrom place rest := rfl
      rw [apply, Prod.map_snd, amendDefinition_snd, id, Array.size_modify, Array.toList_modify,
        hpushed]
      congr 1
      refine List.ext_getElem? fun place => ?_
      rw [List.getElem?_mapIdx, List.getElem?_mapIdx, List.getElem?_modify]
      cases store.definitions.toList[place]? <;> rfl
    | _ => rfl

/-! ### Strings -/

/-- An edit leaves the heap alone unless it interns a string. -/
theorem strings_apply (edit : Edit) (store : Store) :
    ((store.apply edit).1.offset?.toList, (store.apply edit).2.strings) =
      store.strings.internEach edit.string?.toList := by
  cases edit with
  | amendDefinition index change => simp [apply, amendDefinition_snd, Receipt.offset?, Edit.string?]
  | _ => rfl

/-- **The strings of a store** are those that were interned, with the same offsets. -/
theorem strings_applyEach (history : List Edit) (store : Store) :
    ((store.applyEach history).1.filterMap Receipt.offset?, (store.applyEach history).2.strings) =
      store.strings.internEach (history.filterMap Edit.string?) := by
  induction history generalizing store with
  | nil => rfl
  | cons edit rest ih =>
    obtain ⟨hoffset, hstrings⟩ := Prod.mk.inj (strings_apply edit store)
    rw [applyEach_cons, filterMap_cons_eq_append, filterMap_cons_eq_append,
      StringHeap.internEach_append, ← hoffset, ← hstrings, ← ih]

/-! ### Mapped records -/

/-- Maps records, one after the other. -/
def mapEach (mappings : List (Address × MappedRecord))
    (mapped : Std.HashMap Address MappedRecord) : Std.HashMap Address MappedRecord :=
  mappings.foldl (fun mapped mapping => mapped.insert mapping.1 mapping.2) mapped

/-- An edit maps what is counted for it. -/
theorem mapped_apply (h : store.HandedOut count) (edit : Edit) :
    (store.apply edit).2.mapped = mapEach (edit.mappings count) store.mapped := by
  cases edit with
  | mapInstantiation arguments =>
    rw [Edit.mappings, ← h.allocate_fst, ← h.allocate.allocate_fst]
    rfl
  | pushUsage | mapUsage | mapGenericClass | mapArray =>
    rw [Edit.mappings, ← h.allocate_fst]
    rfl
  | amendDefinition index change => simp [apply, amendDefinition_snd, Edit.mappings, mapEach]
  | _ => rfl

theorem mapped_applyEach (h : store.HandedOut count) (history : List Edit) :
    (store.applyEach history).2.mapped =
      mapEach (gather Edit.mappings count history) store.mapped := by
  induction history generalizing store count with
  | nil => rfl
  | cons edit rest ih =>
    rw [applyEach_cons, ih (h.apply edit), mapped_apply h edit, gather]
    exact List.foldl_append.symm

theorem getElem?_mapEach_of_forall_ne {mappings : List (Address × MappedRecord)}
    {mapped : Std.HashMap Address MappedRecord} {address : Address}
    (h : ∀ mapping ∈ mappings, mapping.1 ≠ address) :
    (mapEach mappings mapped)[address]? = mapped[address]? := by
  induction mappings generalizing mapped with
  | nil => rfl
  | cons mapping rest ih =>
    obtain ⟨hne, hrest⟩ := List.forall_mem_cons.mp h
    rw [mapEach, List.foldl_cons]
    refine (ih hrest).trans ?_
    rw [Std.HashMap.getElem?_insert, if_neg]
    simpa using hne

/-! ### Receipts -/

/-- How many rows a table has. -/
def rowCount (table : Table) (store : Store) : Nat :=
  match table with
  | .typeDefinition => store.definitions.size
  | .typeUsage => store.usages.size
  | .field => store.fields.size
  | .method => store.methods.size
  | .parameter => store.parameters.size
  | .genericParameter => store.genericParameters.size
  | .genericArgument | .string => 0

/-- Pushing to a table adds a row and answers with its position. -/
theorem apply_of_table?_eq {edit : Edit} (h : edit.table? = some table) (store : Store) :
    (store.apply edit).1 = .row table (Index.ofNatClamp (store.rowCount table)) ∧
      (store.apply edit).2.rowCount table = store.rowCount table + 1 := by
  cases edit <;> cases h <;> exact ⟨rfl, Array.size_push _⟩

/-- Whatever does not push to a table adds no row to it and does not answer with one. -/
theorem apply_of_table?_ne {edit : Edit} (h : edit.table? ≠ some table) (store : Store) :
    (store.apply edit).1.handle? table = none ∧
      (store.apply edit).2.rowCount table = store.rowCount table := by
  cases edit with
  | amendDefinition index change =>
    rw [apply, Prod.map_snd, amendDefinition_snd]
    cases table <;> simp [rowCount, Receipt.handle?]
  | intern | allocate | mapUsage | mapGenericClass | mapInstantiation | mapArray | mapRecord =>
    cases table <;> exact ⟨rfl, rfl⟩
  | pushDefinition | pushField | pushMethod | pushParameter | pushGenericParameter | pushUsage
  | pushUsageAddress =>
    -- the answer is a row of the one table that the edit pushes to
    refine ⟨if_neg fun same => h (congrArg some same), ?_⟩
    cases table <;> first | exact absurd rfl h | rfl

/-- **The handles that a table's pushes answer with are consecutive**, beginning with the number of
rows that were there before. -/
theorem handles_applyEach (history : List Edit) (store : Store)
    (fits : store.rowCount table + pushCount table history ≤ UInt32.size) :
    (store.applyEach history).1.filterMap (Receipt.handle? table) =
      List.range' (store.rowCount table) (pushCount table history) := by
  induction history generalizing store with
  | nil => rfl
  | cons edit rest ih =>
    rw [applyEach_cons, filterMap_cons_eq_append]
    by_cases hpushes : edit.table? = some table
    · obtain ⟨hanswer, hrows⟩ := apply_of_table?_eq hpushes store
      have hcount : pushCount table (edit :: rest) = pushCount table rest + 1 :=
        List.countP_cons_of_pos (by simpa using hpushes)
      have hrow : store.rowCount table < UInt32.size := by omega
      rw [ih _ (by omega), hrows, hcount, List.range'_succ, hanswer, Receipt.handle?, if_pos rfl,
        Index.toNat_ofNatClamp hrow]
      rfl
    · obtain ⟨hanswer, hrows⟩ := apply_of_table?_ne hpushes store
      have hcount : pushCount table (edit :: rest) = pushCount table rest :=
        List.countP_cons_of_neg (by simpa using hpushes)
      rw [hcount] at fits ⊢
      rw [ih _ (hrows.symm ▸ fits), hrows, hanswer]
      rfl

/-- An edit answers with the address that is counted for it. -/
theorem address?_apply (h : store.HandedOut count) (edit : Edit) :
    (store.apply edit).1.address?.toList = edit.answered count := by
  cases edit with
  | mapInstantiation arguments =>
    exact congrArg (fun address => [address]) h.allocate.allocate_fst
  | allocate | mapUsage | mapGenericClass | mapArray =>
    exact congrArg (fun address => [address]) h.allocate_fst
  | _ => rfl

/-- **The addresses that a history's edits answer with** are those that are counted for them. -/
theorem addresses_applyEach (h : store.HandedOut count) (history : List Edit) :
    (store.applyEach history).1.filterMap Receipt.address? =
      gather Edit.answered count history := by
  induction history generalizing store count with
  | nil => rfl
  | cons edit rest ih =>
    rw [applyEach_cons, filterMap_cons_eq_append, ih (h.apply edit), address?_apply h, gather]

end Store

end TypeGraph
