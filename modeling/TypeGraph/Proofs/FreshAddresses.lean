import Mathlib
import TypeGraph.Proofs.Accrual

/-!
# Fresh addresses

A store hands out addresses by counting. It never hands one out twice, as long as there are any
left, so a record that lives at an address of the store's own choice is safe from all that the store
places later.

The counter knows nothing of the records that callers place by hand, though. Such a record is safe
at an address that was handed out before. At one that was not, the counter comes along some time
later, and the record that the store maps then replaces the first.

## Main definitions

* `Store.Edit.taken`, `Store.takenAddresses` — the addresses that are handed out
* `Store.Edit.chosen?`, `Store.chosenAddresses` — the addresses that callers choose for records
* `Store.ReadsAlike` — every reader finds the same at an address
* `Store.TakesFresh` — what becomes of the addresses that an edit takes

## Main results

* `Store.mem_mapped_build` — where records are mapped
* `Store.getElem?_mapped_apply_of_not_mem` — an edit touches no other address than those that are
  taken or chosen for it
* `Store.takesFresh` — a handed out address is free exactly if no caller has placed a record there
-/

namespace TypeGraph

namespace Store

variable {store store' : Store} {strings : StringHeap} {history : List Edit} {edit : Edit}
  {count : Nat} {α : Type} {address : Address} {record : MappedRecord}

/-! ### Addresses that are handed out -/

/-- The `n` addresses that are handed out after `count` others. -/
def addressesFrom (count n : Nat) : List Address :=
  (List.range n).map fun step => nthAddress (count + step)

theorem mem_addressesFrom {n : Nat} :
    address ∈ addressesFrom count n ↔ ∃ step < n, nthAddress (count + step) = address := by
  simp only [addressesFrom, List.mem_map, List.mem_range]

theorem addressesFrom_add (count n m : Nat) :
    addressesFrom count (n + m) = addressesFrom count n ++ addressesFrom (count + n) m := by
  simp only [addressesFrom, List.range_add, List.map_append, List.map_map, Function.comp_def,
    Nat.add_assoc]

/-- The addresses that are handed out for an edit, given how many were handed out before. -/
def Edit.taken (count : Nat) (edit : Edit) : List Address := addressesFrom count edit.addressCount

/-- The addresses that are handed out in a history. -/
def takenAddresses (history : List Edit) : List Address := gather Edit.taken 0 history

/-- What a history comes to is what its edits come to. -/
theorem mem_gather {note : Nat → Edit → List α} {noted : α} :
    noted ∈ gather note count history ↔ ∃ earlier edit later,
      history = earlier ++ edit :: later ∧ noted ∈ note (count + addressCount earlier) edit := by
  induction history generalizing count with
  | nil => simp [gather]
  | cons head rest ih =>
    rw [gather, List.mem_append, ih]
    constructor
    · rintro (now | ⟨earlier, edit, later, rfl, mem⟩)
      · exact ⟨[], head, rest, rfl, now⟩
      · refine ⟨head :: earlier, edit, later, rfl, ?_⟩
        rwa [addressCount, ← Nat.add_assoc]
    · rintro ⟨earlier, edit, later, split, mem⟩
      cases earlier with
      | nil =>
        obtain ⟨rfl, rfl⟩ := List.cons.inj split
        exact .inl mem
      | cons first earlier =>
        obtain ⟨rfl, rfl⟩ := List.cons.inj split
        rw [addressCount, ← Nat.add_assoc] at mem
        exact .inr ⟨earlier, edit, later, rfl, mem⟩

/-- The addresses that are handed out in a history follow one another. -/
theorem gather_taken (count : Nat) (history : List Edit) :
    gather Edit.taken count history = addressesFrom count (addressCount history) := by
  induction history generalizing count with
  | nil => rfl
  | cons edit rest ih => rw [gather, ih, addressCount, addressesFrom_add, Edit.taken]

theorem toNat_nthAddress {n : Nat} (h : n < 2 ^ 59) :
    (nthAddress n).value.toNat = 0x1000 + 0x10 * n := by
  refine UInt64.toNat_ofNat_of_lt' ?_
  rw [UInt64.size]
  omega

/-- The store's counter does not come back to an address. -/
theorem nthAddress_inj {n m : Nat} (hn : n < 2 ^ 59) (hm : m < 2 ^ 59)
    (h : nthAddress n = nthAddress m) : n = m := by
  have hvalues := congrArg (·.value.toNat) h
  simp only [toNat_nthAddress hn, toNat_nthAddress hm] at hvalues
  omega

/-- **What an edit takes was not handed out before.** -/
theorem not_mem_takenAddresses (fits : addressCount history + edit.addressCount < 2 ^ 59)
    (h : address ∈ edit.taken (addressCount history)) : address ∉ takenAddresses history := by
  intro before
  obtain ⟨step, hstep, rfl⟩ := mem_addressesFrom.mp h
  rw [takenAddresses, gather_taken] at before
  obtain ⟨place, hplace, same⟩ := mem_addressesFrom.mp before
  have := nthAddress_inj (by omega) (by omega) same
  omega

/-- What an edit answers with is among what it takes. -/
theorem mem_taken_of_mem_answered (h : address ∈ edit.answered count) :
    address ∈ edit.taken count := by
  cases edit with
  | mapInstantiation arguments =>
    obtain rfl := List.mem_singleton.mp h
    exact mem_addressesFrom.mpr ⟨1, Nat.one_lt_two, rfl⟩
  | allocate | mapUsage | mapGenericClass | mapArray =>
    obtain rfl := List.mem_singleton.mp h
    exact mem_addressesFrom.mpr ⟨0, Nat.one_pos, rfl⟩
  | _ => cases h

/-- No edit answers with an address that was not handed out for it. -/
theorem mem_taken_of_apply (h : store.HandedOut count)
    (answer : (store.apply edit).1 = .address address) : address ∈ edit.taken count := by
  refine mem_taken_of_mem_answered ?_
  rw [← address?_apply h, answer]
  exact List.mem_singleton_self _

theorem mem_takenAddresses_of_mem_receipts (h : .address address ∈ receipts strings history) :
    address ∈ takenAddresses history := by
  have hanswer : address ∈ (receipts strings history).filterMap Receipt.address? :=
    List.mem_filterMap.mpr ⟨_, h, rfl⟩
  rw [receipts, addresses_applyEach (handedOut_withStrings strings)] at hanswer
  obtain ⟨earlier, edit, later, split, mem⟩ := mem_gather.mp hanswer
  exact mem_gather.mpr ⟨earlier, edit, later, split, mem_taken_of_mem_answered mem⟩

/-! ### Addresses where records are mapped -/

/-- The address that a caller chooses for a record. -/
def Edit.chosen? : Edit → Option Address
  | .mapRecord address _ => some address
  | _ => none

/-- The addresses that callers choose for records in a history. -/
def chosenAddresses (history : List Edit) : List Address := history.filterMap Edit.chosen?

/-- A record is mapped at an address that was taken for it, or at one that was chosen for it. -/
theorem mem_taken_or_chosen (h : (address, record) ∈ edit.mappings count) :
    address ∈ edit.taken count ∨ edit.chosen? = some address := by
  cases edit with
  | mapRecord place placed =>
    obtain ⟨rfl, rfl⟩ := Prod.mk.inj (List.mem_singleton.mp h)
    exact .inr rfl
  | mapInstantiation arguments =>
    refine .inl (mem_addressesFrom.mpr ?_)
    rcases List.mem_cons.mp h with list | instantiation
    · exact ⟨0, Nat.two_pos, (congrArg Prod.fst list).symm⟩
    · exact ⟨1, Nat.one_lt_two, (congrArg Prod.fst (List.mem_singleton.mp instantiation)).symm⟩
  | pushUsage | mapUsage | mapGenericClass | mapArray =>
    refine .inl (mem_addressesFrom.mpr ⟨0, Nat.one_pos, ?_⟩)
    exact (congrArg Prod.fst (List.mem_singleton.mp h)).symm
  | _ => cases h

theorem mem_mapEach {mappings : List (Address × MappedRecord)}
    {mapped : Std.HashMap Address MappedRecord} : address ∈ mapEach mappings mapped ↔
      (∃ record, (address, record) ∈ mappings) ∨ address ∈ mapped := by
  induction mappings generalizing mapped with
  | nil => simp [mapEach]
  | cons mapping rest ih =>
    rw [mapEach, List.foldl_cons]
    refine ih.trans ?_
    rw [Std.HashMap.mem_insert]
    obtain ⟨place, record⟩ := mapping
    constructor
    · rintro (⟨record', later⟩ | same | before)
      · exact .inl ⟨record', List.mem_cons_of_mem _ later⟩
      · exact .inl ⟨record, eq_of_beq same ▸ List.mem_cons_self⟩
      · exact .inr before
    · rintro (⟨record', mem⟩ | before)
      · rcases List.mem_cons.mp mem with now | later
        · exact .inr (.inl (beq_iff_eq.mpr (congrArg Prod.fst now).symm))
        · exact .inl ⟨record', later⟩
      · exact .inr (.inr before)

/-- **Records are mapped nowhere else** than at the addresses that were handed out and those that
callers chose. -/
theorem mem_mapped_build (h : address ∈ (build strings history).mapped) :
    address ∈ takenAddresses history ∨ address ∈ chosenAddresses history := by
  rw [build, mapped_applyEach (handedOut_withStrings strings), mem_mapEach] at h
  rcases h with ⟨record, mem⟩ | none
  · obtain ⟨earlier, edit, later, rfl, now⟩ := mem_gather.mp mem
    rcases mem_taken_or_chosen now with taken | chosen
    · exact .inl (mem_gather.mpr ⟨earlier, edit, later, rfl, taken⟩)
    · exact .inr (List.mem_filterMap.mpr ⟨edit, by simp, chosen⟩)
  · exact absurd none Std.HashMap.not_mem_emptyWithCapacity

/-- A record is mapped wherever a caller placed one. -/
theorem mem_mapped_of_chosen (h : address ∈ chosenAddresses history) :
    address ∈ (build strings history).mapped := by
  obtain ⟨edit, mem, chosen⟩ := List.mem_filterMap.mp h
  obtain ⟨earlier, later, split⟩ := List.append_of_mem mem
  rw [build, mapped_applyEach (handedOut_withStrings strings), mem_mapEach]
  cases edit with
  | mapRecord place record =>
    obtain rfl := Option.some.inj chosen
    exact .inl ⟨record, mem_gather.mpr ⟨earlier, _, later, split, List.mem_singleton_self _⟩⟩
  | _ => cases chosen

/-- An edit touches no other address than those that are taken or chosen for it. -/
theorem getElem?_mapped_apply_of_not_mem (h : store.HandedOut count)
    (untaken : address ∉ edit.taken count) (unchosen : edit.chosen? ≠ some address) :
    (store.apply edit).2.mapped[address]? = store.mapped[address]? := by
  rw [mapped_apply h]
  refine getElem?_mapEach_of_forall_ne ?_
  rintro ⟨place, record⟩ mem rfl
  rcases mem_taken_or_chosen mem with taken | chosen
  · exact untaken taken
  · exact unchosen chosen

/-- What an edit maps takes the place of whatever was mapped there. -/
theorem getElem?_mapped_apply_of_mem (h : store.HandedOut count)
    (fits : count + edit.addressCount < 2 ^ 59) (mem : (address, record) ∈ edit.mappings count) :
    (store.apply edit).2.mapped[address]? = some record := by
  rw [mapped_apply h]
  cases edit with
  | mapInstantiation arguments =>
    rcases List.mem_cons.mp mem with list | instantiation
    · obtain ⟨rfl, rfl⟩ := Prod.mk.inj list
      -- the instantiation is mapped after the list, at an address of its own
      have hbound : count + 2 < 2 ^ 59 := fits
      have hother : nthAddress (count + 1) ≠ nthAddress count := fun same =>
        Nat.succ_ne_self count (nthAddress_inj (by omega) (by omega) same)
      refine (Std.HashMap.getElem?_insert).trans ?_
      rw [if_neg (by simpa using hother)]
      exact Std.HashMap.getElem?_insert_self
    · obtain ⟨rfl, rfl⟩ := Prod.mk.inj (List.mem_singleton.mp instantiation)
      exact Std.HashMap.getElem?_insert_self
  | pushUsage | mapUsage | mapGenericClass | mapArray | mapRecord =>
    obtain ⟨rfl, rfl⟩ := Prod.mk.inj (List.mem_singleton.mp mem)
    exact Std.HashMap.getElem?_insert_self
  | _ => cases mem

/-! ### Readers -/

/-- Every reader finds the same at an address in two stores. -/
structure ReadsAlike (store store' : Store) (address : Address) : Prop where
  usageAt : store'.usageAt address = store.usageAt address
  genericClass : store'.genericClass address = store.genericClass address
  instantiation : store'.instantiation address = store.instantiation address
  arrayDescriptor : store'.arrayDescriptor address = store.arrayDescriptor address
  argumentAddresses (count : UInt32) :
    store'.argumentAddresses address count = store.argumentAddresses address count

/-- What is read at an address depends on the record there alone. -/
theorem recordAt_congr (h : store'.mapped[address]? = store.mapped[address]?)
    (expected : RecordKind) (select : MappedRecord → Option α) :
    store'.recordAt expected select address = store.recordAt expected select address := by
  rw [recordAt, recordAt, h]

theorem readsAlike_of_getElem?_eq (h : store'.mapped[address]? = store.mapped[address]?) :
    ReadsAlike store store' address where
  usageAt := recordAt_congr h _ _
  genericClass := recordAt_congr h _ _
  instantiation := recordAt_congr h _ _
  arrayDescriptor := recordAt_congr h _ _
  argumentAddresses count := by
    rw [argumentAddresses, argumentAddresses, argumentList, argumentList, recordAt_congr h]

/-- What becomes of the addresses that an edit takes, and of the records there, once a store went
through a history. -/
structure TakesFresh (strings : StringHeap) (history : List Edit) (edit : Edit) : Prop where
  /-- The address that is taken first, if any is, is the one that allocating answers with. -/
  next : (build strings history).allocate.1 = nthAddress (addressCount history)
  answers {address : Address} : ((build strings history).apply edit).1 = .address address →
    address ∈ edit.taken (addressCount history)
  unissued {address : Address} : address ∈ edit.taken (addressCount history) →
    address ∉ takenAddresses history ∧ .address address ∉ receipts strings history
  /-- A handed out address is free unless a caller was there first. -/
  unmapped_iff {address : Address} : address ∈ edit.taken (addressCount history) →
    (address ∉ (build strings history).mapped ↔ address ∉ chosenAddresses history)
  /-- If no caller was there first, all records stay what they are, but for one that the edit itself
  places by hand. -/
  spares : (∀ address ∈ edit.taken (addressCount history), address ∉ chosenAddresses history) →
    ∀ address ∈ (build strings history).mapped, edit.chosen? ≠ some address →
      ReadsAlike (build strings history) ((build strings history).apply edit).2 address
  /-- What is mapped replaces what a caller may have placed there. -/
  occupies {address : Address} {record : MappedRecord} :
    (address, record) ∈ edit.mappings (addressCount history) →
      ((build strings history).apply edit).2.mapped[address]? = some record

/-- **A handed out address is free exactly if no caller has placed a record there**, and then
nothing that was mapped before is read differently. -/
theorem takesFresh (strings : StringHeap) (history : List Edit) (edit : Edit)
    (fits : addressCount history + edit.addressCount < 2 ^ 59) :
    TakesFresh strings history edit := by
  have hcounted := handedOut_build strings history
  constructor
  case next => exact hcounted.allocate_fst
  case answers => exact mem_taken_of_apply hcounted
  case unissued =>
    intro address taken
    have hfresh := not_mem_takenAddresses fits taken
    exact ⟨hfresh, fun answered => hfresh (mem_takenAddresses_of_mem_receipts answered)⟩
  case unmapped_iff =>
    intro address taken
    refine not_congr ⟨fun mapped => ?_, mem_mapped_of_chosen⟩
    exact (mem_mapped_build mapped).resolve_left (not_mem_takenAddresses fits taken)
  case spares =>
    intro free address mapped unchosen
    have huntaken : address ∉ edit.taken (addressCount history) := by
      intro taken
      rcases mem_mapped_build mapped with before | chosen
      · exact not_mem_takenAddresses fits taken before
      · exact free address taken chosen
    exact readsAlike_of_getElem?_eq (getElem?_mapped_apply_of_not_mem hcounted huntaken unchosen)
  case occupies => exact getElem?_mapped_apply_of_mem hcounted fits

/-- A caller asks for an address and places an array there. -/
def settled : List Edit := [.allocate, .mapRecord ⟨0x1000⟩ (.arrayDescriptor { rank := 1 })]

/-- An array that was placed where the caller was told to is still there once the store has mapped a
usage. -/
theorem takesFresh_settled : addressCount settled + (Edit.mapUsage {}).addressCount < 2 ^ 59 ∧
    (build .empty settled).arrayDescriptor ⟨0x1000⟩ = .ok { rank := 1 } ∧
      ReadsAlike (build .empty settled) ((build .empty settled).apply (.mapUsage {})).2
        ⟨0x1000⟩ := by
  have hfits : addressCount settled + (Edit.mapUsage {}).addressCount < 2 ^ 59 := by decide
  have hfree : ∀ address ∈ (Edit.mapUsage {}).taken (addressCount settled),
      address ∉ chosenAddresses settled := by decide
  have hmapped : ⟨0x1000⟩ ∈ (build .empty settled).mapped := Std.HashMap.mem_insert_self
  have hspared := (takesFresh .empty settled (.mapUsage {}) hfits).spares hfree ⟨0x1000⟩ hmapped
  exact ⟨hfits, by cbv, hspared (by decide)⟩

/-- A caller places an array where the store was about to place something itself. -/
def unasked : List Edit := [.mapRecord ⟨0x1000⟩ (.arrayDescriptor { rank := 1 })]

/-- The address that is handed out next is in use already, and the first record that the store maps
replaces the array there. -/
theorem record_replaced_unasked :
    addressCount unasked + (Edit.pushUsage (.definition ⟨0⟩)).addressCount < 2 ^ 59 ∧
      (build .empty unasked).allocate.1 ∈ (build .empty unasked).mapped ∧
        (build .empty unasked).arrayDescriptor ⟨0x1000⟩ = .ok { rank := 1 } ∧
          ((build .empty unasked).apply (.pushUsage (.definition ⟨0⟩))).2.arrayDescriptor ⟨0x1000⟩ =
            .error (.malformed (.wrongRecord .arrayDescriptor ⟨0x1000⟩ .usage)) :=
  ⟨by decide, Std.HashMap.mem_insert_self, by cbv, by cbv⟩

end Store

end TypeGraph
