import Mathlib
import TypeGraph.Proofs.Accrual

/-!
# A store refines its history

Whatever is read of a store can be told from its history. A handle that a push answered with reads
the row that was pushed, and all that can have happened to it since are the changes that were made
to that very row, which only type definitions go through. An address reads the record that was
mapped there last, whoever mapped it. A usage that is read through its row is looked up by its
address at that time, so it is the record that is mapped there then.

## Main definitions

* `Store.Lists` — a table is read as a list of rows
* `Store.LastAt` — a record is the last one that was mapped at an address
* `Store.Holds` — a store holds the records that were placed in it
* `Store.Finds`, `Store.FindsArguments` — records are read as they were last mapped
* `Store.Refines` — a store is read as its history tells

## Main results

* `Store.lists_row`, `Store.Holds.finds_recordAt` — what one reader makes of one table and of one
  sort of record
* `Store.refines_history` — every store refines its history
-/

namespace TypeGraph

namespace Store

variable {store : Store} {history : List Edit} {table : Table} {α : Type} {address : Address}
  {record : MappedRecord} {placed : List (Address × MappedRecord)}

/-! ### Tables -/

/-- A table is read as a list of rows: every handle within it reads its row, and every other one is
reported with the table and its length. -/
structure Lists (read : Index table → Except Fault α) (rows : List α) : Prop where
  within {index : Index table} (h : index.toNat < rows.length) : read index = .ok rows[index.toNat]
  past {index : Index table} (h : rows.length ≤ index.toNat) :
    read index = .error (.indexOutOfRange table index.toNat rows.length)

theorem lists_row {rows : Array α} {listed : List α} (h : rows.toList = listed) :
    Lists (row rows : Index table → Except Fault α) listed := by
  subst h
  exact ⟨fun within => row_of_lt within, fun past => row_of_le past⟩

/-! ### Mapped records -/

/-- A record is the last one that was mapped at an address. -/
def LastAt (placed : List (Address × MappedRecord)) (address : Address) (record : MappedRecord) :
    Prop :=
  ∃ earlier later, placed = earlier ++ (address, record) :: later ∧
    ∀ mapping ∈ later, mapping.1 ≠ address

/-- The record that was mapped at an address last is the one that is there. -/
theorem LastAt.getElem?_mapEach (h : LastAt placed address record)
    (mapped : Std.HashMap Address MappedRecord) :
    (mapEach placed mapped)[address]? = some record := by
  obtain ⟨earlier, later, rfl, hlater⟩ := h
  have hsplit : mapEach (earlier ++ (address, record) :: later) mapped =
      mapEach later ((mapEach earlier mapped).insert address record) := List.foldl_append
  rw [hsplit, getElem?_mapEach_of_forall_ne hlater, Std.HashMap.getElem?_insert_self]

/-- Records of one sort are read as they were last mapped, and a record of another sort, or none, is
reported. -/
structure Finds (placed : List (Address × MappedRecord)) (expected : RecordKind)
    (wrap : α → MappedRecord) (read : Address → Except Fault α) : Prop where
  last {address : Address} {found : α} :
    LastAt placed address (wrap found) → read address = .ok found
  other {address : Address} {record : MappedRecord} :
    LastAt placed address record → record.kind ≠ expected →
      read address = .error (.malformed (.wrongRecord expected address record.kind))
  never {address : Address} : (∀ mapping ∈ placed, mapping.1 ≠ address) →
    read address = .error (.malformed (.unmapped expected address))

/-- A store holds the records that were placed in it, one after the other, and no others. -/
def Holds (store : Store) (placed : List (Address × MappedRecord)) : Prop :=
  store.mapped = mapEach placed Std.HashMap.emptyWithCapacity

theorem holds_mappings (strings : StringHeap) (history : List Edit) :
    (build strings history).Holds (mappings history) :=
  mapped_applyEach (handedOut_withStrings strings) history

/-- **A reader finds what was mapped last**, if it takes apart the records of its own sort and
refuses all others. -/
theorem Holds.finds_recordAt {expected : RecordKind} {wrap : α → MappedRecord}
    {select : MappedRecord → Option α} (h : store.Holds placed)
    (takes : ∀ found, select (wrap found) = some found)
    (refuses : ∀ record, record.kind ≠ expected → select record = none) :
    Finds placed expected wrap (store.recordAt expected select) where
  last {address found} mapped := by
    rw [recordAt, h, mapped.getElem?_mapEach]
    simp only [takes found]
  other {address record} mapped otherwise := by
    rw [recordAt, h, mapped.getElem?_mapEach]
    simp only [refuses record otherwise]
  never {address} unmapped := by
    rw [recordAt, h, getElem?_mapEach_of_forall_ne unmapped,
      Std.HashMap.getElem?_emptyWithCapacity]

theorem Holds.finds_usageAt (h : store.Holds placed) :
    Finds placed .usage .usage store.usageAt :=
  h.finds_recordAt (fun _ => rfl) fun record other => by
    cases record with
    | usage => exact absurd rfl other
    | _ => rfl

theorem Holds.finds_genericClass (h : store.Holds placed) :
    Finds placed .genericClass .genericClass store.genericClass :=
  h.finds_recordAt (fun _ => rfl) fun record other => by
    cases record with
    | genericClass => exact absurd rfl other
    | _ => rfl

theorem Holds.finds_instantiation (h : store.Holds placed) :
    Finds placed .genericInstantiation .genericInstantiation store.instantiation :=
  h.finds_recordAt (fun _ => rfl) fun record other => by
    cases record with
    | genericInstantiation => exact absurd rfl other
    | _ => rfl

theorem Holds.finds_arrayDescriptor (h : store.Holds placed) :
    Finds placed .arrayDescriptor .arrayDescriptor store.arrayDescriptor :=
  h.finds_recordAt (fun _ => rfl) fun record other => by
    cases record with
    | arrayDescriptor => exact absurd rfl other
    | _ => rfl

theorem Holds.finds_argumentList (h : store.Holds placed) :
    Finds placed .argumentList .argumentList store.argumentList :=
  h.finds_recordAt (fun _ => rfl) fun record other => by
    cases record with
    | argumentList => exact absurd rfl other
    | _ => rfl

/-- Arguments are read from the list that was last mapped, from its beginning and not beyond its
end. -/
structure FindsArguments (placed : List (Address × MappedRecord))
    (read : Address → UInt32 → Except Fault (List Address)) : Prop where
  last {address : Address} {list : List Address} {count : UInt32} :
    LastAt placed address (.argumentList list) → count.toNat ≤ list.length →
      read address count = .ok (list.take count.toNat)
  short {address : Address} {list : List Address} {count : UInt32} :
    LastAt placed address (.argumentList list) → list.length < count.toNat →
      read address count = .error (.indexOutOfRange .genericArgument count.toNat list.length)
  other {address : Address} {record : MappedRecord} {count : UInt32} :
    LastAt placed address record → record.kind ≠ .argumentList →
      read address count = .error (.malformed (.wrongRecord .argumentList address record.kind))
  never {address : Address} {count : UInt32} : (∀ mapping ∈ placed, mapping.1 ≠ address) →
    read address count = .error (.malformed (.unmapped .argumentList address))

theorem Holds.findsArguments (h : store.Holds placed) :
    FindsArguments placed store.argumentAddresses where
  last mapped bound := by
    rw [argumentAddresses, h.finds_argumentList.last mapped]
    exact if_pos bound
  short mapped beyond := by
    rw [argumentAddresses, h.finds_argumentList.last mapped]
    exact if_neg (Nat.not_le_of_lt beyond)
  other mapped otherwise := by
    rw [argumentAddresses, h.finds_argumentList.other mapped otherwise]
    rfl
  never unmapped := by
    rw [argumentAddresses, h.finds_argumentList.never unmapped]
    rfl

/-! ### Stores -/

/-- A store is read as its history tells. -/
structure Refines (strings : StringHeap) (history : List Edit) : Prop where
  /-- The pushes to a table answer with the handles of its rows, one after the other. -/
  handles (table : Table) : (receipts strings history).filterMap (Receipt.handle? table) =
    List.range (pushCount table history)
  addresses : (receipts strings history).filterMap Receipt.address? =
    gather Edit.answered 0 history
  /-- The heap is what interning alone makes of it. -/
  interned :
    ((receipts strings history).filterMap Receipt.offset?, (build strings history).strings) =
      strings.internEach (history.filterMap Edit.string?)
  definitions : Lists (build strings history).definition (definitionsFrom 0 history)
  fields : Lists (build strings history).field (history.filterMap Edit.field?)
  methods : Lists (build strings history).method (history.filterMap Edit.method?)
  parameters : Lists (build strings history).parameter (history.filterMap Edit.parameter?)
  genericParameters : Lists (build strings history).genericParameter
    (history.filterMap Edit.genericParameter?)
  usage_within {index : UsageIndex} (h : index.toNat < (usageAddresses history).length) :
    (build strings history).usage index =
      (build strings history).usageAt (usageAddresses history)[index.toNat]
  usage_past {index : UsageIndex} (h : (usageAddresses history).length ≤ index.toNat) :
    (build strings history).usage index =
      .error (.indexOutOfRange .typeUsage index.toNat (usageAddresses history).length)
  usageAt : Finds (mappings history) .usage .usage (build strings history).usageAt
  genericClass : Finds (mappings history) .genericClass .genericClass
    (build strings history).genericClass
  instantiation : Finds (mappings history) .genericInstantiation .genericInstantiation
    (build strings history).instantiation
  arrayDescriptor : Finds (mappings history) .arrayDescriptor .arrayDescriptor
    (build strings history).arrayDescriptor
  argumentAddresses : FindsArguments (mappings history) (build strings history).argumentAddresses

/-- The first push to a table of a new store answers with handle zero. -/
theorem handles_receipts (strings : StringHeap) (fits : pushCount table history < UInt32.size) :
    (receipts strings history).filterMap (Receipt.handle? table) =
      List.range (pushCount table history) := by
  have hnone : (withStrings strings).rowCount table = 0 := by cases table <;> rfl
  rw [List.range_eq_range', ← hnone]
  refine handles_applyEach history _ ?_
  rw [hnone, Nat.zero_add]
  exact Nat.le_of_lt fits

/-- The rows of a table that is new at first are those that were pushed to it. -/
theorem Notes.build {strings : StringHeap} {rows : Store → Array α} {pushed? : Edit → Option α}
    (h : Notes rows fun _ edit => (pushed? edit).toList)
    (none : (rows (withStrings strings)).toList = []) (history : List Edit) :
    (rows (build strings history)).toList = history.filterMap pushed? := by
  rw [Store.build, h.applyEach (handedOut_withStrings strings), none, gather_toList,
    List.nil_append]

theorem lists_usages (strings : StringHeap) (history : List Edit) :
    Lists (fun index : UsageIndex => row (build strings history).usages index)
      (usageAddresses history) :=
  lists_row (notes_usages.applyEach (handedOut_withStrings strings) history)

/-- **Every store refines its history**, as long as no table has more rows than there are
handles. -/
theorem refines_history (strings : StringHeap) (history : List Edit)
    (fits : ∀ table, pushCount table history < UInt32.size) : Refines strings history where
  handles table := handles_receipts strings (fits table)
  addresses := addresses_applyEach (handedOut_withStrings strings) history
  interned := strings_applyEach history _
  definitions := lists_row (toList_definitions_applyEach history _)
  fields := lists_row (notes_fields.build rfl history)
  methods := lists_row (notes_methods.build rfl history)
  parameters := lists_row (notes_parameters.build rfl history)
  genericParameters := lists_row (notes_genericParameters.build rfl history)
  usage_within within := by
    rw [usage, (lists_usages strings history).within within]
    rfl
  usage_past past := by
    rw [usage, (lists_usages strings history).past past]
    rfl
  usageAt := (holds_mappings strings history).finds_usageAt
  genericClass := (holds_mappings strings history).finds_genericClass
  instantiation := (holds_mappings strings history).finds_instantiation
  arrayDescriptor := (holds_mappings strings history).finds_arrayDescriptor
  argumentAddresses := (holds_mappings strings history).findsArguments

/-- A definition is changed once it is there. A row of the usage table refers to an address where
the store maps a list of arguments first, and a caller maps a usage later. -/
def rewired : List Edit :=
  [.pushUsageAddress ⟨0x1010⟩, .pushDefinition {}, .amendDefinition ⟨0⟩ ({ · with flags := 1 }),
    .pushUsage { kind := 0x08 }, .mapInstantiation [⟨0x1000⟩],
    .mapRecord ⟨0x1010⟩ (.usage { kind := 0x0e })]

/-- Each of the readers finds the last that is known of a row or an address. -/
theorem refines_rewired : (∀ table, pushCount table rewired < UInt32.size) ∧
    (build .empty rewired).definition ⟨0⟩ = .ok { flags := 1 } ∧
      (build .empty rewired).usage ⟨0⟩ = .ok { kind := 0x0e } ∧
        (build .empty rewired).instantiation ⟨0x1020⟩ = .ok ⟨1, ⟨0x1010⟩⟩ ∧
          Refines .empty rewired := by
  have hfits (table : Table) : pushCount table rewired < UInt32.size := by
    cases table <;> decide
  exact ⟨hfits, by cbv, by cbv, by cbv, refines_history .empty rewired hfits⟩

end Store

end TypeGraph
