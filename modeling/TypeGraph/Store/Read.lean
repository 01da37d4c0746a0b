import TypeGraph.Store.Basic

/-!
# Reading a store

Every read is by a typed handle or by an address, and every failure names its cause: an index past
its table, an address where nothing is mapped, or a record of another sort than the one needed.

## Main definitions

* `Store.definition`, `Store.field`, ... — rows
* `Store.usageAt`, `Store.genericClass`, ... — mapped records
* `Store.usage` — the usage that a row of the type usage table points at
* `Store.argumentAddresses` — the arguments of an instantiation

## Main results

* `Store.row_of_lt`, `Store.row_of_le`, `Store.lt_of_row` — reading a row succeeds exactly within
  its table
-/

namespace TypeGraph

namespace Store

/-! ### Rows -/

/-- Reads a row of a table. -/
def row {α : Type} {table : Table} (rows : Array α) (index : Index table) : Except Fault α :=
  match rows[index.toNat]? with
  | some row => .ok row
  | none => .error (.indexOutOfRange table index.toNat rows.size)

/-- An index within its table reads the row there. -/
theorem row_of_lt {α : Type} {table : Table} {rows : Array α} {index : Index table}
    (h : index.toNat < rows.size) : row rows index = .ok rows[index.toNat] := by
  simp [row, h]

/-- An index past its table is reported with the table, the index and the number of rows. -/
theorem row_of_le {α : Type} {table : Table} {rows : Array α} {index : Index table}
    (h : rows.size ≤ index.toNat) :
    row rows index = .error (.indexOutOfRange table index.toNat rows.size) := by
  simp [row, h]

/-- A row can be read only within its table. -/
theorem lt_of_row {α : Type} {table : Table} {rows : Array α} {index : Index table} {found : α}
    (h : row rows index = .ok found) : index.toNat < rows.size := by
  refine Nat.lt_of_not_le fun past => ?_
  rw [row_of_le past] at h
  cases h

/-- Reads a type definition. -/
def definition (store : Store) (index : DefinitionIndex) : Except Fault TypeDefinition :=
  row store.definitions index

/-- Reads a field. -/
def field (store : Store) (index : FieldIndex) : Except Fault FieldRow := row store.fields index

/-- Reads a method. -/
def method (store : Store) (index : MethodIndex) : Except Fault MethodRow :=
  row store.methods index

/-- Reads a parameter. -/
def parameter (store : Store) (index : ParameterIndex) : Except Fault ParameterRow :=
  row store.parameters index

/-- Reads a generic parameter. -/
def genericParameter (store : Store) (index : GenericParameterIndex) :
    Except Fault GenericParameterRow :=
  row store.genericParameters index

/-- Reads a string. -/
def string (store : Store) (offset : StringOffset) : Except Fault String :=
  store.strings.read offset

/-! ### Mapped records -/

/-- Reads the record mapped at an address, for a reader that needs one of the sort `expected`;
`select` takes a record of that sort apart and refuses all others. -/
def recordAt {α : Type} (store : Store) (expected : RecordKind)
    (select : MappedRecord → Option α) (address : Address) : Except Fault α :=
  match store.mapped[address]? with
  | none => .error (.malformed (.unmapped expected address))
  | some record =>
    match select record with
    | some found => .ok found
    | none => .error (.malformed (.wrongRecord expected address record.kind))

/-- Reads the usage mapped at an address. -/
def usageAt (store : Store) (address : Address) : Except Fault TypeUsage :=
  store.recordAt .usage MappedRecord.usage? address

/-- Reads the generic class mapped at an address. -/
def genericClass (store : Store) (address : Address) : Except Fault GenericClass :=
  store.recordAt .genericClass MappedRecord.genericClass? address

/-- Reads the instantiation mapped at an address. -/
def instantiation (store : Store) (address : Address) : Except Fault GenericInstantiation :=
  store.recordAt .genericInstantiation MappedRecord.genericInstantiation? address

/-- Reads the argument list mapped at an address. -/
def argumentList (store : Store) (address : Address) : Except Fault (List Address) :=
  store.recordAt .argumentList MappedRecord.argumentList? address

/-- Reads the array descriptor mapped at an address. -/
def arrayDescriptor (store : Store) (address : Address) : Except Fault ArrayDescriptor :=
  store.recordAt .arrayDescriptor MappedRecord.arrayDescriptor? address

/-- Reads the first `count` addresses of the argument list mapped at an address. -/
def argumentAddresses (store : Store) (address : Address) (count : UInt32) :
    Except Fault (List Address) := do
  let addresses ← store.argumentList address
  if count.toNat ≤ addresses.length then
    return addresses.take count.toNat
  throw (.indexOutOfRange .genericArgument count.toNat addresses.length)

/-- Reads the usage that a row of the type usage table points at. -/
def usage (store : Store) (index : UsageIndex) : Except Fault TypeUsage := do
  store.usageAt (← row store.usages index)

end Store

end TypeGraph
