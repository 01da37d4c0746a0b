import TypeGraph.StringHeap

/-!
# Image stores

A store holds the raw contents of one image: its tables, its string heap, and the records that are
mapped at addresses. It is built up one row or one record at a time.

Rows are numbered in the order in which they are pushed. Addresses are handed out by a counter, so
that records which no caller places by hand never share one; a caller who does place a record by
hand replaces whatever lived there.

## Main definitions

* `Store` — the contents of an image
* `Store.intern`, `Store.pushField`, ... — adding strings and rows
* `Store.allocate`, `Store.mapNew`, `Store.mapRecord` — placing records

## Main results

* `Store.pushRow_snd` — pushing appends, and the handle is the row's position
* `Store.allocate_snd` — allocating moves on by one stride and touches nothing else
-/

namespace TypeGraph

/-- The raw contents of an image. -/
structure Store where
  strings : StringHeap := .empty
  definitions : Array TypeDefinition := #[]
  /-- The type usage table holds addresses: a usage itself is a mapped record. -/
  usages : Array Address := #[]
  fields : Array FieldRow := #[]
  methods : Array MethodRow := #[]
  parameters : Array ParameterRow := #[]
  genericParameters : Array GenericParameterRow := #[]
  mapped : Std.HashMap Address MappedRecord := Std.HashMap.emptyWithCapacity
  /-- The address that is handed out next. -/
  nextAddress : UInt64 := 0x1000
  deriving Inhabited

namespace Store

/-- The distance between two addresses that are handed out in succession. -/
def addressStride : UInt64 := 0x10

/-! ### Strings -/

/-- Interns a string in the store's heap. -/
def intern (value : String) (store : Store) : StringOffset × Store :=
  let (offset, strings) := store.strings.intern value
  (offset, { store with strings })

/-! ### Rows -/

/-- Appends a row to a table. The handle of the row is its position. -/
def pushRow {α : Type} {table : Table} (row : α) (rows : Array α) : Index table × Array α :=
  (Index.ofNatClamp rows.size, rows.push row)

@[simp] theorem pushRow_fst {α : Type} {table : Table} (row : α) (rows : Array α) :
    (pushRow row rows : Index table × Array α).1 = Index.ofNatClamp rows.size := rfl

@[simp] theorem pushRow_snd {α : Type} {table : Table} (row : α) (rows : Array α) :
    (pushRow row rows : Index table × Array α).2 = rows.push row := rfl

/-- The handle that the next type definition will get. -/
def nextDefinition (store : Store) : DefinitionIndex := Index.ofNatClamp store.definitions.size

/-- Appends a type definition. -/
def pushDefinition (row : TypeDefinition) (store : Store) : DefinitionIndex × Store :=
  let (index, definitions) := pushRow row store.definitions
  (index, { store with definitions })

/-- Overwrites a type definition, if there is such a row. Definitions can refer to each other in
cycles, so some of their references are only known once all of them are in the table. -/
def setDefinition (index : DefinitionIndex) (row : TypeDefinition) (store : Store) : Store :=
  { store with definitions := store.definitions.setIfInBounds index.toNat row }

/-- Appends a field. -/
def pushField (row : FieldRow) (store : Store) : FieldIndex × Store :=
  let (index, fields) := pushRow row store.fields
  (index, { store with fields })

/-- Appends a method. -/
def pushMethod (row : MethodRow) (store : Store) : MethodIndex × Store :=
  let (index, methods) := pushRow row store.methods
  (index, { store with methods })

/-- Appends a parameter. -/
def pushParameter (row : ParameterRow) (store : Store) : ParameterIndex × Store :=
  let (index, parameters) := pushRow row store.parameters
  (index, { store with parameters })

/-- Appends a generic parameter. -/
def pushGenericParameter (row : GenericParameterRow) (store : Store) :
    GenericParameterIndex × Store :=
  let (index, genericParameters) := pushRow row store.genericParameters
  (index, { store with genericParameters })

/-! ### Mapped records -/

/-- Hands out an address. -/
def allocate (store : Store) : Address × Store :=
  (⟨store.nextAddress⟩, { store with nextAddress := store.nextAddress + addressStride })

@[simp] theorem allocate_fst (store : Store) : store.allocate.1 = ⟨store.nextAddress⟩ := rfl

@[simp] theorem allocate_snd (store : Store) :
    store.allocate.2 = { store with nextAddress := store.nextAddress + addressStride } := rfl

/-- Maps a record at an address, in place of whatever was mapped there. -/
def mapRecord (address : Address) (record : MappedRecord) (store : Store) : Store :=
  { store with mapped := store.mapped.insert address record }

/-- Maps a record at a newly handed out address. -/
def mapNew (record : MappedRecord) (store : Store) : Address × Store :=
  let (address, store) := store.allocate
  (address, store.mapRecord address record)

/-- Maps a usage. -/
def mapUsage (usage : TypeUsage) (store : Store) : Address × Store := store.mapNew (.usage usage)

/-- Appends the address of a usage to the type usage table. -/
def pushUsageAddress (address : Address) (store : Store) : UsageIndex × Store :=
  let (index, usages) := pushRow address store.usages
  (index, { store with usages })

/-- Maps a usage and appends its address to the type usage table. -/
def pushUsage (usage : TypeUsage) (store : Store) : UsageIndex × Store :=
  let (address, store) := store.mapUsage usage
  store.pushUsageAddress address

/-- Maps a generic class. -/
def mapGenericClass (genericClass : GenericClass) (store : Store) : Address × Store :=
  store.mapNew (.genericClass genericClass)

/-- Maps a list of arguments and the instantiation that refers to it; the address is that of the
instantiation. -/
def mapInstantiation (arguments : List Address) (store : Store) : Address × Store :=
  let (list, store) := store.mapNew (.argumentList arguments)
  store.mapNew
    (.genericInstantiation ⟨UInt32.ofNatClamp arguments.length, list⟩)

/-- Maps an array descriptor. -/
def mapArray (descriptor : ArrayDescriptor) (store : Store) : Address × Store :=
  store.mapNew (.arrayDescriptor descriptor)

end Store

end TypeGraph
