import TypeGraph.Text.Hex

/-!
# Typed handles

An image addresses everything by bare integers: rows of its tables, byte offsets into its string
heap, and addresses of the records that are not kept in a table. Here each of them is a type of
its own, so that a row of one table cannot be passed where a row of another is meant.

A table row is an `Index t`, where the table `t` is part of the type. Types that were resolved
have handles of a third kind, `TypeId`, which count the slots of an arena.

## Main definitions

* `Table` — the tables of an image
* `Index` — a row of a given table; `Index.run` lists consecutive rows
* `Address` — where a mapped record lives
* `TypeId` — a slot of the arena of resolved types

## Main results

* `Index.eq_of_toNat_eq`, `Index.toNat_ofNatClamp` — handles and their rows
* `Index.length_run`, `Index.getElem_run` — how many rows a run has, and which
-/

namespace TypeGraph

/-! ### Tables -/

/-- The tables of an image. `genericArgument` stands for the argument list of one instantiation,
which is bounded like a table although no handle type points into it. -/
inductive Table where
  | typeDefinition
  | typeUsage
  | field
  | method
  | parameter
  | genericParameter
  | genericArgument
  | string
  deriving DecidableEq, Hashable, Repr, Inhabited

namespace Table

/-- All tables, in the order in which they are listed to a reader. -/
def all : List Table :=
  [typeDefinition, typeUsage, field, method, parameter, genericParameter, genericArgument, string]

/-- The name of a table in messages. -/
def name : Table → String
  | typeDefinition => "TypeDefinition"
  | typeUsage => "TypeUsage"
  | field => "Field"
  | method => "Method"
  | parameter => "Parameter"
  | genericParameter => "GenericParameter"
  | genericArgument => "GenericArgument"
  | string => "String"

/-- The name that a table's handles carry when they are written out for diagnosis. -/
def handleName : Table → String
  | typeDefinition => "TypeDefIndex"
  | table => table.name ++ "Index"

theorem mem_all (table : Table) : table ∈ all := by cases table <;> decide

end Table

/-! ### Rows -/

/-- A row of the table `table`. -/
structure Index (table : Table) where
  value : UInt32
  deriving DecidableEq, Hashable, Repr, Inhabited

/-- A row of the type definition table. -/
abbrev DefinitionIndex := Index .typeDefinition

/-- A row of the type usage table, which parents, field types and signatures point into. -/
abbrev UsageIndex := Index .typeUsage

/-- A row of the field table. -/
abbrev FieldIndex := Index .field

/-- A row of the method table. -/
abbrev MethodIndex := Index .method

/-- A row of the parameter table. -/
abbrev ParameterIndex := Index .parameter

/-- A row of the generic parameter table. -/
abbrev GenericParameterIndex := Index .genericParameter

/-- A byte offset into the string heap. -/
abbrev StringOffset := Index .string

namespace Index

variable {table : Table}

/-- The row as a natural number. -/
def toNat (index : Index table) : Nat := index.value.toNat

/-- A handle is known by its row. -/
theorem eq_of_toNat_eq {index index' : Index table} (h : index.toNat = index'.toNat) :
    index = index' := by
  obtain ⟨value⟩ := index
  obtain ⟨value'⟩ := index'
  exact congrArg mk (UInt32.toNat_inj.mp h)

/-- The handle of row `n`, or the largest handle if `n` is beyond all of them. -/
def ofNatClamp (n : Nat) : Index table := ⟨UInt32.ofNatClamp n⟩

/-- Every row below the number of handles has one. -/
theorem toNat_ofNatClamp {n : Nat} (h : n < UInt32.size) :
    (ofNatClamp n : Index table).toNat = n := by
  simp [ofNatClamp, toNat, UInt32.ofNatClamp, h]

instance : Ord (Index table) := ⟨fun a b => compare a.value b.value⟩

/-- A handle as it appears in messages: its number alone. -/
def text (index : Index table) : String := toString index.value

/-- A handle written with the name of its type. -/
def describe (index : Index table) : String := table.handleName ++ "(" ++ index.text ++ ")"

/-- The rows of a run of `count` rows that begins at `first`.

The end of a run is itself a handle, one past its last row, so a run never holds the largest
handle: it is cut off there. -/
def run (first : Index table) (count : UInt16) : List (Index table) :=
  (List.range' first.toNat (min count.toNat (UInt32.size - 1 - first.toNat))).map
    fun n => ⟨UInt32.ofNat n⟩

@[simp] theorem length_run (first : Index table) (count : UInt16) :
    (first.run count).length = min count.toNat (UInt32.size - 1 - first.toNat) := by
  simp [run]

theorem getElem_run (first : Index table) (count : UInt16) {k : Nat}
    (h : k < (first.run count).length) :
    (first.run count)[k] = ⟨UInt32.ofNat (first.toNat + k)⟩ := by
  simp [run]

end Index

/-! ### Addresses -/

/-- The address of a mapped record. -/
structure Address where
  value : UInt64
  deriving DecidableEq, Hashable, Repr, Inhabited

namespace Address

/-- No record lives at the null address. -/
def isNull (address : Address) : Bool := address.value == 0

/-- An address as it appears in messages, with at least eight digits. -/
def text (address : Address) : String := "0x" ++ Text.hexPadded 8 address.value.toNat

/-- An address written with the name of its type. -/
def describe (address : Address) : String :=
  "DataAddress(0x" ++ Text.hex address.value.toNat ++ ")"

end Address

/-! ### Resolved types -/

/-- The handle of a resolved type: the slot that it occupies in its arena. -/
structure TypeId where
  index : Nat
  deriving DecidableEq, Hashable, Repr, Inhabited

namespace TypeId

/-- A type's handle as it appears in messages. -/
def text (id : TypeId) : String := "#" ++ toString id.index

/-- A type's handle written with the name of its type. -/
def describe (id : TypeId) : String := "TypeId(" ++ toString id.index ++ ")"

end TypeId

end TypeGraph
