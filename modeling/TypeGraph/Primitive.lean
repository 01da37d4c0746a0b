/-!
# Primitive types

The built-in types that a usage record can name by its discriminant byte alone. Every one of them
is backed by an ordinary definition in the namespace `System`; most have a keyword of their own.

One more definition, `System.Decimal`, has a keyword although no discriminant names it, so the
keywords are kept as a table from full names rather than as a field of the primitive.

## Main definitions

* `PrimitiveKind` — the built-in types, with `byte`, `name`, `mnemonic` and `keyword?`
* `keywordAlias?` — the keyword of a full name

## Main results

* `PrimitiveKind.ofByte?_eq_some_iff` — decoding a byte inverts `PrimitiveKind.byte`
* `keywordAlias?_fullName` — a primitive's full name has the keyword of the primitive
-/

namespace TypeGraph

/-- The built-in types. Integers are named by signedness and size in bytes, floating point numbers
by their size; `i` and `u` have the size of a machine word. -/
inductive PrimitiveKind where
  | void
  | boolean
  | char
  | i1
  | u1
  | i2
  | u2
  | i4
  | u4
  | i8
  | u8
  | r4
  | r8
  | i
  | u
  | object
  | string
  deriving DecidableEq, Hashable, Repr, Inhabited

namespace PrimitiveKind

/-- All primitives, in the order in which they are listed to a reader. -/
def all : List PrimitiveKind :=
  [void, boolean, char, i1, u1, i2, u2, i4, u4, i8, u8, r4, r8, i, u, object, string]

theorem mem_all (kind : PrimitiveKind) : kind ∈ all := by cases kind <;> decide

/-- The discriminant byte that names a primitive. -/
def byte : PrimitiveKind → UInt8
  | void => 0x01
  | boolean => 0x02
  | char => 0x03
  | i1 => 0x04
  | u1 => 0x05
  | i2 => 0x06
  | u2 => 0x07
  | i4 => 0x08
  | u4 => 0x09
  | i8 => 0x0a
  | u8 => 0x0b
  | r4 => 0x0c
  | r8 => 0x0d
  | i => 0x18
  | u => 0x19
  | object => 0x1c
  | string => 0x0e

/-- The primitive that a discriminant byte names, if it names one. -/
def ofByte? (b : UInt8) : Option PrimitiveKind := all.find? fun kind => kind.byte == b

@[simp] theorem ofByte?_byte (kind : PrimitiveKind) : ofByte? kind.byte = some kind := by
  cases kind <;> decide

/-- Decoding a byte inverts encoding a primitive. -/
theorem ofByte?_eq_some_iff {b : UInt8} {kind : PrimitiveKind} :
    ofByte? b = some kind ↔ kind.byte = b := by
  constructor
  · intro h
    simpa using List.find?_some h
  · rintro rfl
    exact ofByte?_byte kind

/-- The customary short name of a primitive's discriminant. -/
def mnemonic : PrimitiveKind → String
  | void => "Void"
  | boolean => "Boolean"
  | char => "Char"
  | i1 => "I1"
  | u1 => "U1"
  | i2 => "I2"
  | u2 => "U2"
  | i4 => "I4"
  | u4 => "U4"
  | i8 => "I8"
  | u8 => "U8"
  | r4 => "R4"
  | r8 => "R8"
  | i => "I"
  | u => "U"
  | object => "Object"
  | string => "String"

/-- The name of the definition that backs a primitive. -/
def name : PrimitiveKind → String
  | void => "Void"
  | boolean => "Boolean"
  | char => "Char"
  | i1 => "SByte"
  | u1 => "Byte"
  | i2 => "Int16"
  | u2 => "UInt16"
  | i4 => "Int32"
  | u4 => "UInt32"
  | i8 => "Int64"
  | u8 => "UInt64"
  | r4 => "Single"
  | r8 => "Double"
  | i => "IntPtr"
  | u => "UIntPtr"
  | object => "Object"
  | string => "String"

/-- The namespace of every definition that backs a primitive. -/
def namespaceName : String := "System"

/-- The full name of the definition that backs a primitive. -/
def fullName (kind : PrimitiveKind) : String := namespaceName ++ "." ++ kind.name

/-- The keyword of a primitive. The two integers of machine size have none. -/
def keyword? : PrimitiveKind → Option String
  | void => some "void"
  | boolean => some "bool"
  | char => some "char"
  | i1 => some "sbyte"
  | u1 => some "byte"
  | i2 => some "short"
  | u2 => some "ushort"
  | i4 => some "int"
  | u4 => some "uint"
  | i8 => some "long"
  | u8 => some "ulong"
  | r4 => some "float"
  | r8 => some "double"
  | i => none
  | u => none
  | object => some "object"
  | string => some "string"

end PrimitiveKind

/-! ### Keywords of full names -/

/-- The full names that have a keyword: those of the primitives, and the decimal type. -/
def keywordTable : List (String × String) :=
  ("System.Decimal", "decimal") ::
    PrimitiveKind.all.filterMap fun kind => kind.keyword?.map fun word => (kind.fullName, word)

/-- The keyword by which a well-known definition is written, found by its full name. -/
def keywordAlias? (fullName : String) : Option String := keywordTable.lookup fullName

/-- The definition behind a primitive is written with the primitive's keyword. -/
theorem keywordAlias?_fullName (kind : PrimitiveKind) :
    keywordAlias? kind.fullName = kind.keyword? := by
  cases kind <;> decide +kernel

end TypeGraph
