import TypeGraph.Primitive

/-!
# Element kinds

The discriminant byte of a usage record says what kind of type the record stands for, and with it
how the record's operand is to be read. Most of the 256 bytes stand for nothing that can be
resolved; `ElementKind` holds those that do.

## Main definitions

* `ElementKind` — what a discriminant byte can stand for
* `ElementKind.byte`, `ElementKind.ofByte?` — from kinds to bytes and back

## Main results

* `ElementKind.ofByte?_eq_some_iff` — decoding a byte inverts `ElementKind.byte`
-/

namespace TypeGraph

/-- What a usage record can stand for. -/
inductive ElementKind where
  /-- A built-in type; the operand is the definition behind it. -/
  | primitive (kind : PrimitiveKind)
  /-- An unmanaged pointer; the operand is the address of the usage it points to. -/
  | pointer
  /-- A value type; the operand is its definition. -/
  | valueType
  /-- A reference type; the operand is its definition. -/
  | classType
  /-- A generic parameter of a type; the operand is its row. -/
  | typeParameter
  /-- An array with a rank; the operand is the address of its descriptor. -/
  | array
  /-- A generic type applied to arguments; the operand is the address of its class record. -/
  | genericInstance
  /-- A one-dimensional array that counts from zero; the operand is the address of the usage of
  its element. -/
  | vector
  /-- A generic parameter of a method; the operand is its row. -/
  | methodParameter
  deriving DecidableEq, Hashable, Repr, Inhabited

namespace ElementKind

/-- All element kinds, the primitives first. -/
def all : List ElementKind :=
  PrimitiveKind.all.map primitive ++
    [pointer, valueType, classType, typeParameter, array, genericInstance, vector, methodParameter]

/-- The discriminant byte of an element kind. -/
def byte : ElementKind → UInt8
  | primitive kind => kind.byte
  | pointer => 0x0f
  | valueType => 0x11
  | classType => 0x12
  | typeParameter => 0x13
  | array => 0x14
  | genericInstance => 0x15
  | vector => 0x1d
  | methodParameter => 0x1e

/-- The element kind that a discriminant byte stands for. There is none for by-reference types,
function pointers, typed references, custom modifiers and the markers of a signature. -/
def ofByte? (b : UInt8) : Option ElementKind := all.find? fun kind => kind.byte == b

@[simp] theorem ofByte?_byte (kind : ElementKind) : ofByte? kind.byte = some kind := by
  cases kind with
  | primitive kind => cases kind <;> decide
  | _ => decide

/-- Decoding a byte inverts encoding an element kind. -/
theorem ofByte?_eq_some_iff {b : UInt8} {kind : ElementKind} :
    ofByte? b = some kind ↔ kind.byte = b := by
  constructor
  · intro h
    simpa using List.find?_some h
  · rintro rfl
    exact ofByte?_byte kind

end ElementKind

end TypeGraph
