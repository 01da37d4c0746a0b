import TypeGraph.Fault

/-!
# Shapes of usages

A usage record is classified by its discriminant byte, and its operand is read accordingly: as a
row, or as the address of a record. The shape of a usage decides how it is resolved.

Some shapes nest: an instantiation, an array or a pointer leads by address to further usages. These
are the composites, and they alone count against a limit on nesting. The others lead to a row.

## Main definitions

* `Composite` — the shapes that lead to further usages
* `UsageShape` — all shapes
* `TypeUsage.shape` — classifies a usage

## Main results

* `TypeUsage.shape_of_ofByte?_eq_none` — a byte without a meaning is refused whatever the operand
-/

namespace TypeGraph

/-- The shapes that lead to further usages. -/
inductive Composite where
  /-- An instantiation; its generic class record lives at the address. -/
  | genericInstance (genericClass : Address)
  /-- An array with a rank; its descriptor lives at the address. -/
  | array (descriptor : Address)
  /-- A one-dimensional array that counts from zero; the usage of its element lives at the
  address. -/
  | vector (element : Address)
  /-- A pointer; the usage that it points to lives at the address. -/
  | pointer (pointee : Address)
  deriving DecidableEq, Repr

/-- What a usage stands for, with its operand read. -/
inductive UsageShape where
  /-- A type that has a definition. -/
  | definition (index : DefinitionIndex)
  /-- A built-in type, which has a definition too. -/
  | primitive (kind : PrimitiveKind) (index : DefinitionIndex)
  /-- A type that is built from others. -/
  | composite (composite : Composite)
  /-- A generic parameter, of a method or of a type. -/
  | genericParameter (index : GenericParameterIndex) (ofMethod : Bool)
  deriving DecidableEq, Repr

namespace TypeUsage

/-- The operand of a usage, read as a row. -/
def operandIndex {table : Table} (usage : TypeUsage) : Except Fault (Index table) :=
  if usage.data.toNat < UInt32.size then .ok ⟨usage.data.toUInt32⟩
  else .error (.malformed (.oversizedOperand usage.data usage.kind))

/-- The operand of a usage, read as an address. -/
def operandAddress (usage : TypeUsage) : Address := ⟨usage.data⟩

/-- The shape of a usage. Neither its attributes nor passing by reference has a part in it. -/
def shape (usage : TypeUsage) : Except Fault UsageShape :=
  match ElementKind.ofByte? usage.kind with
  | none => .error (.unsupportedKind usage.kind)
  | some (.primitive kind) => usage.operandIndex.map (.primitive kind)
  | some .valueType | some .classType => usage.operandIndex.map .definition
  | some .typeParameter => usage.operandIndex.map (.genericParameter · false)
  | some .methodParameter => usage.operandIndex.map (.genericParameter · true)
  | some .genericInstance => .ok (.composite (.genericInstance usage.operandAddress))
  | some .array => .ok (.composite (.array usage.operandAddress))
  | some .vector => .ok (.composite (.vector usage.operandAddress))
  | some .pointer => .ok (.composite (.pointer usage.operandAddress))

/-- A byte that stands for nothing is refused whatever the operand. -/
theorem shape_of_ofByte?_eq_none {usage : TypeUsage}
    (h : ElementKind.ofByte? usage.kind = none) :
    usage.shape = .error (.unsupportedKind usage.kind) := by
  simp [shape, h]

end TypeUsage

end TypeGraph
