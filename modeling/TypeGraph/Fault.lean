import TypeGraph.Record

/-!
# Faults

Everything that can go wrong when an image is read or its types are resolved. A fault is the cause,
with the data that identifies it; `Fault.message` is the one place that puts causes into words.

None of the faults is fatal: a caller may leave out the offending type and go on with others.

## Main definitions

* `Malformation` — structural damage of an image
* `Fault` — all causes of failure
* `Malformation.message`, `Fault.message` — their wording
-/

namespace TypeGraph

/-- Structural damage of an image. -/
inductive Malformation where
  /-- A string heap has to begin with the empty string. -/
  | headlessHeap
  /-- The bytes at an offset are not a terminated string of valid text. -/
  | invalidString (offset : Nat)
  /-- Nothing is mapped at an address where a record of the given sort is needed. -/
  | unmapped (expected : RecordKind) (address : Address)
  /-- A record of another sort is mapped at an address. -/
  | wrongRecord (expected : RecordKind) (address : Address) (found : RecordKind)
  /-- The operand of a usage should be a row but is too large for one. -/
  | oversizedOperand (data : UInt64) (kind : UInt8)
  /-- A type was given its contents a second time. -/
  | filledTwice (id : TypeId)
  deriving DecidableEq, Repr

/-- The wording of structural damage. -/
def Malformation.message : Malformation → String
  | headlessHeap => "Provided string heap is empty"
  | invalidString offset => "Invalid string at index - " ++ toString offset
  | unmapped expected address =>
    "No " ++ expected.name ++ " record mapped at " ++ address.text
  | wrongRecord expected address found =>
    "Expected a " ++ expected.name ++ " record at " ++ address.text ++ ", found a " ++
      found.name ++ " record"
  | oversizedOperand data kind =>
    "Usage operand 0x" ++ Text.hex data.toNat ++ " does not fit a table index (kind 0x" ++
      Text.hexPadded 2 kind.toNat ++ ")"
  | filledTwice id => "Type " ++ id.text ++ " was filled twice"

/-- The causes of failure. -/
inductive Fault where
  /-- An index lies past its table. -/
  | indexOutOfRange (table : Table) (index length : Nat)
  /-- A usage carries a discriminant byte that stands for nothing that can be resolved. -/
  | unsupportedKind (kind : UInt8)
  /-- An array descriptor declares fewer than one dimension. -/
  | arrayRank (rank : Int32)
  /-- A type was read while it was only reserved. -/
  | unfilled (id : TypeId)
  /-- A handle was never issued. -/
  | unknownType (id : TypeId)
  /-- Usages are nested more deeply than the limit allows. -/
  | recursionLimit (limit : Nat)
  /-- The image is damaged. -/
  | malformed (cause : Malformation)
  deriving DecidableEq, Repr

/-- The wording of a fault. -/
def Fault.message : Fault → String
  | indexOutOfRange table index length =>
    "Index " ++ toString index ++ " is out of range for the " ++ table.name ++ " table (" ++
      toString length ++ " entries)"
  | unsupportedKind kind => "Unsupported type usage shape - 0x" ++ Text.hexPadded 2 kind.toNat
  | arrayRank rank => "Malformed array rank - " ++ toString rank
  | unfilled id => "Type " ++ id.text ++ " was read before it was filled"
  | unknownType id => "Failed to find type in TypeModel - " ++ id.text
  | recursionLimit limit => "Reach the maximum recursion level allowed - " ++ toString limit
  | malformed cause => cause.message

end TypeGraph
