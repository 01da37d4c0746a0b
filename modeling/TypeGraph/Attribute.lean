/-!
# Attributes of types and modifiers of methods

The flag words of an image mix single bits with small fields of several bits. Here each property
that matters is a Boolean of its own, decoded once, so that it can be asked for without masks. The
properties of a type or method can be listed again, by name or as a word with one bit for each.

## Main definitions

* `NamedBit` — one property of a flag set, with `NamedBit.names` and `NamedBit.word`
* `TypeAttributes` — what the flags of a type definition say
* `MethodModifiers` — what the flags of a method say, apart from who may call it
* `isPublicMethod` — who may call a method

## Main results

* `TypeAttributes.isClass_ofFlags` — a definition is a class or an interface, never both
-/

namespace TypeGraph

/-! ### Flag sets -/

/-- One property of a flag set: its name, the value of its bit, and whether it holds. -/
structure NamedBit where
  name : String
  weight : Nat
  isSet : Bool

namespace NamedBit

/-- The names of the properties that hold. -/
def names (bits : List NamedBit) : List String := (bits.filter isSet).map name

/-- The properties that hold, as the bits of one word. -/
def word (bits : List NamedBit) : Nat :=
  (bits.filter isSet).foldr (fun bit rest => bit.weight + rest) 0

end NamedBit

/-! ### Types -/

/-- The properties of a type that its definition declares. -/
structure TypeAttributes where
  /-- The type is visible outside its image. -/
  isPublic : Bool := false
  /-- The type cannot be instantiated. -/
  isAbstract : Bool := false
  /-- No type can derive from the type. -/
  isSealed : Bool := false
  isInterface : Bool := false
  isClass : Bool := false
  isSerializable : Bool := false
  deriving DecidableEq, Repr, Inhabited

namespace TypeAttributes

/-- The attributes of a type definition with the given flags.

Visibility is a field of three bits, of which one value alone means public: nested types have
values of their own. What is not declared as an interface is a class. -/
def ofFlags (flags : UInt32) : TypeAttributes where
  isPublic := flags &&& 0x7 == 0x1
  isAbstract := flags &&& 0x80 != 0
  isSealed := flags &&& 0x100 != 0
  isInterface := flags &&& 0x20 != 0
  isClass := flags &&& 0x20 == 0
  isSerializable := flags &&& 0x2000 != 0

/-- A definition is a class exactly if it is no interface. -/
@[simp] theorem isClass_ofFlags (flags : UInt32) :
    (ofFlags flags).isClass = !(ofFlags flags).isInterface := by
  simp [ofFlags, bne]

/-- The attributes of instantiations and generic parameters, which are classes and nothing more. -/
def ofClass : TypeAttributes := { isClass := true }

/-- The attributes of arrays and pointers, which have none. -/
def none : TypeAttributes := {}

/-- The attributes with their names and bits, in the order in which they are listed. -/
def bits (attributes : TypeAttributes) : List NamedBit :=
  [⟨"PUBLIC", 0x1, attributes.isPublic⟩,
    ⟨"ABSTRACT", 0x2, attributes.isAbstract⟩,
    ⟨"SEALED", 0x4, attributes.isSealed⟩,
    ⟨"INTERFACE", 0x8, attributes.isInterface⟩,
    ⟨"CLASS", 0x10, attributes.isClass⟩,
    ⟨"SERIALIZABLE", 0x20, attributes.isSerializable⟩]

end TypeAttributes

/-! ### Methods -/

/-- The properties of a method that its flags declare. -/
structure MethodModifiers where
  /-- The method belongs to the type and not to its instances. -/
  isStatic : Bool := false
  /-- The method cannot be overridden. -/
  isFinal : Bool := false
  /-- The method is found through the table of its instance. -/
  isVirtual : Bool := false
  /-- The method hides others by name and signature, not by name alone. -/
  hidesBySignature : Bool := false
  /-- The method always gets a new place in the table. -/
  isNewSlot : Bool := false
  /-- The method has no implementation. -/
  isAbstract : Bool := false
  /-- The name of the method has a meaning to compilers. -/
  hasSpecialName : Bool := false
  /-- The name of the method has a meaning to the runtime. -/
  hasRuntimeSpecialName : Bool := false
  deriving DecidableEq, Repr, Inhabited

namespace MethodModifiers

/-- The modifiers of a method with the given flags. Bits without a name are left out. -/
def ofFlags (flags : UInt16) : MethodModifiers where
  isStatic := flags &&& 0x10 != 0
  isFinal := flags &&& 0x20 != 0
  isVirtual := flags &&& 0x40 != 0
  hidesBySignature := flags &&& 0x80 != 0
  isNewSlot := flags &&& 0x100 != 0
  isAbstract := flags &&& 0x400 != 0
  hasSpecialName := flags &&& 0x800 != 0
  hasRuntimeSpecialName := flags &&& 0x1000 != 0

/-- The modifiers with their names and bits, in the order in which they are listed. -/
def bits (modifiers : MethodModifiers) : List NamedBit :=
  [⟨"STATIC", 0x10, modifiers.isStatic⟩,
    ⟨"FINAL", 0x20, modifiers.isFinal⟩,
    ⟨"VIRTUAL", 0x40, modifiers.isVirtual⟩,
    ⟨"HIDE_BY_SIG", 0x80, modifiers.hidesBySignature⟩,
    ⟨"NEW_SLOT", 0x100, modifiers.isNewSlot⟩,
    ⟨"ABSTRACT", 0x400, modifiers.isAbstract⟩,
    ⟨"SPECIAL_NAME", 0x800, modifiers.hasSpecialName⟩,
    ⟨"RTSPECIAL_NAME", 0x1000, modifiers.hasRuntimeSpecialName⟩]

end MethodModifiers

/-- Access to a method is a field of three bits, of which one value means that everyone who sees
the type may call it. -/
def isPublicMethod (flags : UInt16) : Bool := flags &&& 0x7 == 0x6

end TypeGraph
