import Mathlib
import TypeGraph.Proofs.CanonicalIdentity

/-!
# Usages and their shapes

A usage is a byte and a number, and a shape says what they mean. `UsageShape.operand` and
`UsageShape.kinds` go the other way: they say which number a shape is read from, and from which
bytes. A usage has a shape if and only if its number and its byte are those of the shape, so
nothing is read into a usage that is not in it.

There is only one place where two bytes mean the same. A reference type and a value type are both
named by their definition, and the shape does not tell them apart.

## Main definitions

* `UsageShape.operand`, `UsageShape.kinds` — what a shape is read from
* `TypeUsage.CarriesIndex`, `TypeUsage.CarriesAddress` — how the operand of a usage is to be read
* `TypeUsage.Constructed` — the usages that are built to have a shape
* `TypeUsage.Unmistakable` — a usage has the shape that it was built for, and is confused with no
  other one

## Main results

* `TypeUsage.shape_eq_ok_iff` — the shape of a usage, by its operand and its kind
* `TypeUsage.unmistakable` — every usage is unmistakable
-/

namespace TypeGraph

/-! ### What a shape is read from -/

/-- The operand of a usage that has a certain shape. -/
def UsageShape.operand : UsageShape → UInt64
  | definition index => index.value.toUInt64
  | primitive _ index => index.value.toUInt64
  | composite (.genericInstance address) => address.value
  | composite (.array address) => address.value
  | composite (.vector address) => address.value
  | composite (.pointer address) => address.value
  | genericParameter index _ => index.value.toUInt64

/-- The kinds that a usage of a certain shape can have. -/
def UsageShape.kinds : UsageShape → List ElementKind
  | definition _ => [.classType, .valueType]
  | primitive kind _ => [.primitive kind]
  | composite (.genericInstance _) => [.genericInstance]
  | composite (.array _) => [.array]
  | composite (.vector _) => [.vector]
  | composite (.pointer _) => [.pointer]
  | genericParameter _ false => [.typeParameter]
  | genericParameter _ true => [.methodParameter]

/-- Only definitions can be of two kinds. -/
theorem UsageShape.kinds_eq_or (shape : UsageShape) :
    (∃ kind, shape.kinds = [kind]) ∨ shape.kinds = [.classType, .valueType] := by
  cases shape with
  | definition index => exact .inr rfl
  | primitive kind index => exact .inl ⟨_, rfl⟩
  | composite found => cases found <;> exact .inl ⟨_, rfl⟩
  | genericParameter index ofMethod => cases ofMethod <;> exact .inl ⟨_, rfl⟩

namespace TypeUsage

variable {usage other : TypeUsage} {shape shape' : UsageShape}

/-- An operand is read as a row if it is the number of that row. -/
theorem operandIndex_eq_ok_iff {table : Table} {index : Index table} :
    usage.operandIndex = .ok index ↔ usage.data = index.value.toUInt64 := by
  rw [operandIndex]
  constructor
  · intro read
    split at read
    · next fits =>
      rw [← Except.ok.inj read]
      refine UInt64.toNat_inj.mp ?_
      simp [Nat.mod_eq_of_lt fits]
    · cases read
  · intro same
    have fits : usage.data.toNat < UInt32.size := by
      rw [same, UInt32.toNat_toUInt64]
      exact index.value.toNat_lt_size
    rw [if_pos fits, same]
    simp

/-- An operand that is the number of no row is too large. -/
theorem operandIndex_of_le {table : Table} (h : UInt32.size ≤ usage.data.toNat) :
    (usage.operandIndex : Except Fault (Index table)) =
      .error (.malformed (.oversizedOperand usage.data usage.kind)) :=
  if_neg (Nat.not_lt_of_le h)

theorem exists_operandIndex_iff {table : Table} :
    (∃ index : Index table, usage.operandIndex = .ok index) ↔ usage.data.toNat < UInt32.size := by
  rw [operandIndex]
  split <;> simp_all

/-- **The shape of a usage, by its operand and its kind.** -/
theorem shape_eq_ok_iff : usage.shape = .ok shape ↔
    usage.data = shape.operand ∧ ∃ kind ∈ shape.kinds, usage.kind = kind.byte := by
  constructor
  · intro h
    rw [TypeUsage.shape] at h
    cases hkind : ElementKind.ofByte? usage.kind with
    | none => rw [hkind] at h; cases h
    | some kind =>
      have hbyte : usage.kind = kind.byte := (ElementKind.ofByte?_eq_some_iff.mp hkind).symm
      rw [hkind] at h
      cases kind with
      | primitive _ | valueType | classType | typeParameter | methodParameter =>
        obtain ⟨index, hindex, rfl⟩ := map_eq_ok_iff.mp h
        exact ⟨operandIndex_eq_ok_iff.mp hindex, _, by simp [UsageShape.kinds], hbyte⟩
      | pointer | array | genericInstance | vector =>
        obtain rfl := Except.ok.inj h
        exact ⟨rfl, _, List.mem_singleton_self _, hbyte⟩
  · rintro ⟨hdata, kind, hkind, hbyte⟩
    have hof : ElementKind.ofByte? usage.kind = some kind := hbyte ▸ ElementKind.ofByte?_byte kind
    have hindex {table : Table} {index : Index table}
        (same : shape.operand = index.value.toUInt64) : usage.operandIndex = .ok index :=
      operandIndex_eq_ok_iff.mpr (hdata.trans same)
    have haddress {address : Address} (same : shape.operand = address.value) :
        usage.operandAddress = address :=
      congrArg Address.mk (hdata.trans same)
    rw [TypeUsage.shape, hof]
    cases shape with
    | definition index =>
      rcases List.mem_pair.mp hkind with rfl | rfl <;> rw [hindex rfl] <;> rfl
    | primitive _ index =>
      obtain rfl := List.mem_singleton.mp hkind
      rw [hindex rfl]
      rfl
    | composite found =>
      cases found with
      | _ =>
        obtain rfl := List.mem_singleton.mp hkind
        rw [haddress rfl]
    | genericParameter index ofMethod =>
      cases ofMethod with
      | _ =>
        obtain rfl := List.mem_singleton.mp hkind
        rw [hindex rfl]
        rfl

/-! ### Operands that are rows, and operands that are addresses -/

/-- A usage stands for a definition that is no built-in type. -/
def NamesDefinition (usage : TypeUsage) : Prop :=
  usage.kind = ElementKind.classType.byte ∨ usage.kind = ElementKind.valueType.byte

/-- The operand of a usage is to be read as a row: of the definition table if it stands for a
definition, and of the generic parameter table if it stands for a parameter. -/
def CarriesIndex (usage : TypeUsage) : Prop :=
  (∃ kind : PrimitiveKind, usage.kind = kind.byte) ∨ usage.NamesDefinition ∨
    usage.kind = ElementKind.typeParameter.byte ∨ usage.kind = ElementKind.methodParameter.byte

/-- The operand of a usage is to be read as an address. -/
def CarriesAddress (usage : TypeUsage) : Prop :=
  usage.kind = ElementKind.genericInstance.byte ∨ usage.kind = ElementKind.array.byte ∨
    usage.kind = ElementKind.vector.byte ∨ usage.kind = ElementKind.pointer.byte

/-- A byte that stands for something says how the operand is to be read. -/
theorem carries_of_ofByte?_eq_some {kind : ElementKind}
    (h : ElementKind.ofByte? usage.kind = some kind) :
    usage.CarriesIndex ∨ usage.CarriesAddress := by
  have hbyte : usage.kind = kind.byte := (ElementKind.ofByte?_eq_some_iff.mp h).symm
  cases kind with
  | primitive kind => exact .inl (.inl ⟨kind, hbyte⟩)
  | _ => simp [CarriesIndex, NamesDefinition, CarriesAddress, hbyte]

theorem NamesDefinition.shape_eq_map (h : usage.NamesDefinition) :
    usage.shape = usage.operandIndex.map .definition := by
  rcases h with hbyte | hbyte <;> rw [TypeUsage.shape, hbyte, ElementKind.ofByte?_byte]

/-- What has an index for its operand has a shape as soon as the index can be read. -/
theorem CarriesIndex.exists_shape_eq_map (h : usage.CarriesIndex) :
    ∃ (table : Table) (make : Index table → UsageShape),
      usage.shape = (usage.operandIndex : Except Fault (Index table)).map make := by
  rcases h with ⟨kind, hbyte⟩ | names | hbyte | hbyte
  · have hof : ElementKind.ofByte? usage.kind = some (.primitive kind) :=
      hbyte ▸ ElementKind.ofByte?_byte (.primitive kind)
    exact ⟨_, .primitive kind, by rw [TypeUsage.shape, hof]⟩
  · exact ⟨_, .definition, names.shape_eq_map⟩
  · exact ⟨_, (.genericParameter · false), by rw [TypeUsage.shape, hbyte, ElementKind.ofByte?_byte]⟩
  · exact ⟨_, (.genericParameter · true), by rw [TypeUsage.shape, hbyte, ElementKind.ofByte?_byte]⟩

theorem CarriesIndex.exists_shape_iff (h : usage.CarriesIndex) :
    (∃ shape, usage.shape = .ok shape) ↔ usage.data.toNat < UInt32.size := by
  obtain ⟨table, make, hshape⟩ := h.exists_shape_eq_map
  have hreads : (∃ index : Index table, usage.operandIndex = .ok index) ↔
      usage.data.toNat < UInt32.size := exists_operandIndex_iff
  rw [hshape, ← hreads]
  constructor
  · rintro ⟨shape, hmap⟩
    obtain ⟨index, hindex, -⟩ := map_eq_ok_iff.mp hmap
    exact ⟨index, hindex⟩
  · rintro ⟨index, hindex⟩
    exact ⟨make index, map_eq_ok_iff.mpr ⟨index, hindex, rfl⟩⟩

/-- An address is as good as any other one. -/
theorem CarriesAddress.exists_shape (h : usage.CarriesAddress) :
    ∃ shape, usage.shape = .ok shape := by
  rcases h with hbyte | hbyte | hbyte | hbyte
  · exact ⟨.composite (.genericInstance ⟨usage.data⟩),
      shape_eq_ok_iff.mpr ⟨rfl, _, List.mem_singleton_self _, hbyte⟩⟩
  · exact ⟨.composite (.array ⟨usage.data⟩),
      shape_eq_ok_iff.mpr ⟨rfl, _, List.mem_singleton_self _, hbyte⟩⟩
  · exact ⟨.composite (.vector ⟨usage.data⟩),
      shape_eq_ok_iff.mpr ⟨rfl, _, List.mem_singleton_self _, hbyte⟩⟩
  · exact ⟨.composite (.pointer ⟨usage.data⟩),
      shape_eq_ok_iff.mpr ⟨rfl, _, List.mem_singleton_self _, hbyte⟩⟩

/-- A usage whose operand is not to be read at all is refused, whatever its operand is. -/
theorem shape_of_not_carries (index : ¬ usage.CarriesIndex) (address : ¬ usage.CarriesAddress) :
    usage.shape = .error (.unsupportedKind usage.kind) := by
  refine shape_of_ofByte?_eq_none (Option.eq_none_iff_forall_ne_some.mpr fun kind hkind => ?_)
  rcases carries_of_ofByte?_eq_some hkind with carries | carries
  · exact index carries
  · exact address carries

/-! ### Usages that were built -/

/-- The usages that are built to have a certain shape, passed by reference or not. -/
inductive Constructed : TypeUsage → UsageShape → Prop where
  | definition (index : DefinitionIndex) :
      Constructed (TypeUsage.definition index) (.definition index)
  | valueType (index : DefinitionIndex) :
      Constructed (TypeUsage.valueType index) (.definition index)
  | primitive (kind : PrimitiveKind) (index : DefinitionIndex) :
      Constructed (TypeUsage.primitive kind.byte index) (.primitive kind index)
  | genericInstance (address : Address) :
      Constructed (TypeUsage.genericInstance address) (.composite (.genericInstance address))
  | array (address : Address) :
      Constructed (TypeUsage.array address) (.composite (.array address))
  | vector (address : Address) :
      Constructed (TypeUsage.vector address) (.composite (.vector address))
  | pointer (address : Address) :
      Constructed (TypeUsage.pointer address) (.composite (.pointer address))
  | genericParameter (index : GenericParameterIndex) (ofMethod : Bool) :
      Constructed (TypeUsage.genericParameter index ofMethod) (.genericParameter index ofMethod)
  | passedByRef {usage : TypeUsage} {shape : UsageShape} (built : Constructed usage shape) :
      Constructed usage.passedByRef shape

/-- **A usage has the shape that it was built for.** -/
theorem Constructed.shape_eq (h : Constructed usage shape) : usage.shape = .ok shape := by
  induction h with
  | definition => exact shape_eq_ok_iff.mpr ⟨rfl, .classType, List.mem_cons_self, rfl⟩
  | valueType =>
    exact shape_eq_ok_iff.mpr ⟨rfl, .valueType, List.mem_cons_of_mem _ List.mem_cons_self, rfl⟩
  | primitive | genericInstance | array | vector | pointer =>
    exact shape_eq_ok_iff.mpr ⟨rfl, _, List.mem_singleton_self _, rfl⟩
  | genericParameter index ofMethod =>
    cases ofMethod <;> exact shape_eq_ok_iff.mpr ⟨rfl, _, List.mem_singleton_self _, rfl⟩
  | passedByRef built ih => exact (shape_eq_of_kind_eq rfl rfl).trans ih

/-! ### Usages of one shape -/

/-- Two usages of one shape have the same kind, or both name a definition. -/
theorem kind_eq_or_of_mem_kinds {kind kind' : ElementKind} (h : kind ∈ shape.kinds)
    (h' : kind' ∈ shape.kinds) (hbyte : usage.kind = kind.byte) (hbyte' : other.kind = kind'.byte) :
    usage.kind = other.kind ∨ usage.NamesDefinition ∧ other.NamesDefinition := by
  rcases shape.kinds_eq_or with ⟨only, hkinds⟩ | hkinds
  · rw [hkinds, List.mem_singleton] at h h'
    rw [hbyte, hbyte', h, h']
    exact .inl rfl
  · have names {found : TypeUsage} {kind : ElementKind} (mem : kind ∈ shape.kinds)
        (hbyte : found.kind = kind.byte) : found.NamesDefinition := by
      rw [hkinds, List.mem_pair] at mem
      rcases mem with rfl | rfl
      · exact .inl hbyte
      · exact .inr hbyte
    exact .inr ⟨names h hbyte, names h' hbyte'⟩

/-- **Two usages have one shape if and only if their operands are the same, and so are their
kinds**, except that a reference type and a value type are not told apart. -/
theorem shape_eq_iff (h : usage.shape = .ok shape) (h' : other.shape = .ok shape') :
    shape = shape' ↔ usage.data = other.data ∧
      (usage.kind = other.kind ∨ usage.NamesDefinition ∧ other.NamesDefinition) := by
  constructor
  · rintro rfl
    obtain ⟨hdata, kind, hkind, hbyte⟩ := shape_eq_ok_iff.mp h
    obtain ⟨hdata', kind', hkind', hbyte'⟩ := shape_eq_ok_iff.mp h'
    exact ⟨hdata.trans hdata'.symm, kind_eq_or_of_mem_kinds hkind hkind' hbyte hbyte'⟩
  · rintro ⟨same, hkinds | ⟨names, names'⟩⟩
    · rw [shape_eq_of_kind_eq same hkinds, h'] at h
      exact (Except.ok.inj h).symm
    · rw [names.shape_eq_map] at h
      rw [names'.shape_eq_map] at h'
      obtain ⟨index, hindex, rfl⟩ := map_eq_ok_iff.mp h
      rw [operandIndex_of_data_eq same hindex] at h'
      exact Except.ok.inj h'

/-! ### Classification -/

/-- A usage has the shape that it was built for, and is confused with no other one. Whether it has a
shape at all depends on its byte, and on its operand only where that has to be a row. -/
structure Unmistakable (usage : TypeUsage) : Prop where
  succeeds_iff : (∃ shape, usage.shape = .ok shape) ↔
    usage.CarriesIndex ∧ usage.data.toNat < UInt32.size ∨ usage.CarriesAddress
  oversized : usage.CarriesIndex → UInt32.size ≤ usage.data.toNat →
    usage.shape = .error (.malformed (.oversizedOperand usage.data usage.kind))
  unsupported : ¬ usage.CarriesIndex → ¬ usage.CarriesAddress →
    usage.shape = .error (.unsupportedKind usage.kind)
  confused_iff {other : TypeUsage} {shape shape' : UsageShape} :
    usage.shape = .ok shape → other.shape = .ok shape' →
      (shape = shape' ↔ usage.data = other.data ∧
        (usage.kind = other.kind ∨ usage.NamesDefinition ∧ other.NamesDefinition))
  constructed {shape : UsageShape} : usage.Constructed shape → usage.shape = .ok shape

/-- **Classification decodes what was built, and confuses nothing.** -/
theorem unmistakable (usage : TypeUsage) : usage.Unmistakable where
  succeeds_iff := by
    constructor
    · rintro ⟨shape, hshape⟩
      by_cases index : usage.CarriesIndex
      · exact .inl ⟨index, index.exists_shape_iff.mp ⟨shape, hshape⟩⟩
      · by_cases address : usage.CarriesAddress
        · exact .inr address
        · cases hshape.symm.trans (shape_of_not_carries index address)
    · rintro (⟨index, fits⟩ | address)
      · exact index.exists_shape_iff.mpr fits
      · exact address.exists_shape
  oversized index large := by
    obtain ⟨table, make, hshape⟩ := index.exists_shape_eq_map
    rw [hshape, operandIndex_of_le large]
    rfl
  unsupported := shape_of_not_carries
  confused_iff := shape_eq_iff
  constructed := Constructed.shape_eq

/-- The largest operand that is a row, and the next one: the second usage is damaged, although an
address could be just that number. -/
example : (⟨0xffffffff, 0, 0x13, false⟩ : TypeUsage).shape =
      .ok (.genericParameter ⟨0xffffffff⟩ false) ∧
    (⟨0x100000000, 0, 0x13, false⟩ : TypeUsage).shape =
      .error (.malformed (.oversizedOperand 0x100000000 0x13)) ∧
    (⟨0x100000000, 0, 0x1d, false⟩ : TypeUsage).shape =
      .ok (.composite (.vector ⟨0x100000000⟩)) := by
  decide

end TypeUsage

end TypeGraph
