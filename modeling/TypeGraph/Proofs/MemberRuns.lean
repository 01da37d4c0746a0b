import Mathlib
import TypeGraph.Proofs.DefinitionRows
import TypeGraph.Proofs.Surveys

/-!
# Runs of members

A row names the members of a definition by the first of them and by how many there are. The indices
of such a run are consecutive, and if one of them lies past its table, the whole request fails: no
definition is resolved with some of its members left out.

There is one way to lose members. The end of a run is an index itself, so no run holds the largest
index there is, and a run that would go beyond it is cut off there. It still fails if any row that
is left in it lies past its table, and so it is for every table with fewer rows than there are
indices, unless nothing is left of the run: a run that begins at the largest index is empty, however
many members its row declares.

## Main definitions

* `Index.Numbers` — indices are those of a run
* `Index.Overruns` — a run goes beyond its table
* `TypeDefinition.Lists` — the members of a definition are those of the runs of its row
* `TypeModel.KeepsMembers` — a definition is resolved with all members of its runs or not at all

## Main results

* `Index.numbers_run` — a run has consecutive indices, as many as are declared unless it is cut off
* `Index.Overruns.exists_mem_run` — a run that goes beyond its table has a row past it
* `TypeModel.Reachable.keepsMembers` — no members are left out of definitions
-/

namespace TypeGraph

/-! ### Runs -/

namespace Index

variable {table : Table} {first index : Index table} {count : UInt16} {size : Nat}

/-- Indices are those of a run of a declared length. The run is cut off before the largest index
there is, and its indices are consecutive. -/
structure Numbers (first : Index table) (count : UInt16) (indices : List (Index table)) : Prop where
  length_eq : indices.length = min count.toNat (UInt32.size - 1 - first.toNat)
  toNat_eq {place : Nat} {index : Index table} :
    indices[place]? = some index → index.toNat = first.toNat + place

/-- **A run has consecutive indices.** -/
theorem numbers_run (first : Index table) (count : UInt16) :
    first.Numbers count (first.run count) where
  length_eq := length_run first count
  toNat_eq {place index} found := by
    obtain ⟨bound, rfl⟩ := List.getElem?_eq_some_iff.mp found
    rw [getElem_run]
    rw [length_run] at bound
    have hfits : first.toNat + place < UInt32.size := by omega
    exact UInt32.toNat_ofNat_of_lt' hfits

/-- The indices of a run, among all others. The largest index is in no run. -/
theorem mem_run_iff :
    index ∈ first.run count ↔ first.toNat ≤ index.toNat ∧
      index.toNat < first.toNat + count.toNat ∧ index.toNat < UInt32.size - 1 := by
  have hnumbers := numbers_run first count
  constructor
  · intro hmem
    obtain ⟨place, hplace⟩ := List.mem_iff_getElem?.mp hmem
    have hsame := hnumbers.toNat_eq hplace
    obtain ⟨bound, -⟩ := List.getElem?_eq_some_iff.mp hplace
    rw [hnumbers.length_eq] at bound
    omega
  · rintro ⟨hfirst, hcount, hlast⟩
    have hplace : index.toNat - first.toNat < (first.run count).length := by
      rw [hnumbers.length_eq]
      omega
    have hsame := hnumbers.toNat_eq (List.getElem?_eq_getElem hplace)
    have hindex : index = (first.run count)[index.toNat - first.toNat] := by
      refine eq_of_toNat_eq ?_
      omega
    exact hindex ▸ List.getElem_mem hplace

/-- A run goes beyond a table of a certain size: there is something in the run, and the table ends
before it does, be it where its row says or where it is cut off. -/
structure Overruns (first : Index table) (count : UInt16) (size : Nat) : Prop where
  nonempty : 0 < count.toNat
  begins : first.toNat < UInt32.size - 1
  past : size < min (first.toNat + count.toNat) (UInt32.size - 1)

/-- **A run that goes beyond its table has a row past it.** -/
theorem Overruns.exists_mem_run (h : first.Overruns count size) :
    ∃ index ∈ first.run count, size ≤ index.toNat := by
  obtain ⟨hnonempty, hbegins, hpast⟩ := h
  have hlast : max first.toNat size < UInt32.size := by omega
  refine ⟨ofNatClamp (max first.toNat size), mem_run_iff.mpr ?_, ?_⟩
  · rw [toNat_ofNatClamp hlast]
    omega
  · rw [toNat_ofNatClamp hlast]
    exact Nat.le_max_right _ _

/-- Where a member was read for each index of a run, the members have the indices of the run. -/
theorem numbers_of_forall₂ {α : Type} {rel : Index table → α → Prop} {indexOf : α → Index table}
    {members : List α} (read : List.Forall₂ rel (first.run count) members)
    (same : ∀ index member, rel index member → indexOf member = index) :
    first.Numbers count (members.map indexOf) := by
  have heach : List.Forall₂ Eq (first.run count) (members.map indexOf) :=
    List.forall₂_map_right_iff.mpr (read.imp fun index member h => (same index member h).symm)
  rw [List.forall₂_eq_eq_eq] at heach
  exact heach ▸ numbers_run first count

/-- Where a member was read for each index of a run, the run does not go beyond its table. -/
theorem not_overruns_of_forall₂ {α : Type} {rel : Index table → α → Prop} {members : List α}
    (read : List.Forall₂ rel (first.run count) members)
    (within : ∀ index member, rel index member → index.toNat < size) :
    ¬ first.Overruns count size := by
  intro h
  obtain ⟨index, hmem, hpast⟩ := h.exists_mem_run
  obtain ⟨member, -, hread⟩ := exists_mem_of_forall₂ read.flip hmem
  exact Nat.not_lt_of_le hpast (within index member hread)

end Index

/-! ### Members -/

/-- The members of a definition are those of the runs of its row, and so are the parameters of each
method, which know their places. -/
structure TypeDefinition.Lists (store : Store) (row : TypeDefinition) (definition : Definition) :
    Prop where
  fields : row.fieldStart.Numbers row.fieldCount (definition.fields.map Field.index)
  methods : row.methodStart.Numbers row.methodCount (definition.methods.map Method.index)
  parameters {method : Method} : method ∈ definition.methods →
    ∃ methodRow, store.method method.index = .ok methodRow ∧
      methodRow.parameterStart.Numbers methodRow.parameterCount
        (method.parameters.map Parameter.index) ∧
      ∀ (place : Nat) parameter, method.parameters[place]? = some parameter →
        parameter.position.toNat = place

/-- A run of a row goes beyond its table, or the run of a method that the row lists. -/
inductive TypeDefinition.Overruns (store : Store) (row : TypeDefinition) : Prop where
  | fields (beyond : row.fieldStart.Overruns row.fieldCount store.fields.size)
  | methods (beyond : row.methodStart.Overruns row.methodCount store.methods.size)
  | parameters {index : MethodIndex} {methodRow : MethodRow}
      (listed : index ∈ row.methodStart.run row.methodCount)
      (found : store.method index = .ok methodRow)
      (beyond : methodRow.parameterStart.Overruns methodRow.parameterCount store.parameters.size)

namespace Method.Transcribes

variable {store : Store} {owner : TypeId} {index : MethodIndex} {row : MethodRow} {method : Method}

/-- The parameters of a method were read for the indices of a run. -/
theorem forall₂_run (h : method.Transcribes store owner index row) :
    List.Forall₂ (fun index parameter => ∃ place parameterRow,
        Parameter.Transcribes store index place parameterRow parameter)
      (row.parameterStart.run row.parameterCount) method.parameters := by
  rw [← List.zipIdx_map_fst 0 (row.parameterStart.run row.parameterCount),
    List.forall₂_map_left_iff]
  exact h.parameters.imp fun place parameter ⟨parameterRow, hread⟩ => ⟨_, parameterRow, hread⟩

/-- A parameter knows its place. -/
theorem position_eq (h : method.Transcribes store owner index row) {place : Nat}
    {parameter : Parameter} (found : method.parameters[place]? = some parameter) :
    parameter.position.toNat = place := by
  obtain ⟨bound, rfl⟩ := List.getElem?_eq_some_iff.mp found
  have hbound : place < (row.parameterStart.run row.parameterCount).zipIdx.length :=
    h.parameters.length_eq ▸ bound
  obtain ⟨parameterRow, hread⟩ := h.parameters.get hbound bound
  rw [List.get_eq_getElem, List.getElem_zipIdx, Nat.zero_add] at hread
  exact hread.position

end Method.Transcribes

/-! ### Models -/

namespace TypeModel

variable {store : Store} {config : Config} {model : TypeModel} {id : TypeId} {row : TypeDefinition}
  {entity : TypeEntity} {definition : Definition}

/-- What transcribes a row has the members of its runs. -/
theorem Transcribes.lists (h : model.Transcribes id row entity definition) :
    row.Lists model.store definition where
  fields := Index.numbers_of_forall₂ h.fields fun _ _ ⟨_, hread⟩ => hread.index
  methods := Index.numbers_of_forall₂ h.methods fun _ _ ⟨_, hread⟩ => hread.index
  parameters {method} mem := by
    obtain ⟨index, -, methodRow, hread⟩ := exists_mem_of_forall₂ h.methods mem
    refine ⟨methodRow, hread.index ▸ hread.found, ?_, fun _ _ => hread.position_eq⟩
    exact Index.numbers_of_forall₂ hread.forall₂_run fun _ _ ⟨_, _, hparameter⟩ => hparameter.index

/-- What transcribes a row has read every row of its runs. -/
theorem Transcribes.not_overruns (h : model.Transcribes id row entity definition) :
    ¬ row.Overruns model.store := by
  rintro (hbeyond | hbeyond | ⟨hlisted, hfound, hbeyond⟩)
  · refine Index.not_overruns_of_forall₂ h.fields ?_ hbeyond
    exact fun _ _ ⟨_, hread⟩ => Store.lt_of_row hread.found
  · refine Index.not_overruns_of_forall₂ h.methods ?_ hbeyond
    exact fun _ _ ⟨_, hread⟩ => Store.lt_of_row hread.found
  · obtain ⟨method, -, methodRow, hread⟩ := exists_mem_of_forall₂ h.methods.flip hlisted
    obtain rfl := Except.ok.inj (hfound.symm.trans hread.found)
    refine Index.not_overruns_of_forall₂ hread.forall₂_run ?_ hbeyond
    exact fun _ _ ⟨_, _, hparameter⟩ => Store.lt_of_row hparameter.found

/-- A definition is resolved with all members of its runs, or the request fails. -/
structure KeepsMembers (model : TypeModel) (index : DefinitionIndex) : Prop where
  complete {id : TypeId} : (model.resolveDefinition index).1 = .ok id →
    ∃ entity definition row, (model.resolveDefinition index).2.get id = .ok entity ∧
      entity.shape = .definition definition ∧ model.store.definition index = .ok row ∧
      row.Lists model.store definition
  fails {row : TypeDefinition} : model.store.definition index = .ok row →
    row.Overruns model.store → ∃ fault, (model.resolveDefinition index).1 = .error fault

/-- Whoever asks for a definition gets an entity that transcribes its row. -/
theorem Reachable.exists_transcribes (h : Reachable store config model) {index : DefinitionIndex}
    (answered : (model.resolveDefinition index).1 = .ok id) :
    ∃ entity definition row, (model.resolveDefinition index).2.get id = .ok entity ∧
      entity.shape = .definition definition ∧ definition.index = index ∧
      (model.resolveDefinition index).2.Transcribes id row entity definition := by
  have hafter : Reachable store config (model.resolveDefinition index).2 :=
    h.resolve (.definition index)
  have hknown : (model.resolveDefinition index).2.lookup? (.definition index) = some id := by
    rcases h.resolveDefinition_cases index with ⟨fault, -, hfailed, -⟩ | ⟨-, id', -, hid, hknown⟩
    · cases answered.symm.trans hfailed
    · obtain rfl := Except.ok.inj (answered.symm.trans hid)
      exact hknown
  obtain ⟨hlive, entity, hget, -, hkey⟩ := (hafter.indexAgrees.lookup?_iff _ _).mp hknown
  obtain ⟨definition, hshape, hindex⟩ := TypeShape.exists_of_key_eq_definition hkey.symm
  obtain ⟨row, htranscribes⟩ := transcribes_of_mem_all hafter hlive hget hshape
  exact ⟨entity, definition, row, hget, hshape, hindex, htranscribes⟩

/-- **No member is left out of a definition**, but for those that a run loses where it is cut
off. -/
theorem Reachable.keepsMembers (h : Reachable store config model) (index : DefinitionIndex) :
    model.KeepsMembers index := by
  have hstore : (model.resolveDefinition index).2.store = model.store :=
    (sameImage_resolveDefinition index model).1
  constructor
  case complete =>
    intro id answered
    obtain ⟨entity, definition, row, hget, hshape, rfl, htranscribes⟩ :=
      h.exists_transcribes answered
    refine ⟨entity, definition, row, hget, hshape, ?_, ?_⟩
    · exact hstore ▸ htranscribes.found
    · exact hstore ▸ htranscribes.lists
  case fails =>
    intro row hfound hoverruns
    cases hanswer : (model.resolveDefinition index).1 with
    | error fault => exact ⟨fault, rfl⟩
    | ok id =>
      obtain ⟨entity, definition, row', -, -, rfl, htranscribes⟩ := h.exists_transcribes hanswer
      -- every row of the runs was read, so none of them lies past its table
      have hnone := htranscribes.not_overruns
      have hfound' := htranscribes.found
      rw [hstore] at hnone hfound'
      obtain rfl := Except.ok.inj (hfound.symm.trans hfound')
      exact absurd hoverruns hnone

end TypeModel

/-! ### An image at the end of the index space -/

/-- An image without fields. Its first definition declares one field from the largest index on, its
second one three fields from the index before. -/
def Store.brink : Store where
  definitions := #[{ fieldStart := ⟨0xffffffff⟩, fieldCount := 1 },
    { fieldStart := ⟨0xfffffffe⟩, fieldCount := 3 }]

/-- The second definition keeps one row of three, and fails for that one. -/
theorem TypeModel.keepsMembers_brink :
    ((TypeModel.new .brink .standard).resolveDefinition ⟨1⟩).1 =
        .error (.indexOutOfRange .field 0xfffffffe 0) ∧
      (TypeModel.new .brink .standard).KeepsMembers ⟨1⟩ :=
  ⟨by cbv, Reachable.keepsMembers .new ⟨1⟩⟩

/-- The first definition is resolved without the field that it declares: nothing is left of its run
that could lie past the table. -/
theorem TypeModel.exists_member_lost_brink :
    ((TypeModel.new .brink .standard).resolveDefinition ⟨0⟩).1 = .ok ⟨0⟩ ∧
      ∃ entity definition row,
        ((TypeModel.new .brink .standard).resolveDefinition ⟨0⟩).2.get ⟨0⟩ = .ok entity ∧
          entity.shape = .definition definition ∧ Store.brink.definition ⟨0⟩ = .ok row ∧
          row.fieldCount.toNat = 1 ∧ definition.fields.length = 0 := by
  have hget : ((TypeModel.new .brink .standard).resolveDefinition ⟨0⟩).2.get ⟨0⟩ =
      .ok ⟨⟨0⟩, .definition ⟨0⟩, .ofFlags 0, false, .definition ⟨⟨0⟩, "", "", none, [], []⟩⟩ := by
    cbv
  have hrow : Store.brink.definition ⟨0⟩ = .ok { fieldStart := ⟨0xffffffff⟩, fieldCount := 1 } := by
    cbv
  exact ⟨by cbv, _, _, _, hget, rfl, hrow, rfl, rfl⟩

end TypeGraph
