import Mathlib
import TypeGraph.Proofs.Repetition

/-!
# Definitions and their rows

The row of a definition is read when the definition is first met, and written into an entity when
its turn comes, maybe long after, with whatever handles its base has got by then. The base may be
built from the definition itself. Between requests none of this shows. The entity of a live
definition is a transcript of its row: it has the strings that the row points at, its members are
the rows of the two runs, in their order, and its base is what anyone gets who asks for the usage of
the parent.

## Main definitions

* `Field.Transcribes`, `Parameter.Transcribes`, `Method.Transcribes` — members and their rows
* `TypeModel.Transcribes` — the entity of a definition and its row

## Main results

* `Field.exists_transcribes`, `Method.exists_transcribes` — members that were read transcribe rows
* `TypeModel.transcribes_of_mem_all` — the entity of every live definition transcribes its row
-/

namespace TypeGraph

/-! ### Members -/

/-- A field transcribes the row of its index. What its link remembers is its own affair. -/
structure Field.Transcribes (store : Store) (owner : TypeId) (index : FieldIndex) (row : FieldRow)
    (field : Field) : Prop where
  found : store.field index = .ok row
  index : field.index = index
  name : store.string row.name = .ok field.name
  token : field.token = row.token
  declaringType : field.declaringType = owner
  usage : field.type.usage = row.type

/-- A parameter transcribes the row of its index, and knows its place in the list. -/
structure Parameter.Transcribes (store : Store) (index : ParameterIndex) (place : Nat)
    (row : ParameterRow) (parameter : Parameter) : Prop where
  found : store.parameter index = .ok row
  index : parameter.index = index
  name : store.string row.name = .ok parameter.name
  token : parameter.token = row.token
  position : parameter.position.toNat = place
  usage : parameter.type.usage = row.type

/-- A method transcribes the row of its index, and its parameters those of the run of the row. -/
structure Method.Transcribes (store : Store) (owner : TypeId) (index : MethodIndex)
    (row : MethodRow) (method : Method) : Prop where
  found : store.method index = .ok row
  index : method.index = index
  name : store.string row.name = .ok method.name
  token : method.token = row.token
  flags : method.flags = row.flags
  declaringType : method.declaringType = owner
  usage : method.returnType.usage = row.returnType
  parameters : List.Forall₂
    (fun (place : ParameterIndex × Nat) parameter =>
      ∃ parameterRow, parameter.Transcribes store place.1 place.2 parameterRow)
    (row.parameterStart.run row.parameterCount).zipIdx method.parameters

section Members

variable {store : Store} {owner : TypeId}

theorem Field.exists_transcribes {index : FieldIndex} {field : Field}
    (read : Field.read store owner index = .ok (field.map id TypeLink.forget)) :
    ∃ row, field.Transcribes store owner index row := by
  simp only [Field.read, bind_eq_ok_iff] at read
  obtain ⟨row, hrow, name, hname, hread⟩ := read
  obtain ⟨hindex, rfl, htoken, howner, hlink⟩ := Field.mk.inj (Except.ok.inj hread)
  exact ⟨row, hrow, hindex.symm, hname, htoken.symm, howner.symm,
    (congrArg TypeLink.usage hlink).symm⟩

/-- The place of a parameter is written into sixteen bits, which hold the length of any run. -/
theorem Parameter.exists_transcribes {index : ParameterIndex} {place : Nat} {parameter : Parameter}
    (bound : place < UInt16.size)
    (read : Parameter.read store index place = .ok (parameter.map TypeLink.forget)) :
    ∃ row, parameter.Transcribes store index place row := by
  simp only [Parameter.read, bind_eq_ok_iff] at read
  obtain ⟨row, hrow, name, hname, hread⟩ := read
  obtain ⟨hindex, rfl, htoken, hposition, hlink⟩ := Parameter.mk.inj (Except.ok.inj hread)
  refine ⟨row, hrow, hindex.symm, hname, htoken.symm, ?_, (congrArg TypeLink.usage hlink).symm⟩
  have hplace : parameter.position = place.toUInt16 := hposition.symm
  rw [hplace]
  exact UInt16.toNat_ofNat_of_lt' bound

/-- A run is no longer than its count. -/
theorem Index.place_lt_of_mem_zipIdx_run {table : Table} {first : Index table} {count : UInt16}
    {place : Index table × Nat} (mem : place ∈ (first.run count).zipIdx) :
    place.2 < UInt16.size := by
  have hlength : (first.run count).length ≤ count.toNat := by
    rw [length_run]
    exact Nat.min_le_left _ _
  have hplace := List.snd_lt_of_mem_zipIdx mem
  have hcount := count.toNat_lt_size
  omega

theorem Method.exists_transcribes {index : MethodIndex} {method : Method}
    (read : Method.read store owner index = .ok (method.map id TypeLink.forget)) :
    ∃ row, method.Transcribes store owner index row := by
  simp only [Method.read, bind_eq_ok_iff] at read
  obtain ⟨row, hrow, parameters, hparameters, name, hname, hread⟩ := read
  obtain ⟨hindex, rfl, htoken, hflags, howner, hlink, rfl⟩ := Method.mk.inj (Except.ok.inj hread)
  refine ⟨row, hrow, hindex.symm, hname, htoken.symm, hflags.symm, howner.symm,
    (congrArg TypeLink.usage hlink).symm, ?_⟩
  rw [mapM_eq_ok_iff, List.forall₂_map_right_iff] at hparameters
  have hplaced := (List.forall₂_and_left _ _).mpr
    ⟨fun place mem => Index.place_lt_of_mem_zipIdx_run mem, hparameters⟩
  exact hplaced.imp fun place parameter h => Parameter.exists_transcribes h.1 h.2

end Members

/-! ### Definitions -/

/-- The entity of a definition transcribes its row. Its base is what the model answers when it is
asked for the usage of the parent, and answering that costs nothing. -/
structure TypeModel.Transcribes (model : TypeModel) (id : TypeId) (row : TypeDefinition)
    (entity : TypeEntity) (definition : Definition) : Prop where
  found : model.store.definition definition.index = .ok row
  namespaceName : model.store.string row.namespaceName = .ok definition.namespaceName
  name : model.store.string row.name = .ok definition.name
  attributes : entity.attributes = .ofFlags row.flags
  containsParameters : entity.containsParameters = false
  origin : entity.origin = .definition definition.index
  base_eq_none_iff : definition.base = none ↔ row.parent = none
  base {parent : UsageIndex} : row.parent = some parent → ∃ base, definition.base = some base ∧
    model.resolveUsageIndex parent = (.ok base, model)
  fields : List.Forall₂
    (fun index field => ∃ fieldRow, field.Transcribes model.store id index fieldRow)
    (row.fieldStart.run row.fieldCount) definition.fields
  methods : List.Forall₂
    (fun index method => ∃ methodRow, method.Transcribes model.store id index methodRow)
    (row.methodStart.run row.methodCount) definition.methods

namespace TypeModel

variable {store : Store} {config : Config} {model : TypeModel} {id : TypeId} {entity : TypeEntity}
  {definition : Definition}

/-- **The entity of every live definition transcribes its row**, whichever request built it and
whatever became of other requests. -/
theorem transcribes_of_mem_all (reachable : Reachable store config model) (live : id ∈ model.all)
    (found : model.get id = .ok entity) (shaped : entity.shape = .definition definition) :
    ∃ row, model.Transcribes id row entity definition := by
  obtain ⟨rfl, rfl⟩ : model.store = store ∧ model.config = config := reachable.sameImage
  obtain ⟨hsame, -, tree, hdepicts⟩ := reachable.honest.depicted_of_mem_all reachable.arenaSound
    live (Arena.get_eq_ok_iff.mp found)
  obtain ⟨waiting, -, rfl, hrow, hportrays⟩ :=
    hdepicts.exists_portrays (TypeEntity.definition?_eq_some_iff.mpr shaped)
  obtain rfl : waiting.id = id := hsame
  have hindex : definition.index = waiting.index := hportrays.index
  obtain ⟨hnone, hbase⟩ := hportrays.exists_base
  rw [definition.base_forget] at hnone hbase
  refine ⟨waiting.row, ?_⟩
  constructor
  case found => rw [hindex, hrow]
  case namespaceName => exact hportrays.namespaceName
  case name => exact hportrays.name
  case attributes => rfl
  case containsParameters => rfl
  case origin => rw [hindex]; rfl
  case base_eq_none_iff => exact hnone
  case base =>
    intro parent hparent
    obtain ⟨base, tree, hsome, hread, hid⟩ := hbase parent hparent
    exact ⟨base, hsome, reachable.resolve_of_idOf hread hid⟩
  case fields =>
    have hfields := hportrays.fields
    rw [TypeDefinition.readFields, mapM_eq_ok_iff] at hfields
    exact (List.forall₂_map_right_iff.mp hfields).imp fun _ _ => Field.exists_transcribes
  case methods =>
    have hmethods := hportrays.methods
    rw [TypeDefinition.readMethods, mapM_eq_ok_iff] at hmethods
    exact (List.forall₂_map_right_iff.mp hmethods).imp fun _ _ => Method.exists_transcribes

end TypeModel

/-! ### An image with one class -/

/-- An image with a class of nodes, which derives from a list of nodes and whose members mention
nodes and lists of them. -/
def Store.nodes : Store where
  strings := ⟨"\x00Graph\x00Node\x00List\x00next\x00link\x00to\x00back\x00".toUTF8,
    Std.HashMap.emptyWithCapacity⟩
  definitions := #[
    { name := ⟨7⟩, namespaceName := ⟨1⟩, parent := some ⟨0⟩, flags := 1, fieldCount := 1,
      methodCount := 1 },
    { name := ⟨12⟩, namespaceName := ⟨1⟩ }]
  usages := #[⟨1⟩, ⟨5⟩]
  fields := #[{ name := ⟨17⟩, type := ⟨1⟩, token := 4 }]
  methods := #[{ name := ⟨22⟩, returnType := ⟨1⟩, parameterCount := 2, flags := 6, token := 5 }]
  parameters := #[{ name := ⟨27⟩, type := ⟨1⟩, token := 8 },
    { name := ⟨30⟩, type := ⟨0⟩, token := 9 }]
  mapped := Std.HashMap.emptyWithCapacity
    |>.insert ⟨1⟩ (.usage (.genericInstance ⟨2⟩)) |>.insert ⟨2⟩ (.genericClass ⟨⟨1⟩, ⟨3⟩⟩)
    |>.insert ⟨3⟩ (.genericInstantiation ⟨1, ⟨4⟩⟩) |>.insert ⟨4⟩ (.argumentList [⟨5⟩])
    |>.insert ⟨5⟩ (.usage (.definition ⟨0⟩))

/-- Questions about an image with nodes. The second one makes a link remember its type, and the last
one fails. -/
def Store.nodesHistory : List Request :=
  [.definition ⟨0⟩, .member ⟨0⟩ (.field 0), .definition ⟨7⟩]

/-- The class of nodes. -/
def Store.node : Definition where
  index := ⟨0⟩
  namespaceName := "Graph"
  name := "Node"
  base := some ⟨2⟩
  fields := [⟨⟨0⟩, "next", 4, ⟨0⟩, ⟨⟨1⟩, some ⟨0⟩⟩⟩]
  methods := [⟨⟨0⟩, "link", 5, 6, ⟨0⟩, ⟨⟨1⟩, none⟩,
    [⟨⟨0⟩, "to", 8, 0, ⟨⟨1⟩, none⟩⟩, ⟨⟨1⟩, "back", 9, 1, ⟨⟨0⟩, none⟩⟩]⟩]

/-- The class of nodes transcribes its row, with the list of nodes that it derives from. -/
theorem TypeModel.transcribes_of_mem_all_nodes :
    ⟨0⟩ ∈ ((TypeModel.new .nodes .standard).askEach Store.nodesHistory).2.all ∧
      ((TypeModel.new .nodes .standard).askEach Store.nodesHistory).2.get ⟨0⟩ =
        .ok ⟨⟨0⟩, .definition ⟨0⟩, .ofFlags 1, false, .definition Store.node⟩ ∧
      ∃ row, ((TypeModel.new .nodes .standard).askEach Store.nodesHistory).2.Transcribes ⟨0⟩ row
        ⟨⟨0⟩, .definition ⟨0⟩, .ofFlags 1, false, .definition Store.node⟩ Store.node := by
  have hall : ((TypeModel.new .nodes .standard).askEach Store.nodesHistory).2.all =
      [⟨0⟩, ⟨1⟩, ⟨2⟩] := by
    cbv
  have hlive : ⟨0⟩ ∈ ((TypeModel.new .nodes .standard).askEach Store.nodesHistory).2.all :=
    hall ▸ List.mem_cons_self
  have hget : ((TypeModel.new .nodes .standard).askEach Store.nodesHistory).2.get ⟨0⟩ =
      .ok ⟨⟨0⟩, .definition ⟨0⟩, .ofFlags 1, false, .definition Store.node⟩ := by
    cbv
  exact ⟨hlive, hget, transcribes_of_mem_all (reachable_askEach .new _) hlive hget rfl⟩

end TypeGraph
