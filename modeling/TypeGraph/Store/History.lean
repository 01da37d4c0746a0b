import TypeGraph.Store.Read

/-!
# Histories of a store

A store is the sum of what was done to it. To speak about that, what can be done to a store is a
value here, an `Edit`, and a history is the list of the edits that a new store went through.

What a store should hold can be told from its history alone. The rows of a table are the rows that
were pushed to it, one after the other, where a type definition has also gone through the changes
that were made to it later. The records that were mapped, and where, are told by counting the
addresses that were handed out before.

## Main definitions

* `Store.Edit` — what can be done to a store, and `Store.apply`
* `Store.Receipt` — what an edit answers
* `Store.applyEach` — applies several edits, one after the other
* `Store.build`, `Store.receipts` — the store that a history leads to, and what its edits answered
* `Store.nthAddress` — the address that is handed out after `n` others
* `Store.gather` — what the edits of a history come to, given how many addresses were handed out
* `Store.definitionsFrom`, `Store.Edit.mappings`, ... — what a history says about rows and records

## Main results

* `Store.amendDefinition_snd` — what a change of a type definition leaves
-/

namespace TypeGraph

namespace Store

/-- A store without rows and records that reads its strings from a heap. -/
def withStrings (strings : StringHeap) : Store := { strings }

/-- Changes a type definition in place, if there is such a row, and says whether there is. -/
def amendDefinition (index : DefinitionIndex) (change : TypeDefinition → TypeDefinition)
    (store : Store) : Bool × Store :=
  match store.definition index with
  | .ok row => (true, store.setDefinition index (change row))
  | .error _ => (false, store)

/-- Changing a type definition changes that row, if there is one, and nothing else. -/
theorem amendDefinition_snd (index : DefinitionIndex) (change : TypeDefinition → TypeDefinition)
    (store : Store) : (store.amendDefinition index change).2 =
      { store with definitions := store.definitions.modify index.toNat change } := by
  rw [amendDefinition, definition]
  by_cases within : index.toNat < store.definitions.size
  · have hset : store.definitions.modify index.toNat change =
        store.definitions.setIfInBounds index.toNat (change store.definitions[index.toNat]) := by
      refine Array.ext_getElem? fun place => ?_
      rw [Array.getElem?_modify, Array.getElem?_setIfInBounds]
      split
      · next same =>
        subst same
        simp [within]
      · rfl
    rw [row_of_lt within, hset]
    rfl
  · have hsame : store.definitions.modify index.toNat change = store.definitions := by
      refine Array.ext_getElem? fun place => ?_
      rw [Array.getElem?_modify]
      split
      · next same =>
        subst same
        simp [within]
      · rfl
    rw [row_of_le (Nat.le_of_not_lt within), hsame]

/-! ### Edits -/

/-- What can be done to a store. -/
inductive Edit where
  | intern (value : String)
  | allocate
  | pushDefinition (row : TypeDefinition)
  | amendDefinition (index : DefinitionIndex) (change : TypeDefinition → TypeDefinition)
  | pushField (row : FieldRow)
  | pushMethod (row : MethodRow)
  | pushParameter (row : ParameterRow)
  | pushGenericParameter (row : GenericParameterRow)
  | pushUsage (usage : TypeUsage)
  | pushUsageAddress (address : Address)
  | mapUsage (usage : TypeUsage)
  | mapGenericClass (genericClass : GenericClass)
  | mapInstantiation (arguments : List Address)
  | mapArray (descriptor : ArrayDescriptor)
  | mapRecord (address : Address) (record : MappedRecord)

/-- What an edit answers. -/
inductive Receipt where
  | done
  | string (offset : StringOffset)
  | row (table : Table) (index : Index table)
  | address (address : Address)
  | amended (found : Bool)
  deriving DecidableEq, Repr

/-- Applies an edit. -/
def apply : Edit → Store → Receipt × Store
  | .intern value, store => (store.intern value).map .string id
  | .allocate, store => store.allocate.map .address id
  | .pushDefinition row, store => (store.pushDefinition row).map (.row _) id
  | .amendDefinition index change, store => (store.amendDefinition index change).map .amended id
  | .pushField row, store => (store.pushField row).map (.row _) id
  | .pushMethod row, store => (store.pushMethod row).map (.row _) id
  | .pushParameter row, store => (store.pushParameter row).map (.row _) id
  | .pushGenericParameter row, store => (store.pushGenericParameter row).map (.row _) id
  | .pushUsage usage, store => (store.pushUsage usage).map (.row _) id
  | .pushUsageAddress address, store => (store.pushUsageAddress address).map (.row _) id
  | .mapUsage usage, store => (store.mapUsage usage).map .address id
  | .mapGenericClass genericClass, store => (store.mapGenericClass genericClass).map .address id
  | .mapInstantiation arguments, store => (store.mapInstantiation arguments).map .address id
  | .mapArray descriptor, store => (store.mapArray descriptor).map .address id
  | .mapRecord address record, store => (.done, store.mapRecord address record)

/-- Applies several edits, one after the other. -/
def applyEach : List Edit → Store → List Receipt × Store
  | [], store => ([], store)
  | edit :: rest, store =>
    let (receipt, store) := store.apply edit
    let (receipts, store) := store.applyEach rest
    (receipt :: receipts, store)

theorem applyEach_cons (edit : Edit) (rest : List Edit) (store : Store) :
    store.applyEach (edit :: rest) =
      ((store.apply edit).1 :: ((store.apply edit).2.applyEach rest).1,
        ((store.apply edit).2.applyEach rest).2) := rfl

/-- The store that a history leads to. -/
def build (strings : StringHeap) (history : List Edit) : Store :=
  ((withStrings strings).applyEach history).2

/-- What the edits of a history answered. -/
def receipts (strings : StringHeap) (history : List Edit) : List Receipt :=
  ((withStrings strings).applyEach history).1

namespace Receipt

/-- The row of a certain table that an edit answered with. -/
def handle? (table : Table) : Receipt → Option Nat
  | row table' index => if table' = table then some index.toNat else none
  | _ => none

/-- The address that an edit answered with. -/
def address? : Receipt → Option Address
  | address found => some found
  | _ => none

/-- The offset that an edit answered with. -/
def offset? : Receipt → Option StringOffset
  | string offset => some offset
  | _ => none

end Receipt

/-! ### Addresses -/

/-- The address that is handed out after `n` others. -/
def nthAddress (n : Nat) : Address := ⟨UInt64.ofNat (0x1000 + 0x10 * n)⟩

/-- How many addresses are handed out for an edit. An instantiation takes one for its list of
arguments and one for itself. -/
def Edit.addressCount : Edit → Nat
  | .allocate | .pushUsage _ | .mapUsage _ | .mapGenericClass _ | .mapArray _ => 1
  | .mapInstantiation _ => 2
  | _ => 0

/-- How many addresses are handed out in a history. -/
def addressCount : List Edit → Nat
  | [] => 0
  | edit :: rest => edit.addressCount + addressCount rest

/-- What the edits of a history come to, one after the other, where an edit may depend on how many
addresses were handed out before. -/
def gather {α : Type} (note : Nat → Edit → List α) : Nat → List Edit → List α
  | _, [] => []
  | count, edit :: rest => note count edit ++ gather note (count + edit.addressCount) rest

/-- The address that an edit answers with. -/
def Edit.answered (count : Nat) : Edit → List Address
  | .allocate | .mapUsage _ | .mapGenericClass _ | .mapArray _ => [nthAddress count]
  | .mapInstantiation _ => [nthAddress (count + 1)]
  | _ => []

/-- The records that an edit maps, and where. -/
def Edit.mappings (count : Nat) : Edit → List (Address × MappedRecord)
  | .pushUsage usage | .mapUsage usage => [(nthAddress count, .usage usage)]
  | .mapGenericClass genericClass => [(nthAddress count, .genericClass genericClass)]
  | .mapInstantiation arguments =>
    [(nthAddress count, .argumentList arguments),
      (nthAddress (count + 1),
        .genericInstantiation ⟨UInt32.ofNatClamp arguments.length, nthAddress count⟩)]
  | .mapArray descriptor => [(nthAddress count, .arrayDescriptor descriptor)]
  | .mapRecord address record => [(address, record)]
  | _ => []

/-- The records that are mapped in a history, and where, one after the other. -/
def mappings (history : List Edit) : List (Address × MappedRecord) :=
  gather Edit.mappings 0 history

/-! ### Rows -/

/-- The table that an edit pushes to. -/
def Edit.table? : Edit → Option Table
  | .pushDefinition _ => some .typeDefinition
  | .pushField _ => some .field
  | .pushMethod _ => some .method
  | .pushParameter _ => some .parameter
  | .pushGenericParameter _ => some .genericParameter
  | .pushUsage _ | .pushUsageAddress _ => some .typeUsage
  | _ => none

/-- How many rows are pushed to a table in a history. -/
def pushCount (table : Table) (history : List Edit) : Nat :=
  history.countP (·.table? = some table)

/-- The string that an edit interns. -/
def Edit.string? : Edit → Option String
  | .intern value => some value
  | _ => none

/-- The field that an edit pushes. -/
def Edit.field? : Edit → Option FieldRow
  | .pushField row => some row
  | _ => none

/-- The method that an edit pushes. -/
def Edit.method? : Edit → Option MethodRow
  | .pushMethod row => some row
  | _ => none

/-- The parameter that an edit pushes. -/
def Edit.parameter? : Edit → Option ParameterRow
  | .pushParameter row => some row
  | _ => none

/-- The generic parameter that an edit pushes. -/
def Edit.genericParameter? : Edit → Option GenericParameterRow
  | .pushGenericParameter row => some row
  | _ => none

/-- The address that an edit pushes to the type usage table. -/
def Edit.usageAddress (count : Nat) : Edit → List Address
  | .pushUsage _ => [nthAddress count]
  | .pushUsageAddress address => [address]
  | _ => []

/-- The addresses that are pushed to the type usage table in a history. -/
def usageAddresses (history : List Edit) : List Address := gather Edit.usageAddress 0 history

/-- What an edit makes of the type definition in row `place`. -/
def Edit.amend (place : Nat) : Edit → TypeDefinition → TypeDefinition
  | .amendDefinition index change, row => if index.toNat = place then change row else row
  | _, row => row

/-- What later edits make of the type definition in row `place`. -/
def amended (place : Nat) (later : List Edit) (row : TypeDefinition) : TypeDefinition :=
  later.foldl (fun row edit => edit.amend place row) row

/-- The type definitions that are pushed in a history, the first of them to row `place`, after all
changes that are made to them later on. -/
def definitionsFrom (place : Nat) : List Edit → List TypeDefinition
  | [] => []
  | .pushDefinition row :: later => amended place later row :: definitionsFrom (place + 1) later
  | _ :: later => definitionsFrom place later

end Store

end TypeGraph
