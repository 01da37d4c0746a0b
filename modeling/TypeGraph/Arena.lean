import TypeGraph.Entity

/-!
# The arena of resolved types

An arena is a growing array of slots, and a type's handle is the position of its slot. A slot is
reserved for a key before its entity exists and is filled once afterwards, so a type can refer to
itself while it is being built. Two indices lead to slots: by key, and by the full name of a
definition.

A reservation can be withdrawn. The indices forget the slot then, but the slot stays where it is and
its handle is never issued again; what had been read through the handle can still be read. A slot
that the key index leads to is *live*.

## Main definitions

* `Slot`, `Arena` — the slots and their indices
* `Arena.reserve`, `Arena.fill`, `Arena.withdraw` — the life of a slot
* `Arena.reserved?`, `Arena.lookup?`, `Arena.get` — reading by key and by handle
* `Arena.all`, `Arena.find?` — the live types, and definitions by full name

## Main results

* `Arena.reserved?_reserve`, `Arena.reserved?_fill`, `Arena.reserved?_withdraw` — what each
  operation does to the key index
* `Arena.slot?_reserve`, `Arena.slot?_fill`, `Arena.slot?_withdraw`, `Arena.slot?_modify` — and what
  it does to the slots
-/

namespace TypeGraph

/-- One place of an arena: the key that it was reserved for, and its entity once there is one. -/
structure Slot where
  key : TypeKey
  entity : Option TypeEntity := none
  deriving DecidableEq, Repr, Inhabited

/-- The slots of resolved types, with the indices that lead to them. -/
structure Arena where
  slots : Array Slot := #[]
  /-- The handle that stands for a key. -/
  keys : Std.HashMap TypeKey TypeId := Std.HashMap.emptyWithCapacity
  /-- The definition that is found under a full name. -/
  fullNames : Std.HashMap String TypeId := Std.HashMap.emptyWithCapacity
  deriving Inhabited

namespace Arena

/-- The arena without slots. -/
def empty : Arena := {}

/-! ### Reading by key and by handle -/

/-- The handle that was reserved for a key, filled or not. -/
def reserved? (arena : Arena) (key : TypeKey) : Option TypeId := arena.keys[key]?

/-- The slot behind a handle. -/
def slot? (arena : Arena) (id : TypeId) : Option Slot := arena.slots[id.index]?

/-- The entity behind a handle, if its slot is filled. -/
def entity? (arena : Arena) (id : TypeId) : Option TypeEntity := (arena.slot? id).bind Slot.entity

/-- The handle that stands for a key, once its entity can be read. -/
def lookup? (arena : Arena) (key : TypeKey) : Option TypeId :=
  (arena.reserved? key).filter fun id => (arena.entity? id).isSome

/-- Reads the entity behind a handle. A handle that was never issued is told apart from one whose
slot is still empty. -/
def get (arena : Arena) (id : TypeId) : Except Fault TypeEntity :=
  match arena.slot? id with
  | none => .error (.unknownType id)
  | some slot =>
    match slot.entity with
    | none => .error (.unfilled id)
    | some entity => .ok entity

/-- Whether a generic parameter occurs somewhere in a type. A reserved definition answers before
it is filled, since no definition contains one. -/
def containsParameters (arena : Arena) (id : TypeId) : Except Fault Bool :=
  match arena.slot? id with
  | none => .error (.unknownType id)
  | some ⟨_, some entity⟩ => .ok entity.containsParameters
  | some ⟨.definition _, none⟩ => .ok false
  | some ⟨.genericParameter .., none⟩ => .ok true
  | some ⟨_, none⟩ => .error (.unfilled id)

/-! ### The life of a slot -/

/-- Opens a slot for a key and lets the key lead to it. -/
def reserve (key : TypeKey) (arena : Arena) : TypeId × Arena :=
  let id : TypeId := ⟨arena.slots.size⟩
  (id, { arena with slots := arena.slots.push ⟨key, none⟩, keys := arena.keys.insert key id })

/-- Puts an entity into its reserved slot. A definition is entered under its full name too, unless
another definition already is. -/
def fill (id : TypeId) (entity : TypeEntity) (arena : Arena) : Except Fault Arena :=
  match arena.slot? id with
  | none => .error (.unknownType id)
  | some ⟨_, some _⟩ => .error (.malformed (.filledTwice id))
  | some ⟨key, none⟩ =>
    .ok { arena with
      slots := arena.slots.setIfInBounds id.index ⟨key, some entity⟩
      fullNames :=
        match entity.declaredName? with
        | some fullName =>
          if arena.fullNames.contains fullName then arena.fullNames
          else arena.fullNames.insert fullName id
        | none => arena.fullNames }

/-- Withdraws a reservation: neither its key nor the full name of its definition leads to the slot
any more. Entries that lead elsewhere are kept. -/
def withdraw (key : TypeKey) (id : TypeId) (arena : Arena) : Arena :=
  { arena with
    keys := if arena.keys[key]? = some id then arena.keys.erase key else arena.keys
    fullNames :=
      match (arena.entity? id).bind TypeEntity.declaredName? with
      | some fullName =>
        if arena.fullNames[fullName]? = some id then arena.fullNames.erase fullName
        else arena.fullNames
      | none => arena.fullNames }

/-- Applies `change` to the entity behind a handle, if there is one. -/
def modify (change : TypeEntity → TypeEntity) (id : TypeId) (arena : Arena) : Arena :=
  { arena with
    slots := arena.slots.modify id.index fun slot =>
      { slot with entity := slot.entity.map change } }

/-! ### Live types -/

/-- A handle is live if the key of its slot still leads to it. -/
def isLive (arena : Arena) (id : TypeId) : Bool :=
  match arena.slot? id with
  | some slot => arena.reserved? slot.key == some id
  | none => false

/-- The live types whose entities can be read, in the order of their handles. -/
def all (arena : Arena) : List TypeId :=
  ((List.range arena.slots.size).map TypeId.mk).filter fun id =>
    arena.isLive id && (arena.entity? id).isSome

/-- How many keys lead to a slot. -/
def size (arena : Arena) : Nat := arena.keys.size

/-- The definition that is entered under a full name. -/
def find? (arena : Arena) (fullName : String) : Option TypeId := arena.fullNames[fullName]?

/-! ### What the operations do to the key index -/

theorem reserved?_reserve (arena : Arena) (key key' : TypeKey) :
    (arena.reserve key).2.reserved? key' =
      if key = key' then some (arena.reserve key).1 else arena.reserved? key' := by
  simp [reserved?, reserve, Std.HashMap.getElem?_insert]

theorem reserved?_fill {arena filled : Arena} {id : TypeId} {entity : TypeEntity}
    (h : arena.fill id entity = .ok filled) (key : TypeKey) :
    filled.reserved? key = arena.reserved? key := by
  unfold fill at h
  split at h <;> cases h
  rfl

theorem reserved?_withdraw (arena : Arena) (key key' : TypeKey) (id : TypeId) :
    (arena.withdraw key id).reserved? key' =
      if key = key' ∧ arena.reserved? key = some id then none else arena.reserved? key' := by
  by_cases leads : arena.keys[key]? = some id <;>
    simp [reserved?, withdraw, leads, Std.HashMap.getElem?_erase]

/-! ### What the operations do to the slots -/

/-- Reserving opens one slot, and leaves all others as they are. -/
theorem slot?_reserve (arena : Arena) (key : TypeKey) (id : TypeId) :
    (arena.reserve key).2.slot? id =
      if id = (arena.reserve key).1 then some ⟨key, none⟩ else arena.slot? id := by
  obtain ⟨position⟩ := id
  simp [slot?, reserve, Array.getElem?_push]

/-- Filling puts an entity into one slot, and leaves all others as they are. -/
theorem slot?_fill {arena filled : Arena} {id : TypeId} {entity : TypeEntity}
    (h : arena.fill id entity = .ok filled) (id' : TypeId) :
    filled.slot? id' =
      if id' = id then (arena.slot? id).map fun slot => { slot with entity := some entity }
      else arena.slot? id' := by
  unfold fill at h
  split at h <;> cases h
  next key found =>
  obtain ⟨position⟩ := id
  obtain ⟨position'⟩ := id'
  obtain ⟨bound, -⟩ := Array.getElem?_eq_some_iff.1 found
  by_cases same : position' = position
  · subst same
    simp_all [slot?]
  · simp [slot?, same, Ne.symm same]

/-- Withdrawing leaves every slot as it is. -/
@[simp] theorem slot?_withdraw (arena : Arena) (key : TypeKey) (id id' : TypeId) :
    (arena.withdraw key id).slot? id' = arena.slot? id' := rfl

/-- Changing an entity changes it in its own slot alone. -/
theorem slot?_modify (arena : Arena) (change : TypeEntity → TypeEntity) (id id' : TypeId) :
    (arena.modify change id).slot? id' =
      if id' = id then
        (arena.slot? id).map fun slot => { slot with entity := slot.entity.map change }
      else arena.slot? id' := by
  obtain ⟨position⟩ := id
  obtain ⟨position'⟩ := id'
  by_cases same : position' = position
  · subst same
    simp [slot?, modify, Array.getElem?_modify]
  · simp [slot?, modify, Array.getElem?_modify, same, Ne.symm same]

end Arena

end TypeGraph
