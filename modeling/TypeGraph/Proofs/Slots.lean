import TypeGraph.Arena

/-!
# Keys, entities and full names

A slot has a key from the moment it is reserved, and an entity once it is filled. Apart from the key
index, the life of an arena is seen through three readings: the key of a slot, its entity, and the
handle that a full name leads to. This module says what reserving, filling, withdrawing and
modifying do to each of them, so that nothing later has to open an arena.

## Main definitions

* `Arena.keyAt?` — the key that a slot was reserved for

## Main results

* `Arena.keyAt?_reserve`, `Arena.keyAt?_fill` — keys of slots
* `Arena.entity?_reserve`, `Arena.entity?_fill`, `Arena.entity?_modify` — entities
* `Arena.find?_reserve`, `Arena.find?_fill`, `Arena.find?_withdraw` — full names
-/

namespace TypeGraph

namespace Arena

variable {arena filled : Arena} {key key' : TypeKey} {id id' : TypeId} {entity : TypeEntity}

theorem get_eq_ok_iff : arena.get id = .ok entity ↔ arena.entity? id = some entity := by
  rw [get, entity?]
  cases arena.slot? id with
  | none => simp
  | some slot =>
    obtain ⟨key, found⟩ := slot
    cases found <;> simp

/-! ### What the operations do to keys, entities and names -/

/-- The key that a slot was reserved for. -/
def keyAt? (arena : Arena) (id : TypeId) : Option TypeKey := (arena.slot? id).map Slot.key

theorem slot?_eq_none_of_le (h : arena.slots.size ≤ id.index) : arena.slot? id = none :=
  Array.getElem?_eq_none h

theorem index_lt_of_keyAt? (h : arena.keyAt? id = some key) : id.index < arena.slots.size := by
  refine Nat.lt_of_not_le fun hle => ?_
  rw [keyAt?, slot?_eq_none_of_le hle] at h
  cases h

theorem exists_keyAt? (h : id.index < arena.slots.size) : ∃ key, arena.keyAt? id = some key := by
  rw [keyAt?, slot?, Array.getElem?_eq_getElem h]
  exact ⟨_, rfl⟩

/-- A handle is live if its slot was reserved for a key that leads to it. -/
theorem isLive_iff :
    arena.isLive id = true ↔ ∃ key, arena.keyAt? id = some key ∧ arena.reserved? key = some id := by
  rw [isLive, keyAt?]
  cases arena.slot? id <;> simp

theorem slot?_reserve_fst (arena : Arena) (key : TypeKey) :
    arena.slot? (arena.reserve key).1 = none :=
  slot?_eq_none_of_le (Nat.le_refl _)

theorem keyAt?_reserve (arena : Arena) (key : TypeKey) (id : TypeId) :
    (arena.reserve key).2.keyAt? id =
      if id = (arena.reserve key).1 then some key else arena.keyAt? id := by
  rw [keyAt?, slot?_reserve]
  split <;> rfl

/-- A slot that was only reserved has no entity, and neither had it before. -/
@[simp] theorem entity?_reserve (arena : Arena) (key : TypeKey) (id : TypeId) :
    (arena.reserve key).2.entity? id = arena.entity? id := by
  rw [entity?, entity?, slot?_reserve]
  split
  · next h => rw [h, slot?_reserve_fst]; rfl
  · rfl

@[simp] theorem find?_reserve (arena : Arena) (key : TypeKey) (name : String) :
    (arena.reserve key).2.find? name = arena.find? name := rfl

theorem size_reserve (arena : Arena) (key : TypeKey) :
    (arena.reserve key).2.slots.size = arena.slots.size + 1 := Array.size_push _

/-- A slot can be filled only if it was reserved and is still empty. -/
theorem slot?_of_fill (h : arena.fill id entity = .ok filled) :
    ∃ key, arena.slot? id = some ⟨key, none⟩ := by
  unfold fill at h
  split at h
  · cases h
  · cases h
  · next key hslot => exact ⟨key, hslot⟩

theorem keyAt?_fill (h : arena.fill id entity = .ok filled) (id' : TypeId) :
    filled.keyAt? id' = arena.keyAt? id' := by
  rw [keyAt?, keyAt?, slot?_fill h]
  split
  · next hid => rw [hid, Option.map_map]; rfl
  · rfl

theorem entity?_fill (h : arena.fill id entity = .ok filled) (id' : TypeId) :
    filled.entity? id' = if id' = id then some entity else arena.entity? id' := by
  obtain ⟨key, hslot⟩ := slot?_of_fill h
  rw [entity?, slot?_fill h, hslot]
  split <;> rfl

/-- Filling enters a definition under its full name, unless the name is taken. -/
theorem find?_fill (h : arena.fill id entity = .ok filled) (name : String) :
    filled.find? name =
      if entity.declaredName? = some name ∧ arena.find? name = none then some id
      else arena.find? name := by
  unfold fill at h
  split at h <;> cases h
  cases hname : entity.declaredName? with
  | none => simp [find?]
  | some fullName =>
    cases htaken : arena.fullNames.contains fullName with
    | true =>
      have hsome : (arena.fullNames[fullName]?).isSome := by
        rwa [← Std.HashMap.contains_eq_isSome_getElem?]
      rw [if_neg]
      · simp [find?, htaken]
      · rintro ⟨hsame, hnone⟩
        obtain rfl := Option.some.inj hsame
        rw [find?] at hnone
        simp [hnone] at hsome
    | false =>
      have hnone : arena.fullNames[fullName]? = none :=
        Std.HashMap.getElem?_eq_none_of_contains_eq_false htaken
      by_cases hsame : fullName = name
      · subst hsame
        simp [find?, htaken, hnone]
      · simp [find?, htaken, hsame, Std.HashMap.getElem?_insert]

theorem size_fill (h : arena.fill id entity = .ok filled) :
    filled.slots.size = arena.slots.size := by
  unfold fill at h
  split at h <;> cases h
  exact Array.size_setIfInBounds

/-- Withdrawing a reservation forgets the full name that its entity was entered under. -/
theorem find?_withdraw (arena : Arena) (key : TypeKey) (id : TypeId) (name : String) :
    (arena.withdraw key id).find? name =
      if (arena.entity? id).bind TypeEntity.declaredName? = some name ∧ arena.find? name = some id
      then none else arena.find? name := by
  cases hname : (arena.entity? id).bind TypeEntity.declaredName? with
  | none => simp [find?, withdraw, hname]
  | some fullName =>
    by_cases hsame : fullName = name
    · subst hsame
      by_cases hleads : arena.fullNames[fullName]? = some id <;>
        simp [find?, withdraw, hname, hleads]
    · by_cases hleads : arena.fullNames[fullName]? = some id <;>
        simp [find?, withdraw, hname, hleads, hsame, Std.HashMap.getElem?_erase]

@[simp] theorem entity?_withdraw (arena : Arena) (key : TypeKey) (id id' : TypeId) :
    (arena.withdraw key id).entity? id' = arena.entity? id' := rfl

theorem keyAt?_modify (arena : Arena) (change : TypeEntity → TypeEntity) (id id' : TypeId) :
    (arena.modify change id).keyAt? id' = arena.keyAt? id' := by
  rw [keyAt?, keyAt?, slot?_modify]
  split
  · next hid => rw [hid, Option.map_map]; rfl
  · rfl

theorem entity?_modify (arena : Arena) (change : TypeEntity → TypeEntity) (id id' : TypeId) :
    (arena.modify change id).entity? id' =
      if id' = id then (arena.entity? id).map change else arena.entity? id' := by
  rw [entity?, slot?_modify]
  split
  · rw [entity?]
    cases arena.slot? id <;> rfl
  · rfl

/-! ### Handles that are new -/

/-- A handle that was issued before is not the one that is issued next. -/
theorem ne_reserve_fst (h : arena.keyAt? id = some key) (key' : TypeKey) :
    id ≠ (arena.reserve key').1 := by
  rintro rfl
  rw [keyAt?, slot?_reserve_fst] at h
  cases h

/-- Reserving keeps the keys that slots were reserved for. -/
theorem keyAt?_reserve_of_some (h : arena.keyAt? id = some key) (key' : TypeKey) :
    (arena.reserve key').2.keyAt? id = some key := by
  rw [keyAt?_reserve, if_neg (ne_reserve_fst h key'), h]

theorem entity?_reserve_fst (arena : Arena) (key : TypeKey) :
    arena.entity? (arena.reserve key).1 = none := by
  rw [entity?, slot?_reserve_fst]
  rfl

/-- After a reservation, a key leads to the new slot or to where it led before. -/
theorem reserved?_reserve_cases (h : (arena.reserve key).2.reserved? key' = some id) :
    (key' = key ∧ id = (arena.reserve key).1) ∨ arena.reserved? key' = some id := by
  rw [reserved?_reserve] at h
  split at h
  · next hkey => exact .inl ⟨hkey.symm, (Option.some.inj h).symm⟩
  · exact .inr h

/-- A slot that was reserved and is empty can be filled. -/
theorem exists_fill (hkey : arena.keyAt? id = some key) (hempty : arena.entity? id = none)
    (entity : TypeEntity) : ∃ filled, arena.fill id entity = .ok filled := by
  obtain ⟨⟨key, found⟩, hslot, -⟩ := Option.map_eq_some_iff.mp hkey
  rw [entity?, hslot] at hempty
  obtain rfl : found = none := hempty
  exact ⟨_, by rw [fill, hslot]⟩

theorem exists_fill_reserve (arena : Arena) (key : TypeKey) (entity : TypeEntity) :
    ∃ filled, (arena.reserve key).2.fill (arena.reserve key).1 entity = .ok filled := by
  have hkey : (arena.reserve key).2.keyAt? (arena.reserve key).1 = some key := by
    rw [keyAt?_reserve, if_pos rfl]
  refine exists_fill hkey ?_ entity
  rw [entity?_reserve, entity?_reserve_fst]

end Arena

end TypeGraph
