import TypeGraph.Proofs.Soundness

/-!
# Rolling a transaction back

The journal of a transaction lists what was reserved since it began, and nothing else: handles are
issued one after the other, every key in the journal led nowhere before, and every full name that
was entered since leads to a handle in the journal. So withdrawing the journal leaves the arena as
it was, except for the slots at its end, which nothing leads to any more.

## Main definitions

* `Transaction.Since` — what a transaction has to do with the arena that it began with
* `Arena.Restored` — an arena that differs from another one in unused slots at its end only

## Main results

* `Transaction.Since.steps` — every step of a request keeps its journal
* `Transaction.Since.rollback`, `Arena.Sound.restored` — rolling back restores the arena that a
  transaction began with
-/

namespace TypeGraph

/-! ### The journal -/

/-- What a transaction has to do with the arena that it began with. -/
structure Transaction.Since (start : Arena) (transaction : Transaction) : Prop where
  /-- Every reservation opened one slot. -/
  size : transaction.arena.slots.size = start.slots.size + transaction.journal.length
  /-- The handles were issued one after the other, the newest of which is on top. -/
  handles : transaction.journal.map (fun entry => entry.2.index) =
    (List.range' start.slots.size transaction.journal.length).reverse
  /-- A key leads to a handle if it did at the beginning, or if the journal says so. -/
  keys {key : TypeKey} {id : TypeId} : transaction.arena.reserved? key = some id ↔
    (key, id) ∈ transaction.journal ∨ start.reserved? key = some id
  /-- What the journal lists was not reserved at the beginning. -/
  fresh {entry : TypeKey × TypeId} : entry ∈ transaction.journal → start.reserved? entry.1 = none
  /-- No key is reserved twice. -/
  distinct : (transaction.journal.map Prod.fst).Nodup
  /-- The slots of the beginning are untouched. -/
  slots {id : TypeId} : id.index < start.slots.size → transaction.arena.slot? id = start.slot? id
  /-- The full names of the beginning are untouched. -/
  kept {name : String} {id : TypeId} :
    start.find? name = some id → transaction.arena.find? name = some id
  /-- Every other full name leads to a definition that has it and that the journal lists. -/
  added {name : String} {id : TypeId} : transaction.arena.find? name = some id →
    start.find? name = some id ∨
      (∃ key, (key, id) ∈ transaction.journal) ∧
        (transaction.arena.entity? id).bind TypeEntity.declaredName? = some name
  /-- Whatever waits was reserved since the beginning. -/
  waits {waiting : Pending} : waiting ∈ transaction.pending →
    (.definition waiting.index, waiting.id) ∈ transaction.journal

namespace Transaction.Since

variable {store : Store} {limit : Nat} {start : Arena} {before after : Transaction}

theorem refl (start : Arena) : Since start { arena := start } where
  size := rfl
  handles := rfl
  keys := by simp
  fresh h := nomatch h
  distinct := .nil
  slots _ := rfl
  kept h := h
  added := .inl
  waits h := nomatch h

/-- A handle in the journal was issued since the beginning. -/
theorem le_index (since : Since start before) {entry : TypeKey × TypeId}
    (mem : entry ∈ before.journal) : start.slots.size ≤ entry.2.index := by
  have hindex : entry.2.index ∈ before.journal.map fun entry => entry.2.index :=
    List.mem_map_of_mem mem
  rw [since.handles, List.mem_reverse, List.mem_range'_1] at hindex
  exact hindex.1

theorem reserve (since : Since start before) {key : TypeKey} {pending : List Pending}
    (free : before.arena.reserved? key = none)
    (queued : ∀ waiting ∈ pending, waiting ∈ before.pending ∨
      (.definition waiting.index, waiting.id) = (key, (before.arena.reserve key).1)) :
    Since start
      { arena := (before.arena.reserve key).2
        journal := (key, (before.arena.reserve key).1) :: before.journal
        pending } := by
  constructor
  case size =>
    rw [Arena.size_reserve, since.size, List.length_cons, Nat.add_assoc]
  case handles =>
    have hnew : (before.arena.reserve key).1.index = start.slots.size + before.journal.length :=
      since.size
    rw [List.map_cons, hnew, since.handles, List.length_cons, List.range'_1_concat,
      List.reverse_append]
    rfl
  case keys =>
    intro key' id
    rw [Arena.reserved?_reserve, List.mem_cons, Prod.mk.injEq]
    split
    · next hkey =>
      subst hkey
      have hstart : ¬((key, id) ∈ before.journal ∨ start.reserved? key = some id) := by
        rw [← since.keys, free]
        exact nofun
      rw [or_assoc, or_iff_left hstart, Option.some.injEq]
      exact ⟨fun h => ⟨rfl, h.symm⟩, fun h => h.2.symm⟩
    · next hkey =>
      rw [since.keys, or_assoc]
      exact (or_iff_right fun h => hkey h.1.symm).symm
  case fresh =>
    intro entry mem
    rcases List.mem_cons.mp mem with rfl | mem
    · cases hstart : start.reserved? key with
      | none => rfl
      | some id => rw [since.keys.mpr (.inr hstart)] at free; cases free
    · exact since.fresh mem
  case distinct =>
    refine List.nodup_cons.mpr ⟨fun mem => ?_, since.distinct⟩
    obtain ⟨entry, hentry, rfl⟩ := List.mem_map.mp mem
    rw [since.keys.mpr (.inl hentry)] at free
    cases free
  case slots =>
    intro id hid
    rw [Arena.slot?_reserve, if_neg, since.slots hid]
    rintro rfl
    have hsize : start.slots.size ≤ before.arena.slots.size := by rw [since.size]; omega
    exact absurd hid (Nat.not_lt_of_le hsize)
  case kept => exact since.kept
  case added =>
    intro name id hname
    rcases since.added hname with hstart | ⟨⟨key', hmem⟩, hdeclared⟩
    · exact .inl hstart
    · refine .inr ⟨⟨key', List.mem_cons_of_mem _ hmem⟩, ?_⟩
      rw [Arena.entity?_reserve, hdeclared]
  case waits =>
    intro waiting hwaiting
    rcases queued waiting hwaiting with hold | hnew
    · exact List.mem_cons_of_mem _ (since.waits hold)
    · exact hnew ▸ List.mem_cons_self

theorem fill (since : Since start before) {key : TypeKey} {id : TypeId} {entity : TypeEntity}
    {filled : Arena} {pending : List Pending} (mem : (key, id) ∈ before.journal)
    (fills : before.arena.fill id entity = .ok filled)
    (queued : ∀ waiting ∈ pending, waiting ∈ before.pending) :
    Since start { before with arena := filled, pending } := by
  constructor
  case size => exact (Arena.size_fill fills).trans since.size
  case handles => exact since.handles
  case keys =>
    intro key' id'
    rw [Arena.reserved?_fill fills]
    exact since.keys
  case fresh => exact since.fresh
  case distinct => exact since.distinct
  case slots =>
    intro id' hid'
    rw [Arena.slot?_fill fills, if_neg, since.slots hid']
    rintro rfl
    exact absurd hid' (Nat.not_lt_of_le (since.le_index mem))
  case kept =>
    intro name id' hname
    have hold := since.kept hname
    rw [Arena.find?_fill fills, if_neg (fun h => by simp [hold] at h), hold]
  case added =>
    intro name id' hname
    rw [Arena.find?_fill fills] at hname
    rw [Arena.entity?_fill fills]
    split at hname
    · next hdeclared =>
      obtain rfl := Option.some.inj hname
      exact .inr ⟨⟨key, mem⟩, by rw [if_pos rfl]; exact hdeclared.1⟩
    · rcases since.added hname with hstart | ⟨hjournal, hdeclared⟩
      · exact .inl hstart
      · refine .inr ⟨hjournal, ?_⟩
        rw [if_neg, hdeclared]
        -- the slot that is filled was empty, so no full name led to it
        rintro rfl
        obtain ⟨key', hslot⟩ := Arena.slot?_of_fill fills
        rw [Arena.entity?, hslot] at hdeclared
        cases hdeclared
  case waits => exact fun hwaiting => since.waits (queued _ hwaiting)

/-- Every step of a request keeps its journal. -/
theorem step (since : Since start before) (h : Step store limit before after) :
    Since start after := by
  cases h with
  | reserve free found reserved queued =>
    obtain ⟨rfl, rfl⟩ := Prod.mk.inj reserved
    refine since.reserve free fun waiting hwaiting => ?_
    rcases List.mem_cons.mp (queued.mem_iff.mp hwaiting) with rfl | hold
    · exact .inr rfl
    · exact .inl hold
  | make denotes shallow makes free reserved fills =>
    obtain ⟨rfl, rfl⟩ := Prod.mk.inj reserved
    have hreserved := since.reserve free fun waiting (h : waiting ∈ before.pending) => .inl h
    exact hreserved.fill List.mem_cons_self fills fun _ h => h
  | fill queued portrays fills =>
    have hmem := since.waits (queued.mem_iff.mpr List.mem_cons_self)
    exact since.fill hmem fills fun _ h => queued.mem_iff.mpr (List.mem_cons_of_mem _ h)

theorem steps (since : Since start before) (h : Steps store limit before after) :
    Since start after := by
  induction h with
  | refl => exact since
  | tail _ step ih => exact ih.step step

end Transaction.Since

/-! ### Withdrawing the journal -/

namespace Arena

theorem reserved?_withdraw_eq_some_iff {arena : Arena} {key key' : TypeKey} {id id' : TypeId} :
    (arena.withdraw key id).reserved? key' = some id' ↔
      arena.reserved? key' = some id' ∧ (key, id) ≠ (key', id') := by
  rw [reserved?_withdraw]
  split
  · next h =>
    obtain ⟨rfl, hid⟩ := h
    rw [hid]
    simp
  · next h =>
    refine (and_iff_left_of_imp fun hid => ?_).symm
    rintro ⟨rfl, rfl⟩
    exact h ⟨rfl, hid⟩

theorem find?_withdraw_eq_some_iff {arena : Arena} {key : TypeKey} {id id' : TypeId}
    {name : String} :
    (arena.withdraw key id).find? name = some id' ↔
      arena.find? name = some id' ∧
        ((arena.entity? id').bind TypeEntity.declaredName? = some name → id ≠ id') := by
  rw [find?_withdraw]
  split
  · next h =>
    obtain ⟨hdeclared, hid⟩ := h
    rw [hid]
    refine ⟨nofun, ?_⟩
    rintro ⟨hsame, hne⟩
    obtain rfl := Option.some.inj hsame
    exact absurd rfl (hne hdeclared)
  · next h =>
    refine (and_iff_left_of_imp fun hid hdeclared => ?_).symm
    rintro rfl
    exact h ⟨hdeclared, hid⟩

/-- The arena with several reservations withdrawn, one after the other. -/
def withdrawAll (arena : Arena) (entries : List (TypeKey × TypeId)) : Arena :=
  entries.foldl (fun arena (key, id) => arena.withdraw key id) arena

theorem slots_withdrawAll (arena : Arena) (entries : List (TypeKey × TypeId)) :
    (arena.withdrawAll entries).slots = arena.slots := by
  induction entries generalizing arena with
  | nil => rfl
  | cons entry rest ih => exact ih _

theorem reserved?_withdrawAll {arena : Arena} {entries : List (TypeKey × TypeId)} {key : TypeKey}
    {id : TypeId} :
    (arena.withdrawAll entries).reserved? key = some id ↔
      arena.reserved? key = some id ∧ (key, id) ∉ entries := by
  induction entries generalizing arena with
  | nil => simp [withdrawAll]
  | cons entry rest ih =>
    have hfirst : arena.withdrawAll (entry :: rest) =
      (arena.withdraw entry.1 entry.2).withdrawAll rest := rfl
    rw [hfirst, ih, reserved?_withdraw_eq_some_iff, List.mem_cons, not_or, and_assoc, ne_comm]

theorem find?_withdrawAll {arena : Arena} {entries : List (TypeKey × TypeId)} {name : String}
    {id : TypeId} :
    (arena.withdrawAll entries).find? name = some id ↔
      arena.find? name = some id ∧
        ((arena.entity? id).bind TypeEntity.declaredName? = some name →
          ∀ key, (key, id) ∉ entries) := by
  induction entries generalizing arena with
  | nil => simp [withdrawAll]
  | cons entry rest ih =>
    have hfirst : arena.withdrawAll (entry :: rest) =
      (arena.withdraw entry.1 entry.2).withdrawAll rest := rfl
    rw [hfirst, ih, find?_withdraw_eq_some_iff, entity?_withdraw, and_assoc, ← imp_and]
    refine and_congr_right' (imp_congr_right fun _ => ?_)
    simp only [List.mem_cons, not_or]
    constructor
    · rintro ⟨hne, hrest⟩ key
      exact ⟨fun hsame => hne (hsame ▸ rfl), hrest key⟩
    · intro h
      exact ⟨fun hsame => (h entry.1).1 (hsame ▸ rfl), fun key => (h key).2⟩

/-- An arena is restored to an earlier one if it answers as that one does, except that there may
be further slots, to which nothing leads. -/
structure Restored (start after : Arena) : Prop where
  size : start.slots.size ≤ after.slots.size
  slots {id : TypeId} : id.index < start.slots.size → after.slot? id = start.slot? id
  keys (key : TypeKey) : after.reserved? key = start.reserved? key
  names (name : String) : after.find? name = start.find? name

namespace Restored

variable {store : Store} {limit : Nat} {start after : Arena}

theorem refl (arena : Arena) : Restored arena arena where
  size := Nat.le_refl _
  slots _ := rfl
  keys _ := rfl
  names _ := rfl

theorem entity?_eq (h : start.Restored after) {id : TypeId} (hid : id.index < start.slots.size) :
    after.entity? id = start.entity? id := by
  rw [entity?, entity?, h.slots hid]

theorem keyAt?_eq (h : start.Restored after) {id : TypeId} (hid : id.index < start.slots.size) :
    after.keyAt? id = start.keyAt? id := by
  rw [keyAt?, keyAt?, h.slots hid]

theorem get_eq (h : start.Restored after) {id : TypeId} (hid : id.index < start.slots.size) :
    after.get id = start.get id := by
  rw [get, get, h.slots hid]

/-- A restored arena is as sound as the one that it is restored to. -/
theorem sound (h : start.Restored after) (sound : start.Sound store limit) :
    after.Sound store limit :=
  sound.of_similar h.keys h.names (fun _ hid => h.keyAt?_eq hid) fun _ hid => by
    rw [h.entity?_eq hid]

theorem lookup?_eq (h : start.Restored after) (sound : start.Sound store limit) (key : TypeKey) :
    after.lookup? key = start.lookup? key := by
  rw [(h.sound sound).lookup?_eq, sound.lookup?_eq, h.keys]

theorem isLive_eq (h : start.Restored after) {id : TypeId} (hid : id.index < start.slots.size) :
    after.isLive id = start.isLive id := by
  rw [isLive, isLive, h.slots hid]
  cases start.slot? id with
  | none => rfl
  | some slot => simp only [h.keys]

/-- Nothing leads to the slots that a restored arena has in addition. -/
theorem reserved?_ne (h : start.Restored after) (sound : start.Sound store limit) {id : TypeId}
    (hid : start.slots.size ≤ id.index) (key : TypeKey) : after.reserved? key ≠ some id := by
  intro hkey
  rw [h.keys] at hkey
  exact absurd (index_lt_of_keyAt? (sound.keyed hkey)) (Nat.not_lt_of_le hid)

theorem find?_ne (h : start.Restored after) (sound : start.Sound store limit) {id : TypeId}
    (hid : start.slots.size ≤ id.index) (name : String) : after.find? name ≠ some id := by
  intro hname
  rw [h.names] at hname
  obtain ⟨key, entity, hkey, -⟩ := sound.named hname
  exact absurd (index_lt_of_keyAt? (sound.keyed hkey)) (Nat.not_lt_of_le hid)

theorem isLive_eq_false (h : start.Restored after) (sound : start.Sound store limit) {id : TypeId}
    (hid : start.slots.size ≤ id.index) : after.isLive id = false := by
  rw [isLive]
  cases after.slot? id with
  | none => rfl
  | some slot => simpa using h.reserved?_ne sound hid slot.key

/-- A restored arena has the same live types. -/
theorem all_eq (h : start.Restored after) (sound : start.Sound store limit) :
    after.all = start.all := by
  obtain ⟨extra, hextra⟩ := Nat.exists_eq_add_of_le h.size
  rw [all, all, hextra, List.range_add, List.map_append, List.filter_append]
  have hold : ((List.range start.slots.size).map TypeId.mk).filter
      (fun id => after.isLive id && (after.entity? id).isSome) =
        ((List.range start.slots.size).map TypeId.mk).filter
          fun id => start.isLive id && (start.entity? id).isSome := by
    refine List.filter_congr fun id mem => ?_
    obtain ⟨position, hposition, rfl⟩ := List.mem_map.mp mem
    have hid : position < start.slots.size := List.mem_range.mp hposition
    rw [h.isLive_eq hid, h.entity?_eq hid]
  have hnew : (((List.range extra).map (start.slots.size + ·)).map TypeId.mk).filter
      (fun id => after.isLive id && (after.entity? id).isSome) = [] := by
    refine List.filter_eq_nil_iff.mpr fun id mem => ?_
    obtain ⟨position, hposition, rfl⟩ := List.mem_map.mp mem
    obtain ⟨offset, -, rfl⟩ := List.mem_map.mp hposition
    rw [h.isLive_eq_false sound (Nat.le_add_right _ _)]
    simp
  rw [hold, hnew, List.append_nil]

/-- A restored arena has as many keys. -/
theorem size_eq (h : start.Restored after) : after.size = start.size :=
  (Std.HashMap.Equiv.of_forall_getElem?_eq h.keys).size_eq

end Restored

end Arena

/-- **Rolling back restores the arena that a transaction began with.** -/
theorem Transaction.Since.rollback {store : Store} {limit : Nat} {start : Arena}
    {transaction : Transaction} (since : Since start transaction)
    (sound : start.Sound store limit) : start.Restored transaction.rollback := by
  have hrollback : transaction.rollback = transaction.arena.withdrawAll transaction.journal := rfl
  rw [hrollback]
  constructor
  case size => rw [Arena.slots_withdrawAll, since.size]; omega
  case slots =>
    intro id hid
    rw [Arena.slot?, Arena.slots_withdrawAll]
    exact since.slots hid
  case keys =>
    intro key
    refine Option.ext fun id => ?_
    rw [Arena.reserved?_withdrawAll, since.keys]
    constructor
    · rintro ⟨hmem | hstart, hnot⟩
      · exact absurd hmem hnot
      · exact hstart
    · intro hstart
      refine ⟨.inr hstart, fun hmem => ?_⟩
      rw [since.fresh hmem] at hstart
      cases hstart
  case names =>
    intro name
    refine Option.ext fun id => ?_
    rw [Arena.find?_withdrawAll]
    constructor
    · rintro ⟨hname, hnot⟩
      rcases since.added hname with hstart | ⟨⟨key, hmem⟩, hdeclared⟩
      · exact hstart
      · exact absurd hmem (hnot hdeclared key)
    · intro hstart
      refine ⟨since.kept hstart, fun _ key hmem => ?_⟩
      obtain ⟨key', entity, hid, -⟩ := sound.named hstart
      have hbound := Arena.index_lt_of_keyAt? (sound.keyed hid)
      exact absurd hbound (Nat.not_lt_of_le (since.le_index hmem))

/-- A request that is rolled back leaves the arena as it was before the request. -/
theorem Arena.Sound.restored {store : Store} {limit : Nat} {start : Arena} {after : Transaction}
    (sound : start.Sound store limit)
    (steps : Transaction.Steps store limit { arena := start } after) :
    start.Restored after.rollback := by
  have hsince : Transaction.Since start after := (Transaction.Since.refl start).steps steps
  exact hsince.rollback sound

end TypeGraph
