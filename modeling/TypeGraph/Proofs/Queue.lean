import TypeGraph.Proofs.Progress

/-!
# The queue of a transaction

In the middle of a request some slots are empty. A transaction is *queued* if its key index leads to
slots that were reserved for just these keys, and if the empty ones among them are those of the
definitions that wait. It does not matter for this what the types were made from: reserving the slot
of a definition and letting it wait, making a type in one go, and filling the slot of a definition
that waits all keep a transaction queued, whatever the entities are.

## Main definitions

* `Transaction.Queued` — the empty slots are those of the definitions that wait

## Main results

* `Transaction.Queued.reserve`, `Transaction.Queued.make`, `Transaction.Queued.fill` — what a
  request does to its slots preserves it
-/

namespace TypeGraph

namespace Arena

variable {arena filled : Arena} {key key' : TypeKey} {id : TypeId} {entity : TypeEntity}

/-- After a type was made, a key leads to its slot or to where it led before. -/
theorem reserved?_make_cases
    (fills : (arena.reserve key).2.fill (arena.reserve key).1 entity = .ok filled)
    (h : filled.reserved? key' = some id) :
    (key' = key ∧ id = (arena.reserve key).1) ∨ arena.reserved? key' = some id :=
  reserved?_reserve_cases ((reserved?_fill fills key').symm.trans h)

/-- After a type was made, a slot holds its entity or what it held before. -/
theorem entity?_make
    (fills : (arena.reserve key).2.fill (arena.reserve key).1 entity = .ok filled) (id : TypeId) :
    filled.entity? id = if id = (arena.reserve key).1 then some entity else arena.entity? id := by
  rw [entity?_fill fills, entity?_reserve]

/-- Making a type leaves the entities of all slots that there were. -/
theorem entity?_make_of_keyAt?
    (fills : (arena.reserve key).2.fill (arena.reserve key).1 entity = .ok filled)
    (h : arena.keyAt? id = some key') : filled.entity? id = arena.entity? id := by
  rw [entity?_make fills, if_neg (ne_reserve_fst h _)]

end Arena

namespace Transaction

/-- The empty slots of a transaction are those of the definitions that wait. -/
structure Queued (store : Store) (transaction : Transaction) : Prop where
  /-- A key leads to a slot that was reserved for it. -/
  keyed {key : TypeKey} {id : TypeId} :
    transaction.arena.reserved? key = some id → transaction.arena.keyAt? id = some key
  /-- An empty slot that a key leads to is that of a definition that waits. -/
  awaited {key : TypeKey} {id : TypeId} :
    transaction.arena.reserved? key = some id → transaction.arena.entity? id = none →
      ∃ waiting ∈ transaction.pending, key = .definition waiting.index ∧ id = waiting.id
  /-- A definition that waits has an empty slot, and waits with its own row. -/
  waits {waiting : Pending} : waiting ∈ transaction.pending →
    transaction.arena.reserved? (.definition waiting.index) = some waiting.id ∧
      transaction.arena.entity? waiting.id = none ∧
      store.definition waiting.index = .ok waiting.row
  /-- No definition waits twice. -/
  distinct : transaction.pending.Nodup

namespace Queued

variable {store : Store} {before : Transaction}

/-- A handle for which a definition waits belongs to that definition alone. -/
theorem eq_of_id {waiting other : Pending} (queue : before.Queued store)
    (hwaiting : waiting ∈ before.pending) (hother : other ∈ before.pending)
    (same : other.id = waiting.id) : other = waiting := by
  obtain ⟨hid, -, hrow⟩ := queue.waits hwaiting
  obtain ⟨hid', -, hrow'⟩ := queue.waits hother
  have hkey := queue.keyed hid
  rw [← same, queue.keyed hid'] at hkey
  have hindex := TypeKey.definition.inj (Option.some.inj hkey)
  rw [hindex, hrow] at hrow'
  cases other
  cases waiting
  simp_all

/-- Reserving the slot of a definition keeps a transaction queued, if the definition waits then. -/
theorem reserve {index : DefinitionIndex} {row : TypeDefinition} {pending : List Pending}
    {journal : List (TypeKey × TypeId)} (queue : before.Queued store)
    (free : before.arena.reserved? (.definition index) = none)
    (found : store.definition index = .ok row)
    (queued : pending.Perm
      (⟨index, (before.arena.reserve (.definition index)).1, row⟩ :: before.pending)) :
    Queued store ⟨(before.arena.reserve (.definition index)).2, journal, pending⟩ := by
  have hremembers := Arena.remembers_reserve free
  constructor
  case keyed =>
    intro key id hid
    rcases Arena.reserved?_reserve_cases hid with ⟨rfl, rfl⟩ | hid
    · rw [Arena.keyAt?_reserve, if_pos rfl]
    · exact Arena.keyAt?_reserve_of_some (queue.keyed hid) _
  case awaited =>
    intro key id hid hempty
    rcases Arena.reserved?_reserve_cases hid with ⟨rfl, rfl⟩ | hid
    · exact ⟨_, queued.mem_iff.mpr List.mem_cons_self, rfl, rfl⟩
    · rw [Arena.entity?_reserve] at hempty
      obtain ⟨waiting, hwaiting, hkey⟩ := queue.awaited hid hempty
      exact ⟨waiting, queued.mem_iff.mpr (List.mem_cons_of_mem _ hwaiting), hkey⟩
  case waits =>
    intro waiting hwaiting
    rw [Arena.entity?_reserve]
    rcases List.mem_cons.mp (queued.mem_iff.mp hwaiting) with rfl | hold
    · refine ⟨?_, Arena.entity?_reserve_fst before.arena (.definition index), found⟩
      rw [Arena.reserved?_reserve, if_pos rfl]
    · obtain ⟨hid, hempty, hrow⟩ := queue.waits hold
      exact ⟨hremembers hid, hempty, hrow⟩
  case distinct =>
    refine queued.nodup_iff.mpr (List.nodup_cons.mpr ⟨fun hold => ?_, queue.distinct⟩)
    rw [(queue.waits hold).1] at free
    cases free

/-- Making a type keeps a transaction queued: its slot is filled as soon as it is reserved. -/
theorem make {key : TypeKey} {entity : TypeEntity} {filled : Arena}
    {journal : List (TypeKey × TypeId)} (queue : before.Queued store)
    (free : before.arena.reserved? key = none)
    (fills : (before.arena.reserve key).2.fill (before.arena.reserve key).1 entity = .ok filled) :
    Queued store ⟨filled, journal, before.pending⟩ := by
  have hremembers := (Arena.remembers_reserve free).trans (Arena.remembers_fill fills)
  constructor
  case keyed =>
    intro key id hid
    rw [Arena.keyAt?_fill fills]
    rcases Arena.reserved?_make_cases fills hid with ⟨rfl, rfl⟩ | hid
    · rw [Arena.keyAt?_reserve, if_pos rfl]
    · exact Arena.keyAt?_reserve_of_some (queue.keyed hid) _
  case awaited =>
    intro key id hid hempty
    rcases Arena.reserved?_make_cases fills hid with ⟨-, rfl⟩ | hid
    · rw [Arena.entity?_make fills, if_pos rfl] at hempty
      cases hempty
    · rw [Arena.entity?_make_of_keyAt? fills (queue.keyed hid)] at hempty
      exact queue.awaited hid hempty
  case waits =>
    intro waiting hwaiting
    obtain ⟨hid, hempty, hrow⟩ := queue.waits hwaiting
    refine ⟨hremembers hid, ?_, hrow⟩
    rw [Arena.entity?_make_of_keyAt? fills (queue.keyed hid), hempty]
  case distinct => exact queue.distinct

/-- Filling the slot of a definition keeps a transaction queued, if it waits no longer. -/
theorem fill {waiting : Pending} {entity : TypeEntity} {arena : Arena} {pending : List Pending}
    (queue : before.Queued store) (queued : before.pending.Perm (waiting :: pending))
    (fills : before.arena.fill waiting.id entity = .ok arena) :
    Queued store { before with arena, pending } := by
  have hremembers := Arena.remembers_fill fills
  have hwaiting := queued.mem_iff.mpr List.mem_cons_self
  obtain ⟨hnotmem, hdistinct⟩ := List.nodup_cons.mp (queued.nodup_iff.mp queue.distinct)
  constructor
  case keyed =>
    intro key id hkey
    rw [Arena.reserved?_fill fills] at hkey
    rw [Arena.keyAt?_fill fills, queue.keyed hkey]
  case awaited =>
    intro key id hkey hnone
    rw [Arena.reserved?_fill fills] at hkey
    rw [Arena.entity?_fill fills] at hnone
    split at hnone
    · cases hnone
    · next hne =>
      obtain ⟨other, hother, hsame, rfl⟩ := queue.awaited hkey hnone
      rcases List.mem_cons.mp (queued.mem_iff.mp hother) with rfl | hrest
      · exact absurd rfl hne
      · exact ⟨other, hrest, hsame, rfl⟩
  case waits =>
    intro other hother
    have hmem := queued.mem_iff.mpr (List.mem_cons_of_mem _ hother)
    obtain ⟨hid, hnone, hrow⟩ := queue.waits hmem
    refine ⟨hremembers hid, ?_, hrow⟩
    rw [Arena.entity?_fill fills, if_neg, hnone]
    exact fun hsame => hnotmem (queue.eq_of_id hwaiting hmem hsame ▸ hother)
  case distinct => exact hdistinct

end Queued

end Transaction

end TypeGraph
