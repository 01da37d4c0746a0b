import TypeGraph.Proofs.Agenda
import TypeGraph.Proofs.Queue

/-!
# What holds throughout a request

A transaction is *sound* if its key index leads to slots that were reserved for just these keys, if
every slot that it leads to is filled or waits, and if the definitions that are filled are settled:
they can be read from the store, and the tree of the parent has a handle. At the end of a request
nothing waits, so everything that a resolved definition leads to is resolved as well.

## Main definitions

* `Transaction.Sound` — the invariant
* `Arena.Sound` — the invariant between requests, when nothing waits

## Main results

* `Transaction.Sound.step`, `Transaction.Sound.steps` — every step preserves it
* `Arena.Sound.settled_knows` — the definitions that are known between requests are settled
* `Arena.Sound.leadsTo` — what a known definition leads to is known
-/

namespace TypeGraph

/-! ### The invariant -/

/-- What holds of a transaction at every moment of a request. -/
structure Transaction.Sound (store : Store) (limit : Nat) (transaction : Transaction) : Prop where
  /-- A key leads to a slot that was reserved for it. -/
  keyed {key : TypeKey} {id : TypeId} :
    transaction.arena.reserved? key = some id → transaction.arena.keyAt? id = some key
  /-- The row of a placeholder exists. -/
  placed {index : GenericParameterIndex} {ofMethod : Bool} {id : TypeId} :
    transaction.arena.reserved? (.genericParameter index ofMethod) = some id →
      ∃ row, store.genericParameter index = .ok row
  /-- An empty slot that a key leads to is that of a definition that waits. -/
  awaited {key : TypeKey} {id : TypeId} :
    transaction.arena.reserved? key = some id → transaction.arena.entity? id = none →
      ∃ waiting ∈ transaction.pending, key = .definition waiting.index ∧ id = waiting.id
  /-- A definition that waits has an empty slot, and waits with its own row. -/
  waits {waiting : Pending} : waiting ∈ transaction.pending →
    transaction.arena.reserved? (.definition waiting.index) = some waiting.id ∧
      transaction.arena.entity? waiting.id = none ∧
      store.definition waiting.index = .ok waiting.row
  /-- No definition waits twice. -/
  distinct : transaction.pending.Nodup
  /-- A definition that is filled can be read, and the tree of its parent has a handle. -/
  settled {index : DefinitionIndex} {id : TypeId} :
    transaction.arena.reserved? (.definition index) = some id →
      transaction.arena.entity? id ≠ none →
      ∃ parent, store.readDefinition limit index = .ok parent ∧
        ∀ tree ∈ parent, (transaction.arena.idOf tree).isSome
  /-- A full name leads to a definition that has it and that a key leads to. -/
  named {name : String} {id : TypeId} : transaction.arena.find? name = some id →
    ∃ key entity, transaction.arena.reserved? key = some id ∧
      transaction.arena.entity? id = some entity ∧ entity.declaredName? = some name

namespace Arena.Makes

variable {store : Store} {arena : Arena} {tree : TypeTree} {attributes : TypeAttributes}
  {flag : Bool} {shape : TypeShape}

theorem key_ne_definition (h : arena.Makes store tree attributes flag shape)
    (index : DefinitionIndex) : shape.key ≠ .definition index := by
  cases h <;> simp [TypeShape.key]

theorem exists_row (h : arena.Makes store tree attributes flag shape)
    {index : GenericParameterIndex} {ofMethod : Bool}
    (hkey : shape.key = .genericParameter index ofMethod) :
    ∃ row, store.genericParameter index = .ok row := by
  cases h with
  | genericParameter found =>
    obtain ⟨rfl, -⟩ := TypeKey.genericParameter.inj hkey
    exact ⟨_, found⟩
  | _ => simp [TypeShape.key] at hkey

end Arena.Makes

namespace Transaction

variable {store : Store} {limit : Nat} {before after : Transaction}

/-- A sound transaction is queued. -/
theorem Sound.queue (sound : before.Sound store limit) : before.Queued store where
  keyed := sound.keyed
  awaited := sound.awaited
  waits := sound.waits
  distinct := sound.distinct

/-- A definition is reserved only if its row exists. -/
theorem Sound.exists_row (sound : before.Sound store limit) {index : DefinitionIndex} {id : TypeId}
    (hid : before.arena.reserved? (.definition index) = some id) :
    ∃ row, store.definition index = .ok row := by
  cases hentity : before.arena.entity? id with
  | none =>
    obtain ⟨waiting, hwaiting, hkey, -⟩ := sound.awaited hid hentity
    rw [TypeKey.definition.inj hkey]
    exact ⟨_, (sound.waits hwaiting).2.2⟩
  | some entity =>
    obtain ⟨parent, hread, -⟩ := sound.settled hid (by simp [hentity])
    obtain ⟨row, hrow, -⟩ := Store.readDefinition_eq_ok_iff.mp hread
    exact ⟨row, hrow⟩

/-- A slot that a key leads to is filled, or it is that of a definition and still empty. -/
theorem Sound.filled_or_definition (sound : before.Sound store limit) {key : TypeKey} {id : TypeId}
    (hid : before.arena.reserved? key = some id) :
    (∃ entity, before.arena.get id = .ok entity) ∨
      ∃ index, before.arena.slot? id = some ⟨.definition index, none⟩ := by
  obtain ⟨⟨key', entity⟩, hslot, rfl⟩ := Option.map_eq_some_iff.mp (sound.keyed hid)
  cases entity with
  | some entity => exact .inl ⟨entity, by rw [Arena.get, hslot]⟩
  | none =>
    have hempty : before.arena.entity? id = none := by rw [Arena.entity?, hslot]; rfl
    obtain ⟨waiting, -, hkey, -⟩ := sound.awaited hid hempty
    obtain rfl : key' = .definition waiting.index := hkey
    exact .inr ⟨waiting.index, hslot⟩

/-- Whether a generic parameter occurs in a type can be said of every type that a key leads to. -/
theorem Sound.exists_flag (sound : before.Sound store limit) {key : TypeKey} {id : TypeId}
    (hid : before.arena.reserved? key = some id) :
    ∃ flag, before.arena.containsParameters id = .ok flag := by
  rcases sound.filled_or_definition hid with ⟨entity, hget⟩ | ⟨index, hslot⟩
  · obtain ⟨⟨key', _⟩, hslot, rfl⟩ := Option.bind_eq_some_iff.mp (Arena.get_eq_ok_iff.mp hget)
    exact ⟨entity.containsParameters, by rw [Arena.containsParameters, hslot]⟩
  · exact ⟨false, by rw [Arena.containsParameters, hslot]⟩

/-! ### Each step preserves it -/

theorem Sound.reserve {index : DefinitionIndex} {row : TypeDefinition} {pending : List Pending}
    {journal : List (TypeKey × TypeId)} (sound : before.Sound store limit)
    (free : before.arena.reserved? (.definition index) = none)
    (found : store.definition index = .ok row)
    (queued : pending.Perm
      (⟨index, (before.arena.reserve (.definition index)).1, row⟩ :: before.pending)) :
    Sound store limit ⟨(before.arena.reserve (.definition index)).2, journal, pending⟩ := by
  have hremembers := Arena.remembers_reserve free
  have hqueue : Queued store ⟨(before.arena.reserve (.definition index)).2, journal, pending⟩ :=
    sound.queue.reserve free found queued
  constructor
  case keyed => exact hqueue.keyed
  case placed =>
    intro index' ofMethod id hid
    rcases Arena.reserved?_reserve_cases hid with ⟨hkey, -⟩ | hid
    · cases hkey
    · exact sound.placed hid
  case awaited => exact hqueue.awaited
  case waits => exact hqueue.waits
  case distinct => exact hqueue.distinct
  case settled =>
    intro index' id hid hfilled
    rw [Arena.entity?_reserve] at hfilled
    rcases Arena.reserved?_reserve_cases hid with ⟨-, rfl⟩ | hid
    · exact absurd (Arena.entity?_reserve_fst _ _) hfilled
    · obtain ⟨parent, hread, hparent⟩ := sound.settled hid hfilled
      exact ⟨parent, hread, fun tree mem => hremembers.isSome_idOf (hparent tree mem)⟩
  case named =>
    intro name id hname
    rw [Arena.find?_reserve] at hname
    obtain ⟨key, entity, hid, hentity, hdeclared⟩ := sound.named hname
    exact ⟨key, entity, hremembers hid, by rw [Arena.entity?_reserve, hentity], hdeclared⟩

theorem Sound.make {tree : TypeTree} {attributes : TypeAttributes} {flag : Bool}
    {shape : TypeShape} {entity : TypeEntity} {filled : Arena}
    {journal : List (TypeKey × TypeId)} (sound : before.Sound store limit)
    (makes : before.arena.Makes store tree attributes flag shape)
    (free : before.arena.reserved? shape.key = none) (hshape : entity.shape = shape)
    (fills : (before.arena.reserve shape.key).2.fill (before.arena.reserve shape.key).1 entity =
      .ok filled) :
    Sound store limit ⟨filled, journal, before.pending⟩ := by
  have hremembers := (Arena.remembers_reserve free).trans (Arena.remembers_fill fills)
  have hqueue : Queued store ⟨filled, journal, before.pending⟩ := sound.queue.make free fills
  have hold {key : TypeKey} {id : TypeId} (hid : before.arena.reserved? key = some id) :
      filled.entity? id = before.arena.entity? id :=
    Arena.entity?_make_of_keyAt? fills (sound.keyed hid)
  constructor
  case keyed => exact hqueue.keyed
  case placed =>
    intro index ofMethod id hid
    rcases Arena.reserved?_make_cases fills hid with ⟨hkey, -⟩ | hid
    · exact makes.exists_row hkey.symm
    · exact sound.placed hid
  case awaited => exact hqueue.awaited
  case waits => exact hqueue.waits
  case distinct => exact hqueue.distinct
  case settled =>
    intro index id hid hfilled
    rcases Arena.reserved?_make_cases fills hid with ⟨hkey, -⟩ | hid
    · exact absurd hkey.symm (makes.key_ne_definition index)
    · rw [hold hid] at hfilled
      obtain ⟨parent, hread, hparent⟩ := sound.settled hid hfilled
      exact ⟨parent, hread, fun tree mem => hremembers.isSome_idOf (hparent tree mem)⟩
  case named =>
    intro name id hname
    have hnameless : entity.declaredName? = none := by
      rw [TypeEntity.declaredName?, makes.definition?_eq_none hshape]
      rfl
    rw [Arena.find?_fill fills, if_neg (by simp [hnameless]), Arena.find?_reserve] at hname
    obtain ⟨key, found, hid, hfound, hdeclared⟩ := sound.named hname
    exact ⟨key, found, hremembers hid, (hold hid).trans hfound, hdeclared⟩

/-- A definition that waits can be read, if its contents are those of its row. -/
theorem Sound.readDefinition_of_portrays {waiting : Pending} {definition : Definition}
    (sound : before.Sound store limit) (hwaiting : waiting ∈ before.pending)
    (portrays : before.arena.Portrays store limit waiting definition) :
    ∃ parent, store.readDefinition limit waiting.index = .ok parent ∧
      ∀ tree ∈ parent, (before.arena.idOf tree).isSome := by
  obtain ⟨parent, hparent, hbase⟩ := portrays.base
  refine ⟨parent, Store.readDefinition_eq_ok_iff.mpr ?_, fun tree mem => ?_⟩
  · refine ⟨waiting.row, (sound.waits hwaiting).2.2, ⟨_, portrays.namespaceName⟩,
      ⟨_, portrays.name⟩, hparent, ?_, ?_⟩
    · exact exists_ok_of_outcome (Store.outcome_readFields _ _ _) ⟨_, portrays.fields⟩
    · exact exists_ok_of_outcome (Store.outcome_readMethods _ _ _) ⟨_, portrays.methods⟩
  · obtain rfl := Option.mem_def.mp mem
    cases hid : definition.base with
    | none => rw [hid] at hbase; cases hbase
    | some id => rw [hid] at hbase; simp [Option.some.inj hbase]

theorem Sound.fill {waiting : Pending} {definition : Definition} {arena : Arena}
    {pending : List Pending} (sound : before.Sound store limit)
    (queued : before.pending.Perm (waiting :: pending))
    (portrays : before.arena.Portrays store limit waiting definition)
    (fills : before.arena.fill waiting.id (waiting.entity definition) = .ok arena) :
    Sound store limit { before with arena, pending } := by
  have hremembers := Arena.remembers_fill fills
  have hqueue : Queued store { before with arena, pending } := sound.queue.fill queued fills
  have hwaiting := queued.mem_iff.mpr List.mem_cons_self
  obtain ⟨hid, hempty, -⟩ := sound.waits hwaiting
  -- keys are as they were, and a key that does not lead here leads to what it led to
  have hindex {key : TypeKey} (hkey : before.arena.reserved? key = some waiting.id) :
      key = .definition waiting.index :=
    Option.some.inj ((sound.keyed hkey).symm.trans (sound.keyed hid))
  constructor
  case keyed => exact hqueue.keyed
  case placed =>
    intro index ofMethod id hkey
    rw [Arena.reserved?_fill fills] at hkey
    exact sound.placed hkey
  case awaited => exact hqueue.awaited
  case waits => exact hqueue.waits
  case distinct => exact hqueue.distinct
  case settled =>
    intro index id hkey hfilled
    rw [Arena.reserved?_fill fills] at hkey
    rw [Arena.entity?_fill fills] at hfilled
    obtain ⟨parent, hread, hparent⟩ : ∃ parent, store.readDefinition limit index = .ok parent ∧
        ∀ tree ∈ parent, (before.arena.idOf tree).isSome := by
      by_cases hsame : id = waiting.id
      · obtain rfl := TypeKey.definition.inj (hindex (hsame ▸ hkey))
        exact sound.readDefinition_of_portrays hwaiting portrays
      · rw [if_neg hsame] at hfilled
        exact sound.settled hkey hfilled
    exact ⟨parent, hread, fun tree mem => hremembers.isSome_idOf (hparent tree mem)⟩
  case named =>
    intro name id hname
    rw [Arena.find?_fill fills] at hname
    split at hname
    · next hdeclared =>
      obtain rfl := Option.some.inj hname
      refine ⟨_, _, hremembers hid, ?_, hdeclared.1⟩
      rw [Arena.entity?_fill fills, if_pos rfl]
    · obtain ⟨key, entity, hkey, hentity, hdeclared⟩ := sound.named hname
      refine ⟨key, entity, hremembers hkey, ?_, hdeclared⟩
      rw [Arena.entity?_fill fills, if_neg, hentity]
      rintro rfl
      rw [hempty] at hentity
      cases hentity

/-! ### A request preserves it -/

/-- **Every step preserves what holds throughout a request.** -/
theorem Sound.step (sound : before.Sound store limit) (h : Step store limit before after) :
    after.Sound store limit := by
  cases h with
  | reserve free found reserved queued =>
    obtain ⟨rfl, rfl⟩ := Prod.mk.inj reserved
    exact sound.reserve free found queued
  | make denotes shallow makes free reserved fills =>
    obtain ⟨rfl, rfl⟩ := Prod.mk.inj reserved
    exact sound.make makes free rfl fills
  | fill queued portrays fills => exact sound.fill queued portrays fills

theorem Sound.steps (sound : before.Sound store limit) (h : Steps store limit before after) :
    after.Sound store limit := by
  induction h with
  | refl => exact sound
  | tail _ step ih => exact ih.step step

/-- No handle stands for two keys. -/
theorem Sound.keysDistinct (sound : before.Sound store limit) : before.arena.KeysDistinct :=
  fun _ _ _ hid hid' => Option.some.inj ((sound.keyed hid).symm.trans (sound.keyed hid'))

end Transaction

/-! ### Between requests -/

/-- What holds of an arena between requests: it is sound, and nothing waits. -/
def Arena.Sound (store : Store) (limit : Nat) (arena : Arena) : Prop :=
  Transaction.Sound store limit { arena }

namespace Arena.Sound

variable {store : Store} {limit : Nat} {arena arena' : Arena}

theorem of_transaction {transaction : Transaction} (sound : transaction.Sound store limit)
    (idle : transaction.pending = []) : transaction.arena.Sound store limit where
  keyed := sound.keyed
  placed := sound.placed
  awaited hid hempty := by simpa [idle] using sound.awaited hid hempty
  waits hwaiting := nomatch hwaiting
  distinct := .nil
  settled := sound.settled
  named := sound.named

theorem empty : Arena.Sound store limit .empty := by
  constructor <;> simp [Arena.empty, Arena.reserved?, Arena.find?]

/-- Whatever a key leads to is filled. -/
theorem isSome_entity? (sound : arena.Sound store limit) {key : TypeKey} {id : TypeId}
    (hid : arena.reserved? key = some id) : (arena.entity? id).isSome := by
  cases hempty : arena.entity? id with
  | some entity => rfl
  | none =>
    obtain ⟨waiting, hwaiting, -⟩ := Transaction.Sound.awaited sound hid hempty
    cases hwaiting

/-- Between requests, a key that leads to a slot leads to one that can be read. -/
theorem lookup?_eq (sound : arena.Sound store limit) (key : TypeKey) :
    arena.lookup? key = arena.reserved? key := by
  rw [lookup?]
  cases hid : arena.reserved? key with
  | none => rfl
  | some id => rw [Option.filter_some, if_pos (sound.isSome_entity? hid)]

/-- The definitions that an arena knows between requests are settled. -/
theorem settled_knows (sound : arena.Sound store limit) : store.Settled limit arena.knows := by
  intro index known
  obtain ⟨id, hid⟩ := Option.isSome_iff_exists.mp known
  have hfilled := Option.isSome_iff_ne_none.mp (sound.isSome_entity? hid)
  obtain ⟨parent, hread, hparent⟩ := Transaction.Sound.settled sound hid hfilled
  refine ⟨parent, hread, fun other hother => ?_⟩
  cases parent with
  | none => cases hother
  | some tree => exact knows_of_idOf (hparent tree rfl) hother

/-- **What a known definition leads to is known.** -/
theorem leadsTo (sound : arena.Sound store limit) {index other : DefinitionIndex}
    (known : arena.knows index = true) (leads : store.LeadsTo index other) :
    arena.knows other = true := by
  induction leads with
  | refl => exact known
  | tail _ names ih =>
    obtain ⟨parent, hread, hnamed⟩ := sound.settled_knows ih
    exact hnamed _ ((Store.names_iff_of_readDefinition hread).mp names)

/-- Soundness only depends on keys, on full names, and on what the slots hold that they lead to. -/
theorem of_similar (sound : arena.Sound store limit)
    (keys : ∀ key, arena'.reserved? key = arena.reserved? key)
    (names : ∀ name, arena'.find? name = arena.find? name)
    (slots : ∀ id, id.index < arena.slots.size → arena'.keyAt? id = arena.keyAt? id)
    (entities : ∀ id, id.index < arena.slots.size →
      (arena'.entity? id).map TypeEntity.declaredName? =
        (arena.entity? id).map TypeEntity.declaredName?) :
    arena'.Sound store limit := by
  have hremembers : arena.Remembers arena' := .of_eq keys
  have hbound {key : TypeKey} {id : TypeId} (hid : arena'.reserved? key = some id) :
      id.index < arena.slots.size :=
    index_lt_of_keyAt? (Transaction.Sound.keyed sound ((keys key).symm.trans hid))
  constructor
  case keyed =>
    intro key id hid
    rw [slots id (hbound hid)]
    exact Transaction.Sound.keyed sound ((keys key).symm.trans hid)
  case placed =>
    intro index ofMethod id hid
    exact Transaction.Sound.placed sound ((keys _).symm.trans hid)
  case awaited =>
    intro key id hid hempty
    have hsome := sound.isSome_entity? ((keys key).symm.trans hid)
    have hentity := entities id (hbound hid)
    rw [hempty] at hentity
    rw [Option.map_eq_none_iff.mp hentity.symm] at hsome
    cases hsome
  case waits => exact fun hwaiting => nomatch hwaiting
  case distinct => exact .nil
  case settled =>
    intro index id hid _
    have hid' := (keys _).symm.trans hid
    have hfilled := Option.isSome_iff_ne_none.mp (sound.isSome_entity? hid')
    obtain ⟨parent, hread, hparent⟩ := Transaction.Sound.settled sound hid' hfilled
    exact ⟨parent, hread, fun tree mem => hremembers.isSome_idOf (hparent tree mem)⟩
  case named =>
    intro name id hname
    obtain ⟨key, entity, hid, hentity, hdeclared⟩ :=
      Transaction.Sound.named sound ((names name).symm.trans hname)
    have hsame := entities id (hbound (hremembers hid))
    rw [hentity] at hsame
    obtain ⟨entity', hentity', hdeclared'⟩ := Option.map_eq_some_iff.mp hsame
    exact ⟨key, entity', hremembers hid, hentity', hdeclared'.trans hdeclared⟩

end Arena.Sound

end TypeGraph
