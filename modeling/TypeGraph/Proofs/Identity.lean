import TypeGraph.Arena
import TypeGraph.Tree

/-!
# The handle of a tree

A key says what a type is with the handles of its operands, a tree says it down to rows. Looking up
the keys of a tree from its leaves upwards turns the one into the other: in a given key index a tree
has at most one handle, and it is found without any raw record.

Two facts about `Arena.idOf` carry everything that is said later about the identity of types. It
only depends on the key index, and grows with it; and where no handle stands for two keys, no handle
stands for two trees.

## Main definitions

* `Arena.idOf`, `Arena.idsOf` — the handles of a tree, and of several
* `Arena.knows` — the definitions that are reserved
* `Arena.Remembers` — a key index that keeps every entry of another

## Main results

* `Arena.Remembers.idOf` — a tree keeps its handle as the key index grows
* `Arena.tree_eq_of_idOf` — trees with one handle are equal
-/

namespace TypeGraph

namespace Arena

variable {arena before after : Arena}

/-! ### Looking trees up -/

mutual

/-- The handle that stands for a tree, whether or not its slot is filled. -/
def idOf (arena : Arena) : TypeTree → Option TypeId
  | .definition index => arena.reserved? (.definition index)
  | .genericInstance index arguments =>
    (arena.reserved? (.definition index)).bind fun head =>
      (idsOf arena arguments).bind fun ids => arena.reserved? (.genericInstance head ids)
  | .array element rank => (idOf arena element).bind fun id => arena.reserved? (.array id rank)
  | .vector element => (idOf arena element).bind fun id => arena.reserved? (.vector id)
  | .pointer pointee => (idOf arena pointee).bind fun id => arena.reserved? (.pointer id)
  | .genericParameter index ofMethod => arena.reserved? (.genericParameter index ofMethod)

/-- The handles that stand for several trees, if each of them has one. -/
def idsOf (arena : Arena) : List TypeTree → Option (List TypeId)
  | [] => some []
  | tree :: rest => (idOf arena tree).bind fun id => (idsOf arena rest).map (id :: ·)

end

/-- What a tree is, said with the handles of its parts: the key under which it is looked up. -/
def keyOf (arena : Arena) : TypeTree → Option TypeKey
  | .definition index => some (.definition index)
  | .genericInstance index arguments =>
    (arena.reserved? (.definition index)).bind fun head =>
      (arena.idsOf arguments).map (.genericInstance head)
  | .array element rank => (arena.idOf element).map (.array · rank)
  | .vector element => (arena.idOf element).map .vector
  | .pointer pointee => (arena.idOf pointee).map .pointer
  | .genericParameter index ofMethod => some (.genericParameter index ofMethod)

theorem keyOf_genericInstance {index : DefinitionIndex} {arguments : List TypeTree}
    {key : TypeKey} :
    arena.keyOf (.genericInstance index arguments) = some key ↔
      ∃ head ids, arena.reserved? (.definition index) = some head ∧
        arena.idsOf arguments = some ids ∧ .genericInstance head ids = key := by
  simp only [keyOf, Option.bind_eq_some_iff, Option.map_eq_some_iff, exists_and_left]

/-- A tree has the handle that its key leads to. -/
theorem idOf_eq_bind_keyOf (tree : TypeTree) :
    arena.idOf tree = (arena.keyOf tree).bind arena.reserved? := by
  cases tree with
  | definition index | genericParameter index ofMethod => rw [idOf]; rfl
  | genericInstance index arguments =>
    rw [idOf, keyOf]
    cases arena.reserved? (.definition index) with
    | none => rfl
    | some head => cases arena.idsOf arguments <;> rfl
  | array element | vector element | pointer element =>
    rw [idOf, keyOf]
    cases arena.idOf element <;> rfl

theorem idOf_eq_some_iff {tree : TypeTree} {id : TypeId} :
    arena.idOf tree = some id ↔
      ∃ key, arena.keyOf tree = some key ∧ arena.reserved? key = some id := by
  rw [idOf_eq_bind_keyOf, Option.bind_eq_some_iff]

theorem idsOf_cons {tree : TypeTree} {rest : List TypeTree} {ids : List TypeId} :
    arena.idsOf (tree :: rest) = some ids ↔
      ∃ id others, arena.idOf tree = some id ∧ arena.idsOf rest = some others ∧
        id :: others = ids := by
  simp only [idsOf, Option.bind_eq_some_iff, Option.map_eq_some_iff, exists_and_left]

/-- Several trees have handles exactly if each of them has one. -/
theorem isSome_idsOf {trees : List TypeTree} :
    (arena.idsOf trees).isSome ↔ ∀ tree ∈ trees, (arena.idOf tree).isSome := by
  induction trees with
  | nil => simp [idsOf]
  | cons tree rest ih =>
    rw [List.forall_mem_cons, ← ih, idsOf]
    cases arena.idOf tree <;> cases arena.idsOf rest <;> simp

theorem exists_key_of_idsOf {trees : List TypeTree} {ids : List TypeId}
    (found : arena.idsOf trees = some ids) {id : TypeId} (mem : id ∈ ids) :
    ∃ key, arena.reserved? key = some id := by
  induction trees generalizing ids with
  | nil =>
    obtain rfl := Option.some.inj found
    cases mem
  | cons tree rest ih =>
    obtain ⟨first, others, hfirst, hothers, rfl⟩ := idsOf_cons.mp found
    rcases List.mem_cons.mp mem with rfl | mem
    · obtain ⟨key, -, hkey⟩ := idOf_eq_some_iff.mp hfirst
      exact ⟨key, hkey⟩
    · exact ih hothers mem

/-- The definitions that an arena knows are those that are reserved. -/
def knows (arena : Arena) (index : DefinitionIndex) : Bool :=
  (arena.reserved? (.definition index)).isSome

/-- A tree that has a handle only names definitions that the arena knows. -/
theorem knows_of_idOf {tree : TypeTree} (found : (arena.idOf tree).isSome)
    {index : DefinitionIndex} (mem : index ∈ tree.definitions) : arena.knows index = true := by
  obtain ⟨id, hid⟩ := Option.isSome_iff_exists.mp found
  clear found
  induction tree using TypeTree.induction generalizing id with
  | definition index' =>
    obtain rfl := List.mem_singleton.mp mem
    rw [Arena.idOf] at hid
    exact Option.isSome_of_mem hid
  | genericParameter index' ofMethod => cases mem
  | genericInstance index' arguments ih =>
    obtain ⟨key, hkey, -⟩ := idOf_eq_some_iff.mp hid
    obtain ⟨head, ids, hhead, hids, -⟩ := keyOf_genericInstance.mp hkey
    rw [TypeTree.definitions, List.mem_cons, TypeTree.mem_definitionsOfAll] at mem
    rcases mem with rfl | ⟨argument, hargument, mem⟩
    · exact Option.isSome_of_mem hhead
    · have hsome := isSome_idsOf.mp (Option.isSome_of_mem hids) argument hargument
      obtain ⟨inner, hinner⟩ := Option.isSome_iff_exists.mp hsome
      exact ih argument hargument mem inner hinner
  | array element rank ih | vector element ih | pointer element ih =>
    rw [Arena.idOf, Option.bind_eq_some_iff] at hid
    obtain ⟨inner, hinner, -⟩ := hid
    rw [TypeTree.definitions] at mem
    exact ih mem inner hinner

/-! ### Growing key indices -/

/-- A key index remembers another one if every key still leads to the same handle. -/
def Remembers (before after : Arena) : Prop :=
  ∀ ⦃key id⦄, before.reserved? key = some id → after.reserved? key = some id

theorem Remembers.refl (arena : Arena) : Remembers arena arena := fun _ _ h => h

theorem Remembers.trans {middle : Arena} (h : Remembers before middle)
    (h' : Remembers middle after) : Remembers before after := fun _ _ found => h' (h found)

theorem Remembers.of_eq (h : ∀ key, after.reserved? key = before.reserved? key) :
    Remembers before after := fun key _ found => (h key).trans found

theorem Remembers.idsOf {trees : List TypeTree}
    (each : ∀ tree ∈ trees, ∀ id, before.idOf tree = some id → after.idOf tree = some id)
    {ids : List TypeId} (found : before.idsOf trees = some ids) : after.idsOf trees = some ids := by
  induction trees generalizing ids with
  | nil => exact found
  | cons tree rest ih =>
    obtain ⟨id, others, hid, hothers, rfl⟩ := idsOf_cons.mp found
    refine idsOf_cons.mpr ⟨id, others, each tree List.mem_cons_self id hid, ?_, rfl⟩
    exact ih (fun tree mem => each tree (List.mem_cons_of_mem _ mem)) hothers

/-- **A tree keeps its handle** as long as the keys of its parts keep theirs. -/
theorem Remembers.idOf (h : Remembers before after) {tree : TypeTree} {id : TypeId}
    (found : before.idOf tree = some id) : after.idOf tree = some id := by
  induction tree using TypeTree.induction generalizing id with
  | definition index | genericParameter index ofMethod =>
    rw [Arena.idOf] at found ⊢
    exact h found
  | genericInstance index arguments ih =>
    obtain ⟨key, hkey, hid⟩ := idOf_eq_some_iff.mp found
    obtain ⟨head, ids, hhead, hids, rfl⟩ := keyOf_genericInstance.mp hkey
    have hids' : after.idsOf arguments = some ids :=
      Remembers.idsOf (fun tree mem id => ih tree mem) hids
    exact idOf_eq_some_iff.mpr
      ⟨_, keyOf_genericInstance.mpr ⟨head, ids, h hhead, hids', rfl⟩, h hid⟩
  | array element rank ih | vector element ih | pointer element ih =>
    rw [Arena.idOf, Option.bind_eq_some_iff] at found ⊢
    obtain ⟨inner, hinner, hid⟩ := found
    exact ⟨inner, ih hinner, h hid⟩

theorem Remembers.keyOf (h : Remembers before after) {tree : TypeTree} {key : TypeKey}
    (found : before.keyOf tree = some key) : after.keyOf tree = some key := by
  cases tree with
  | definition index | genericParameter index ofMethod => exact found
  | genericInstance index arguments =>
    obtain ⟨head, ids, hhead, hids, rfl⟩ := keyOf_genericInstance.mp found
    have hids' := Remembers.idsOf (fun _ _ _ => h.idOf) hids
    exact keyOf_genericInstance.mpr ⟨head, ids, h hhead, hids', rfl⟩
  | array element | vector element | pointer element =>
    obtain ⟨inner, hinner, rfl⟩ := Option.map_eq_some_iff.mp found
    exact Option.map_eq_some_iff.mpr ⟨inner, h.idOf hinner, rfl⟩

theorem Remembers.isSome_idOf (h : Remembers before after) {tree : TypeTree}
    (found : (before.idOf tree).isSome) : (after.idOf tree).isSome := by
  obtain ⟨id, hid⟩ := Option.isSome_iff_exists.mp found
  exact Option.isSome_iff_exists.mpr ⟨id, h.idOf hid⟩

/-! ### One tree to a handle -/

/-- No handle stands for two keys. -/
def KeysDistinct (arena : Arena) : Prop :=
  ∀ ⦃key key' id⦄, arena.reserved? key = some id → arena.reserved? key' = some id → key = key'

theorem trees_eq_of_idsOf {trees trees' : List TypeTree} {ids : List TypeId}
    (each : ∀ tree ∈ trees, ∀ tree' id, arena.idOf tree = some id → arena.idOf tree' = some id →
      tree = tree')
    (found : arena.idsOf trees = some ids) (found' : arena.idsOf trees' = some ids) :
    trees = trees' := by
  induction trees generalizing trees' ids with
  | nil =>
    obtain rfl : [] = ids := Option.some.inj found
    cases trees' with
    | nil => rfl
    | cons tree' rest' => obtain ⟨_, _, _, _, h⟩ := idsOf_cons.mp found'; cases h
  | cons tree rest ih =>
    obtain ⟨id, others, hid, hothers, rfl⟩ := idsOf_cons.mp found
    cases trees' with
    | nil => cases Option.some.inj found'
    | cons tree' rest' =>
      obtain ⟨id', others', hid', hothers', heq⟩ := idsOf_cons.mp found'
      obtain ⟨rfl, rfl⟩ := List.cons.inj heq
      have hrest := ih (fun tree mem => each tree (List.mem_cons_of_mem _ mem)) hothers hothers'
      rw [each tree List.mem_cons_self tree' id' hid hid', hrest]

/-- A key says at its top what the trees are that have it. -/
theorem tree_of_keyOf {tree : TypeTree} {key : TypeKey} (h : arena.keyOf tree = some key) :
    match key with
    | .definition index => tree = .definition index
    | .genericInstance head ids =>
      ∃ index arguments, tree = .genericInstance index arguments ∧
        arena.reserved? (.definition index) = some head ∧ arena.idsOf arguments = some ids
    | .array id rank => ∃ element, tree = .array element rank ∧ arena.idOf element = some id
    | .vector id => ∃ element, tree = .vector element ∧ arena.idOf element = some id
    | .pointer id => ∃ pointee, tree = .pointer pointee ∧ arena.idOf pointee = some id
    | .genericParameter index ofMethod => tree = .genericParameter index ofMethod := by
  cases tree with
  | definition index | genericParameter index ofMethod =>
    obtain rfl := Option.some.inj h
    rfl
  | genericInstance index arguments =>
    obtain ⟨head, ids, hhead, hids, rfl⟩ := keyOf_genericInstance.mp h
    exact ⟨index, arguments, rfl, hhead, hids⟩
  | array element | vector element | pointer element =>
    obtain ⟨id, hid, rfl⟩ := Option.map_eq_some_iff.mp h
    exact ⟨element, rfl, hid⟩

theorem exists_common_key (distinct : KeysDistinct arena) {tree tree' : TypeTree} {id : TypeId}
    (found : arena.idOf tree = some id) (found' : arena.idOf tree' = some id) :
    ∃ key, arena.keyOf tree = some key ∧ arena.keyOf tree' = some key := by
  obtain ⟨key, hkey, hid⟩ := idOf_eq_some_iff.mp found
  obtain ⟨key', hkey', hid'⟩ := idOf_eq_some_iff.mp found'
  obtain rfl := distinct hid hid'
  exact ⟨key, hkey, hkey'⟩

/-- **One tree to a handle.** Where no handle stands for two keys, none stands for two trees. -/
theorem tree_eq_of_idOf (distinct : KeysDistinct arena) {tree tree' : TypeTree} {id : TypeId}
    (found : arena.idOf tree = some id) (found' : arena.idOf tree' = some id) : tree = tree' := by
  induction tree using TypeTree.induction generalizing tree' id with
  | definition index | genericParameter index ofMethod =>
    obtain ⟨key, hkey, hkey'⟩ := exists_common_key distinct found found'
    obtain rfl := Option.some.inj hkey
    exact (tree_of_keyOf hkey').symm
  | genericInstance index arguments ih =>
    obtain ⟨key, hkey, hkey'⟩ := exists_common_key distinct found found'
    obtain ⟨head, ids, hhead, hids, rfl⟩ := keyOf_genericInstance.mp hkey
    obtain ⟨index', arguments', rfl, hhead', hids'⟩ := tree_of_keyOf hkey'
    -- the head of an instantiation is a definition, so its own key says which
    have hindex := TypeKey.definition.inj (distinct hhead hhead')
    rw [hindex, trees_eq_of_idsOf (fun tree mem tree' id => ih tree mem) hids hids']
  | array element rank ih | vector element ih | pointer element ih =>
    obtain ⟨key, hkey, hkey'⟩ := exists_common_key distinct found found'
    obtain ⟨inner, hinner, rfl⟩ := Option.map_eq_some_iff.mp hkey
    obtain ⟨element', rfl, hinner'⟩ := tree_of_keyOf hkey'
    rw [ih hinner hinner']

end Arena

end TypeGraph
