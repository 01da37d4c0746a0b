import TypeGraph.Entity

/-!
# Keywords of full names

A definition is written with a keyword if its full name is a certain one, and no matter how the full
name is made up: a namespace may contain dots and so may a name, so that one full name belongs to
several pairs of the two. Looking for the name of a primitive behind the last dot comes to the same,
since no name of a primitive contains a dot.

## Main definitions

* `HasKeyword` — the full names with a keyword
* `splitLastDot?` — a text before and after its last dot
* `keywordBySplit?` — the keyword of a full name, found by what stands before and after its last dot

## Main results

* `keywordAlias?_eq_some_iff` — which full names have which keyword
* `keywordBySplit?_eq` — both ways of looking for a keyword find the same
-/

namespace TypeGraph

/-! ### Full names with a keyword -/

/-- A full name has a keyword: it names a primitive with a keyword, or the decimal type. -/
inductive HasKeyword : String → String → Prop where
  | primitive {kind : PrimitiveKind} {word : String} (written : kind.keyword? = some word) :
      HasKeyword ("System." ++ kind.name) word
  | decimal : HasKeyword "System.Decimal" "decimal"

theorem PrimitiveKind.fullName_eq (kind : PrimitiveKind) : kind.fullName = "System." ++ kind.name :=
  rfl

/-- **The keywords of full names.** -/
theorem keywordAlias?_eq_some_iff {fullName word : String} :
    keywordAlias? fullName = some word ↔ HasKeyword fullName word := by
  constructor
  · intro h
    obtain ⟨before, after, htable, -⟩ := List.lookup_eq_some_iff.mp h
    have hmem : (fullName, word) ∈ keywordTable := by simp [htable]
    rcases List.mem_cons.mp hmem with hdecimal | hprimitive
    · obtain ⟨rfl, rfl⟩ := Prod.mk.inj hdecimal
      exact .decimal
    · obtain ⟨kind, -, hkind⟩ := List.mem_filterMap.mp hprimitive
      obtain ⟨word', hword, hentry⟩ := Option.map_eq_some_iff.mp hkind
      obtain ⟨rfl, rfl⟩ := Prod.mk.inj hentry
      exact .primitive hword
  · rintro (written | -)
    · exact (keywordAlias?_fullName _).trans written
    · rfl

/-- There are fifteen primitives with a keyword. -/
example : (PrimitiveKind.all.filterMap PrimitiveKind.keyword?).length = 15 := by decide

/-! ### The last dot -/

/-- A text before and after its last dot. -/
def splitLastDot? : List Char → Option (List Char × List Char)
  | [] => none
  | first :: rest =>
    match splitLastDot? rest with
    | some (before, after) => some (first :: before, after)
    | none => if first = '.' then some ([], rest) else none

theorem splitLastDot?_eq_none_iff {text : List Char} : splitLastDot? text = none ↔ '.' ∉ text := by
  induction text with
  | nil => simp [splitLastDot?]
  | cons first rest ih =>
    rw [splitLastDot?, List.mem_cons, not_or, ← ih]
    cases splitLastDot? rest with
    | none => simp [eq_comm]
    | some parts => simp

/-- Splitting at the last dot leaves no dot behind it. -/
theorem splitLastDot?_eq_some_iff {text before after : List Char} :
    splitLastDot? text = some (before, after) ↔ text = before ++ '.' :: after ∧ '.' ∉ after := by
  induction text generalizing before after with
  | nil => simp [splitLastDot?]
  | cons first rest ih =>
    rw [splitLastDot?]
    cases before with
    | nil =>
      rw [List.nil_append, List.cons.injEq]
      cases hrest : splitLastDot? rest with
      | none =>
        have hnone := splitLastDot?_eq_none_iff.mp hrest
        by_cases hdot : first = '.'
        · subst hdot
          simp only [↓reduceIte, Option.some.injEq, Prod.mk.injEq, true_and]
          exact ⟨fun h => ⟨h, h ▸ hnone⟩, And.left⟩
        · simp [hdot]
      | some parts =>
        -- there is a later dot
        obtain ⟨before', after'⟩ := parts
        obtain ⟨rfl, -⟩ := ih.mp hrest
        have hmem : '.' ∈ before' ++ '.' :: after' :=
          List.mem_append_right before' List.mem_cons_self
        refine iff_of_false (by simp) ?_
        rintro ⟨⟨-, rfl⟩, habsent⟩
        exact habsent hmem
    | cons first' before =>
      rw [List.cons_append, List.cons.injEq, and_assoc, ← ih]
      cases hrest : splitLastDot? rest with
      | none => simp
      | some parts => simp [Prod.ext_iff, and_assoc]

/-- The keyword of a full name, found by what stands before its last dot and after it. -/
def keywordBySplit? (fullName : String) : Option String :=
  if fullName = "System.Decimal" then some "decimal"
  else do
    let (before, after) ← splitLastDot? fullName.toList
    let kind ← PrimitiveKind.all.find? fun kind =>
      PrimitiveKind.namespaceName == String.ofList before && kind.name == String.ofList after
    kind.keyword?

theorem keywordBySplit?_fullName (kind : PrimitiveKind) :
    keywordBySplit? kind.fullName = kind.keyword? := by
  cases kind <;> decide +kernel

theorem keywordBySplit?_eq_some_iff {fullName word : String} :
    keywordBySplit? fullName = some word ↔ HasKeyword fullName word := by
  constructor
  · intro h
    rw [keywordBySplit?] at h
    split at h
    · next hdecimal =>
      obtain rfl := Option.some.inj h
      exact hdecimal ▸ .decimal
    · obtain ⟨⟨before, after⟩, hsplit, h⟩ := Option.bind_eq_some_iff.mp h
      obtain ⟨kind, hkind, hword⟩ := Option.bind_eq_some_iff.mp h
      have hnames := List.find?_some hkind
      rw [Bool.and_eq_true, beq_iff_eq, beq_iff_eq] at hnames
      obtain ⟨htext, -⟩ := splitLastDot?_eq_some_iff.mp hsplit
      have hfullName : fullName = "System." ++ kind.name := by
        rw [← kind.fullName_eq, PrimitiveKind.fullName, hnames.1, hnames.2,
          ← String.toList_inj, htext]
        simp
      exact hfullName ▸ .primitive hword
  · rintro (written | -)
    · exact (keywordBySplit?_fullName _).trans written
    · rfl

/-- **Both ways of looking for a keyword find the same**, whatever dots a full name contains. -/
theorem keywordBySplit?_eq : keywordBySplit? = keywordAlias? := by
  funext fullName
  refine Option.ext fun word => ?_
  rw [keywordBySplit?_eq_some_iff, keywordAlias?_eq_some_iff]

end TypeGraph
