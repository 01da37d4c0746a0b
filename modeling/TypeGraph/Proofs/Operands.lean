import Mathlib.Order.WellFounded
import TypeGraph.Proofs.Contents
import TypeGraph.Relation

/-!
# Recursion through operands

Names and bases are computed by recursion through operands. Nothing in the data of an arena keeps an
operand from leading back to the type that is built from it, so `Arena.visit` refuses a handle that
is not older than the one it comes from. In an arena that resolution has filled, it never has to.
Every entity is made from handles that were issued before its own, and that is true of what failed
requests leave behind as well. So the recursion ends by itself at whatever handle it begins, and the
guard can be left out of all that is said about names.

## Main definitions

* `Arena.BuiltFrom` — one type is directly built from another
* `AsksOperands` — a step of a recursion that only asks for operands
* `Arena.Confined` — handles from which recursion leads to no others

## Main results

* `Arena.Honest.wellFounded_builtFrom` — every recursion through operands ends
* `Arena.Honest.visit_eq` — such a recursion is never refused a handle
* `Arena.Honest.namespaceName_eq`, `Arena.Honest.render_eq`, `Arena.Honest.fullName_eq`,
  `Arena.Honest.baseType_eq` — names and bases, from those of the operands
* `Arena.Confined.failsWith` — a recursion fails as reading the handles does that it leads to
-/

namespace TypeGraph

/-! ### Steps that ask for operands -/

section Steps

variable {α β : Type}

theorem mapM_congr {read read' : α → Except Fault β} {xs : List α}
    (same : ∀ x ∈ xs, read x = read' x) : xs.mapM read = xs.mapM read' := by
  induction xs with
  | nil => rfl
  | cons x xs ih =>
    obtain ⟨hx, hxs⟩ := List.forall_mem_cons.mp same
    rw [List.mapM_cons, List.mapM_cons, hx, ih hxs]

theorem PointerNaming.pointerName_congr {nameOf nameOf' : TypeId → Except Fault String}
    {pointee : TypeId} (naming : PointerNaming) (same : nameOf pointee = nameOf' pointee) :
    naming.pointerName nameOf pointee = naming.pointerName nameOf' pointee := by
  cases naming with
  | pointee => simp only [pointerName, same]
  | voidPlaceholder => rfl

theorem PointerNaming.failsWith_pointerName {allowed : Fault → Prop}
    {nameOf : TypeId → Except Fault String} {pointee : TypeId} (naming : PointerNaming)
    (h : FailsWith allowed (nameOf pointee)) :
    FailsWith allowed (naming.pointerName nameOf pointee) := by
  cases naming with
  | pointee => exact h.bind fun _ _ => .ok _
  | voidPlaceholder => exact .ok _

/-- A step of a recursion asks for results at operands only. -/
def AsksOperands (step : TypeShape → (TypeId → Except Fault α) → Except Fault α) : Prop :=
  ∀ shape (ofOperand ofOperand' : TypeId → Except Fault α),
    (∀ operand ∈ shape.operands, ofOperand operand = ofOperand' operand) →
      step shape ofOperand = step shape ofOperand'

end Steps

namespace Arena

variable {store : Store} {limit : Nat} {arena : Arena} {id : TypeId} {entity : TypeEntity}

/-- One type is directly built from another. -/
def BuiltFrom (arena : Arena) (operand id : TypeId) : Prop :=
  ∃ entity, arena.get id = .ok entity ∧ operand ∈ entity.shape.operands

namespace Honest

variable (honest : arena.Honest store limit)

include honest

/-! ### The recursion ends -/

/-- Whatever a type is built from was there before it. -/
theorem index_lt_of_builtFrom {operand : TypeId} (h : arena.BuiltFrom operand id) :
    operand.index < id.index := by
  obtain ⟨entity, hget, hmem⟩ := h
  exact honest.older (get_eq_ok_iff.mp hget) hmem

/-- **Every recursion through operands ends**, also where it begins at a handle that nothing leads
to any more. -/
theorem wellFounded_builtFrom : WellFounded arena.BuiltFrom :=
  Subrelation.wf honest.index_lt_of_builtFrom (InvImage.wf TypeId.index Nat.lt_wfRel.wf)

/-- Induction over the handles of an arena. What is to be shown of a type may be used for all that
it is built from. -/
theorem handleInduction {motive : TypeId → Prop} (id : TypeId)
    (unreadable : ∀ id fault, arena.get id = .error fault → motive id)
    (readable : ∀ id entity, arena.get id = .ok entity →
      (∀ operand ∈ entity.shape.operands, motive operand) → motive id) : motive id := by
  induction id using honest.wellFounded_builtFrom.induction with
  | _ id ih =>
    cases hget : arena.get id with
    | error fault => exact unreadable id fault hget
    | ok entity => exact readable id entity hget fun operand hmem => ih operand ⟨entity, hget, hmem⟩

/-! ### The recursion is refused no handle -/

/-- **A recursion through operands is never refused a handle.** It takes its step with its own
results at the operands. -/
theorem visit_eq {α : Type} {step : TypeShape → (TypeId → Except Fault α) → Except Fault α}
    (asks : AsksOperands step) (found : arena.get id = .ok entity) :
    arena.visit step id = step entity.shape (arena.visit step) := by
  rw [visit_of_get found]
  refine asks _ _ _ fun operand hmem => ?_
  exact if_pos (honest.older (get_eq_ok_iff.mp found) hmem)

theorem namespaceName_eq (found : arena.get id = .ok entity) :
    arena.namespaceName id = match entity.shape with
      | .definition definition => .ok definition.namespaceName
      | .genericInstance head _ _ => arena.namespaceName head
      | .array element _ _ => arena.namespaceName element
      | .pointer pointee => arena.namespaceName pointee
      | .genericParameter .. => .ok "" := by
  refine honest.visit_eq (fun shape ofOperand ofOperand' same => ?_) found
  cases shape with
  | definition | genericParameter => rfl
  | genericInstance | array | pointer => exact same _ List.mem_cons_self

theorem render_eq {naming : PointerNaming} {leaf : Definition → String}
    (found : arena.get id = .ok entity) :
    arena.render naming leaf id = match entity.shape with
      | .definition definition => .ok (leaf definition)
      | .genericInstance head _ arguments => do
        let arguments ← arguments.mapM (arena.render naming leaf)
        return applied (← arena.render naming leaf head) arguments
      | .array element rank _ => return (← arena.render naming leaf element) ++ arraySuffix rank
      | .pointer pointee => naming.pointerName (arena.render naming leaf) pointee
      | .genericParameter _ _ _ name => .ok name := by
  refine honest.visit_eq (fun shape ofOperand ofOperand' same => ?_) found
  cases shape with
  | definition | genericParameter => rfl
  | genericInstance head index arguments =>
    obtain ⟨hhead, harguments⟩ := List.forall_mem_cons.mp same
    simp only [mapM_congr harguments, hhead]
  | array element => simp only [same element List.mem_cons_self]
  | pointer pointee => exact naming.pointerName_congr (same pointee List.mem_cons_self)

theorem fullName_eq {naming : PointerNaming} (found : arena.get id = .ok entity) :
    arena.fullName naming id = match entity.shape with
      | .definition definition => .ok definition.fullName
      | .genericInstance head _ _ =>
        return qualify (← arena.namespaceName head) (← arena.name naming id)
      | .array element rank _ => return (← arena.fullName naming element) ++ arraySuffix rank
      | .pointer pointee => naming.pointerName (arena.fullName naming) pointee
      | .genericParameter _ _ _ name => .ok name := by
  have hname : arena.name naming id = _ := honest.render_eq found
  rw [fullName, honest.visit_eq (fun shape ofOperand ofOperand' same => ?_) found]
  · cases hshape : entity.shape with
    | genericInstance head index arguments =>
      rw [hshape] at hname
      simp only [hname, bind_assoc, pure_bind]
      rfl
    | definition | array | pointer | genericParameter => rfl
  · cases shape with
    | definition | genericInstance | genericParameter => rfl
    | array element => simp only [same element List.mem_cons_self]
    | pointer pointee => exact naming.pointerName_congr (same pointee List.mem_cons_self)

theorem baseType_eq (found : arena.get id = .ok entity) :
    arena.baseType id = match entity.shape with
      | .definition definition => .ok definition.base
      | .genericInstance head _ _ => arena.baseType head
      | _ => .ok none := by
  refine honest.visit_eq (fun shape ofOperand ofOperand' same => ?_) found
  cases shape with
  | genericInstance head => exact same head List.mem_cons_self
  | definition | array | pointer | genericParameter => rfl

end Honest

/-! ### What can go wrong in the recursion -/

/-- Recursion from certain handles leads to no others, and each of them can be read or fails in
certain ways. -/
structure Confined (arena : Arena) (within : TypeId → Prop) (allowed : Fault → Prop) : Prop where
  reads {id : TypeId} : within id → FailsWith allowed (arena.get id)
  operand {id operand : TypeId} {entity : TypeEntity} : within id → arena.get id = .ok entity →
    operand ∈ entity.shape.operands → within operand
  base {id base : TypeId} {entity : TypeEntity} {definition : Definition} : within id →
    arena.get id = .ok entity → entity.definition? = some definition →
      definition.base = some base → within base

namespace Confined

variable {within : TypeId → Prop} {allowed : Fault → Prop} {naming : PointerNaming}
  (confined : arena.Confined within allowed) (honest : arena.Honest store limit)

include confined honest

/-- A recursion fails as reading the handles does, if its steps fail only where their operands
do. -/
theorem failsWith {α : Type} {ask : TypeId → Except Fault α}
    (unread : ∀ id fault, arena.get id = .error fault → ask id = .error fault)
    (step : ∀ id entity, within id → arena.get id = .ok entity →
      (∀ operand ∈ entity.shape.operands, within operand ∧ FailsWith allowed (ask operand)) →
        FailsWith allowed (ask id))
    (h : within id) : FailsWith allowed (ask id) := by
  induction id using honest.handleInduction with
  | unreadable id fault failed =>
    rw [unread id fault failed]
    exact .error (confined.reads h failed)
  | readable id entity found ih =>
    refine step id entity h found fun operand hmem => ?_
    have hwithin := confined.operand h found hmem
    exact ⟨hwithin, ih operand hmem hwithin⟩

theorem namespaceName (h : within id) : FailsWith allowed (arena.namespaceName id) := by
  refine confined.failsWith honest (fun _ _ failed => visit_of_get_error failed _) ?_ h
  intro id entity _ found each
  rw [honest.namespaceName_eq found]
  cases hshape : entity.shape with
  | definition | genericParameter => exact .ok _
  | genericInstance | array | pointer =>
    rw [hshape] at each
    exact (each _ List.mem_cons_self).2

theorem render {leaf : Definition → String} (h : within id) :
    FailsWith allowed (arena.render naming leaf id) := by
  refine confined.failsWith honest (fun _ _ failed => visit_of_get_error failed _) ?_ h
  intro id entity _ found each
  rw [honest.render_eq found]
  cases hshape : entity.shape with
  | definition | genericParameter => exact .ok _
  | genericInstance head index arguments =>
    rw [hshape] at each
    obtain ⟨hhead, harguments⟩ := List.forall_mem_cons.mp each
    have hmapM : FailsWith allowed (arguments.mapM (arena.render naming leaf)) :=
      .mapM fun argument hmem => (harguments argument hmem).2
    exact hmapM.bind fun _ _ => hhead.2.bind fun _ _ => .ok _
  | array element =>
    rw [hshape] at each
    exact (each element List.mem_cons_self).2.bind fun _ _ => .ok _
  | pointer pointee =>
    rw [hshape] at each
    exact naming.failsWith_pointerName (each pointee List.mem_cons_self).2

theorem fullName (h : within id) : FailsWith allowed (arena.fullName naming id) := by
  refine confined.failsWith honest (fun _ _ failed => visit_of_get_error failed _) ?_ h
  intro id entity hid found each
  rw [honest.fullName_eq found]
  cases hshape : entity.shape with
  | definition | genericParameter => exact .ok _
  | genericInstance head =>
    rw [hshape] at each
    have hnamespaceName := confined.namespaceName honest (each head List.mem_cons_self).1
    have hname : FailsWith allowed (arena.name naming id) := confined.render honest hid
    exact hnamespaceName.bind fun _ _ => hname.bind fun _ _ => .ok _
  | array element =>
    rw [hshape] at each
    exact (each element List.mem_cons_self).2.bind fun _ _ => .ok _
  | pointer pointee =>
    rw [hshape] at each
    exact naming.failsWith_pointerName (each pointee List.mem_cons_self).2

theorem baseType (h : within id) : FailsWith allowed (arena.baseType id) := by
  refine confined.failsWith honest (fun _ _ failed => visit_of_get_error failed _) ?_ h
  intro id entity _ found each
  rw [honest.baseType_eq found]
  cases hshape : entity.shape with
  | genericInstance head =>
    rw [hshape] at each
    exact (each head List.mem_cons_self).2
  | definition | array | pointer | genericParameter => exact .ok _

/-- What a type derives from is one of the handles. It is found by following the heads of
instantiations. -/
theorem within_of_baseType (h : within id) {base : TypeId}
    (derives : arena.baseType id = .ok (some base)) : within base := by
  induction id using honest.handleInduction with
  | unreadable id fault failed => cases derives.symm.trans (visit_of_get_error failed _)
  | readable id entity found ih =>
    rw [honest.baseType_eq found] at derives
    cases hshape : entity.shape with
    | definition definition =>
      rw [hshape] at derives
      have hdeclares : entity.definition? = some definition := by
        rw [TypeEntity.definition?, hshape]
      exact confined.base h found hdeclares (Except.ok.inj derives)
    | genericInstance head =>
      have hmem : head ∈ entity.shape.operands := by
        rw [hshape]
        exact List.mem_cons_self
      rw [hshape] at derives
      exact ih head hmem (confined.operand h found hmem) derives
    | array | pointer | genericParameter => rw [hshape] at derives; cases derives

theorem isValueType (h : within id) : FailsWith allowed (arena.isValueType naming id) := by
  refine (confined.baseType honest h).bind fun base derives => ?_
  cases base with
  | none => exact .ok _
  | some base =>
    have hbase := confined.within_of_baseType honest h derives
    exact (confined.fullName honest hbase).bind fun _ _ => .ok _

end Confined

end Arena

end TypeGraph
