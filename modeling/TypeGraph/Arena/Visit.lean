import TypeGraph.Arena

/-!
# Recursion through operands

Names and most relations of a type are computed from those of the types that it is built from. A
type is only made once its operands have handles, so an operand is always older than the type
itself, and a computation that follows operands comes to an end. This holds for operands alone: base
types may lead around in circles.

`Arena.visit` is that recursion. What is computed at each entity is given as a step, to which the
results for operands are available through a function.

## Main definitions

* `Arena.visit` — computes a result for a type from results for its operands

## Main results

* `Arena.visit_of_get`, `Arena.visit_of_get_error` — a visit reads the entity and takes the step
-/

namespace TypeGraph

namespace Arena

variable {α : Type}

/-- Computes a result for a type by a step that may ask for the results of operands. Handles that
are not older than the type itself are no operands, and are refused. -/
def visit (arena : Arena) (step : TypeShape → (TypeId → Except Fault α) → Except Fault α)
    (id : TypeId) : Except Fault α := do
  let entity ← arena.get id
  step entity.shape fun operand =>
    if _h : operand.index < id.index then arena.visit step operand
    else .error (.unknownType operand)
termination_by id.index

/-- Where an entity can be read, a visit takes the step at its shape. -/
theorem visit_of_get {arena : Arena} {id : TypeId} {entity : TypeEntity}
    (h : arena.get id = .ok entity)
    (step : TypeShape → (TypeId → Except Fault α) → Except Fault α) :
    arena.visit step id = step entity.shape fun operand =>
      if operand.index < id.index then arena.visit step operand
      else .error (.unknownType operand) := by
  rw [visit, h]
  rfl

/-- Where no entity can be read, a visit fails with the same fault. -/
theorem visit_of_get_error {arena : Arena} {id : TypeId} {fault : Fault}
    (h : arena.get id = .error fault)
    (step : TypeShape → (TypeId → Except Fault α) → Except Fault α) :
    arena.visit step id = .error fault := by
  rw [visit, h]
  rfl

end Arena

end TypeGraph
