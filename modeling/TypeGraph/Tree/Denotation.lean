import TypeGraph.Tree
import TypeGraph.Resolve.Step

/-!
# What a usage denotes

The records of a store spell out type trees: a usage leads by address to further usages, and the
tree that it denotes is read off by following them. The relation `Denotes` states this record by
record, without a limit on nesting and without any memory of what was read before.

A usage from which a record is missing denotes nothing. Nor does an array that counts no dimensions,
nor a usage that leads back to itself, since a tree is finite.

## Main definitions

* `Denotes` — a usage denotes a tree in a store

## Main results

* `Denotes.unique` — a usage denotes at most one tree
-/

namespace TypeGraph

/-- A usage denotes a tree in a store. -/
inductive Denotes (store : Store) : TypeUsage → TypeTree → Prop where
  | definition {usage : TypeUsage} {index : DefinitionIndex} {row : TypeDefinition}
      (shape : usage.shape = .ok (.definition index)) (found : store.definition index = .ok row) :
      Denotes store usage (.definition index)
  | primitive {usage : TypeUsage} {kind : PrimitiveKind} {index : DefinitionIndex}
      {row : TypeDefinition} (shape : usage.shape = .ok (.primitive kind index))
      (found : store.definition index = .ok row) : Denotes store usage (.definition index)
  | genericParameter {usage : TypeUsage} {index : GenericParameterIndex} {ofMethod : Bool}
      {row : GenericParameterRow} (shape : usage.shape = .ok (.genericParameter index ofMethod))
      (found : store.genericParameter index = .ok row) :
      Denotes store usage (.genericParameter index ofMethod)
  | genericInstance {usage : TypeUsage} {address : Address} {generic : GenericClass}
      {row : TypeDefinition} {instantiation : GenericInstantiation} {addresses : List Address}
      {operands : List TypeUsage} {arguments : List TypeTree}
      (shape : usage.shape = .ok (.composite (.genericInstance address)))
      (head : store.genericClass address = .ok generic)
      (found : store.definition generic.definition = .ok row)
      (applies : store.instantiation generic.instantiation = .ok instantiation)
      (listed : store.argumentAddresses instantiation.arguments instantiation.argumentCount =
        .ok addresses)
      (reads : addresses.mapM store.usageAt = .ok operands)
      (count : arguments.length = operands.length)
      (each : ∀ (position : Nat) (operand : TypeUsage) (argument : TypeTree),
        operands[position]? = some operand → arguments[position]? = some argument →
          Denotes store operand argument) :
      Denotes store usage (.genericInstance generic.definition arguments)
  | array {usage operand : TypeUsage} {address : Address} {descriptor : ArrayDescriptor}
      {rank : UInt32} {element : TypeTree} (shape : usage.shape = .ok (.composite (.array address)))
      (described : store.arrayDescriptor address = .ok descriptor)
      (counted : 1 ≤ descriptor.rank) (ranked : rank = descriptor.rank.toUInt32)
      (reads : store.usageAt descriptor.element = .ok operand)
      (inner : Denotes store operand element) : Denotes store usage (.array element rank)
  | vector {usage operand : TypeUsage} {address : Address} {element : TypeTree}
      (shape : usage.shape = .ok (.composite (.vector address)))
      (reads : store.usageAt address = .ok operand) (inner : Denotes store operand element) :
      Denotes store usage (.vector element)
  | pointer {usage operand : TypeUsage} {address : Address} {pointee : TypeTree}
      (shape : usage.shape = .ok (.composite (.pointer address)))
      (reads : store.usageAt address = .ok operand) (inner : Denotes store operand pointee) :
      Denotes store usage (.pointer pointee)

namespace Denotes

variable {store : Store}

/-- A usage denotes at most one tree. -/
theorem unique {usage : TypeUsage} {tree tree' : TypeTree} (h : Denotes store usage tree)
    (h' : Denotes store usage tree') : tree = tree' := by
  induction h generalizing tree' with
  | definition shape | primitive shape | genericParameter shape =>
    cases h' <;> simp_all
  | genericInstance shape head _ applies listed reads count _ ih =>
    cases h' with
    | genericInstance shape' head' _ applies' listed' reads' count' each' =>
      obtain rfl : _ = _ := by simpa [shape] using shape'
      obtain rfl : _ = _ := by simpa [head] using head'
      obtain rfl : _ = _ := by simpa [applies] using applies'
      obtain rfl : _ = _ := by simpa [listed] using listed'
      obtain rfl : _ = _ := by simpa [reads] using reads'
      congr 1
      refine List.ext_getElem (count.trans count'.symm) fun position bound bound' => ?_
      exact ih position _ _ (List.getElem?_eq_getElem (count ▸ bound))
        (List.getElem?_eq_getElem bound)
        (each' position _ _ (List.getElem?_eq_getElem (count ▸ bound))
          (List.getElem?_eq_getElem bound'))
    | _ => simp_all
  | array shape described _ ranked reads _ ih =>
    cases h' with
    | array shape' described' _ ranked' reads' inner' =>
      obtain rfl : _ = _ := by simpa [shape] using shape'
      obtain rfl : _ = _ := by simpa [described] using described'
      obtain rfl := ranked.trans ranked'.symm
      obtain rfl : _ = _ := by simpa [reads] using reads'
      rw [ih inner']
    | _ => simp_all
  | vector shape reads _ ih =>
    cases h' with
    | vector shape' reads' inner' =>
      obtain rfl : _ = _ := by simpa [shape] using shape'
      obtain rfl : _ = _ := by simpa [reads] using reads'
      rw [ih inner']
    | _ => simp_all
  | pointer shape reads _ ih =>
    cases h' with
    | pointer shape' reads' inner' =>
      obtain rfl : _ = _ := by simpa [shape] using shape'
      obtain rfl : _ = _ := by simpa [reads] using reads'
      rw [ih inner']
    | _ => simp_all

end Denotes

end TypeGraph
