import Std.Data.HashMap
import TypeGraph.Fault

/-!
# String heaps

An image keeps its names in one run of bytes: UTF-8 strings, each ended by a zero byte, addressed
by the offset of their first byte. Offset zero always holds the empty string.

A heap is read by scanning from an offset to the next zero byte, wherever the offset points, so an
offset into the middle of a string reads its tail. Interning appends a string unless the heap
remembers having appended it before; the bytes that a heap was loaded from are not searched.

## Main definitions

* `StringHeap` — the bytes, and the offsets of the strings interned so far
* `StringHeap.empty`, `StringHeap.load` — a new heap, and a heap read from an image
* `StringHeap.intern`, `StringHeap.read` — writing and reading strings

## Main results

* `terminator?_eq_some_iff` — a scan finds the first zero byte at or after its start
* `StringHeap.intern_of_known`, `StringHeap.intern_of_unknown` — what interning does
-/

namespace TypeGraph

/-! ### Scanning for the end of a string -/

/-- The position of the first zero byte at or after `start`. -/
def terminator? (bytes : ByteArray) (start : Nat) : Option Nat :=
  if h : start < bytes.size then
    if bytes[start] = 0 then some start else terminator? bytes (start + 1)
  else none
termination_by bytes.size - start

/-- A scan finds the first zero byte at or after its start, and nothing else. -/
theorem terminator?_eq_some_iff {bytes : ByteArray} {start stop : Nat} :
    terminator? bytes start = some stop ↔
      start ≤ stop ∧ (∃ h : stop < bytes.size, bytes[stop] = 0) ∧
        ∀ k, start ≤ k → (hk : k < stop) → (h : k < bytes.size) → bytes[k] ≠ 0 := by
  fun_induction terminator? bytes start with
  | case1 start h zero =>
    constructor
    · intro found
      obtain rfl := Option.some.inj found
      exact ⟨Nat.le_refl _, ⟨h, zero⟩, fun k _ _ _ => by omega⟩
    · rintro ⟨le, -, first⟩
      rcases Nat.lt_or_eq_of_le le with lt | rfl
      · exact absurd zero (first start (Nat.le_refl _) lt h)
      · rfl
  | case2 start h nonzero ih =>
    rw [ih]
    constructor
    · rintro ⟨le, zero, first⟩
      refine ⟨by omega, zero, fun k lo hk hs => ?_⟩
      rcases Nat.lt_or_eq_of_le lo with lt | rfl
      · exact first k lt hk hs
      · exact nonzero
    · rintro ⟨le, ⟨hs, zero⟩, first⟩
      refine ⟨?_, ⟨hs, zero⟩, fun k lo hk hs => first k (by omega) hk hs⟩
      rcases Nat.lt_or_eq_of_le le with lt | rfl
      · exact lt
      · exact absurd zero nonzero
  | case3 start h =>
    constructor
    · intro found
      cases found
    · rintro ⟨le, ⟨hs, -⟩, -⟩
      omega

/-! ### Heaps -/

/-- The bytes of a string heap, and the offsets of the strings that were interned into it. -/
structure StringHeap where
  bytes : ByteArray
  offsets : Std.HashMap String StringOffset

namespace StringHeap

/-- The heap that holds the empty string alone. -/
def empty : StringHeap := ⟨ByteArray.empty.push 0, Std.HashMap.emptyWithCapacity.insert "" ⟨0⟩⟩

instance : Inhabited StringHeap := ⟨empty⟩

/-- Takes over the bytes of an image's heap, which have to begin with the empty string. -/
def load (bytes : ByteArray) : Except Fault StringHeap :=
  if bytes[0]? = some 0 then .ok ⟨bytes, Std.HashMap.emptyWithCapacity⟩
  else .error (.malformed .headlessHeap)

/-- How many bytes a heap has. -/
def size (heap : StringHeap) : Nat := heap.bytes.size

/-- A heap is empty while it holds the empty string alone. -/
def isEmpty (heap : StringHeap) : Bool := heap.size ≤ 1

/-- The offset of a string in the heap: the one it was interned at before, or else the end of the
heap, where the string and its terminating zero are appended. A zero byte inside the string ends
it early for every reader. -/
def intern (value : String) (heap : StringHeap) : StringOffset × StringHeap :=
  match heap.offsets[value]? with
  | some offset => (offset, heap)
  | none =>
    let offset := Index.ofNatClamp heap.size
    (offset, ⟨(heap.bytes ++ value.toUTF8).push 0, heap.offsets.insert value offset⟩)

/-- The string that begins at an offset and ends before the next zero byte. -/
def read (heap : StringHeap) (offset : StringOffset) : Except Fault String :=
  if heap.size ≤ offset.toNat then
    .error (.indexOutOfRange .string offset.toNat heap.size)
  else
    match terminator? heap.bytes offset.toNat with
    | none => .error (.malformed (.invalidString offset.toNat))
    | some stop =>
      match String.fromUTF8? (heap.bytes.extract offset.toNat stop) with
      | none => .error (.malformed (.invalidString offset.toNat))
      | some value => .ok value

/-- Interning a string again changes nothing. -/
theorem intern_of_known {heap : StringHeap} {value : String} {offset : StringOffset}
    (h : heap.offsets[value]? = some offset) : heap.intern value = (offset, heap) := by
  simp [intern, h]

/-- Interning a new string appends it with its terminator, and remembers where. -/
theorem intern_of_unknown {heap : StringHeap} {value : String}
    (h : heap.offsets[value]? = none) :
    heap.intern value = (Index.ofNatClamp heap.size,
      ⟨(heap.bytes ++ value.toUTF8).push 0,
        heap.offsets.insert value (Index.ofNatClamp heap.size)⟩) := by
  simp [intern, h]

end StringHeap

end TypeGraph
