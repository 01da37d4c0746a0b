import Mathlib
import TypeGraph.Proofs.Scans

/-!
# Interning and what was there before

Interning only ever adds to the end of a heap, and what it adds ends in a zero. A reader that found
the end of its text therefore finds the same end afterwards, from whatever offset it began: the
start of a text, its middle, or the middle of a character. A reader that found none can come to
another answer, but only where the heap did not end in a zero, which no heap does that was interned
into.

## Main definitions

* `StringHeap.Initial` — the heaps that interning begins with
* `StringHeap.internEach` — interns several strings, one after the other
* `StringHeap.Terminated` — a heap ends in a zero
* `StringHeap.Extends` — a heap has grown, if at all, by something that ends in a zero
* `StringHeap.Undisturbed` — nothing that could be read before is read differently

## Main results

* `StringHeap.extends_internEach` — interning only adds terminated texts
* `StringHeap.Extends.read_of_ok`, `StringHeap.Extends.read_eq` — what is read in a heap that has
  grown
* `StringHeap.Initial.undisturbed` — interning never disturbs existing offsets
-/

namespace TypeGraph

namespace StringHeap

variable {start heap heap' heap'' : StringHeap} {offset : StringOffset} {text : String}

/-! ### Heaps and their histories -/

/-- The heaps that interning begins with: the new heap, and what was loaded from an image, be it
terminated or not and be it valid text or not. -/
inductive Initial : StringHeap → Prop where
  | empty : Initial .empty
  | loaded {bytes : ByteArray} {heap : StringHeap} (accepted : load bytes = .ok heap) : Initial heap

/-- Interns several strings, one after the other. -/
def internEach : List String → StringHeap → List StringOffset × StringHeap
  | [], heap => ([], heap)
  | value :: rest, heap =>
    let (offset, heap) := heap.intern value
    let (offsets, heap) := heap.internEach rest
    (offset :: offsets, heap)

@[simp] theorem internEach_nil (heap : StringHeap) : heap.internEach [] = ([], heap) := rfl

theorem internEach_cons (value : String) (rest : List String) (heap : StringHeap) :
    heap.internEach (value :: rest) =
      ((heap.intern value).1 :: ((heap.intern value).2.internEach rest).1,
        ((heap.intern value).2.internEach rest).2) := rfl

/-- Interning two lists of strings is interning one after the other. -/
theorem internEach_append (values rest : List String) (heap : StringHeap) :
    heap.internEach (values ++ rest) =
      ((heap.internEach values).1 ++ ((heap.internEach values).2.internEach rest).1,
        ((heap.internEach values).2.internEach rest).2) := by
  induction values generalizing heap with
  | nil => rfl
  | cons value values ih => simp [internEach_cons, ih]

/-- A heap ends in a zero. -/
def Terminated (heap : StringHeap) : Prop := ∃ front : ByteArray, heap.bytes = front.push 0

/-! ### Growth -/

/-- A heap has the bytes of another one, and behind them nothing or something that ends in a
zero. -/
def Extends (heap heap' : StringHeap) : Prop :=
  heap'.bytes = heap.bytes ∨ ∃ added : ByteArray, heap'.bytes = heap.bytes ++ added.push 0

theorem Extends.rfl : Extends heap heap := .inl (Eq.refl _)

theorem Extends.trans (h : Extends heap heap') (h' : Extends heap' heap'') :
    Extends heap heap'' := by
  rcases h with same | ⟨added, grown⟩ <;> rcases h' with same' | ⟨added', grown'⟩
  · exact .inl (same'.trans same)
  · exact .inr ⟨added', grown'.trans (congrArg (· ++ added'.push 0) same)⟩
  · exact .inr ⟨added, same'.trans grown⟩
  · refine .inr ⟨added.push 0 ++ added', ?_⟩
    simp only [grown', grown, ← ByteArray.append_toByteArray_singleton, ByteArray.append_assoc]

/-- Interning adds a terminated text or nothing. -/
theorem extends_intern (heap : StringHeap) (value : String) :
    Extends heap (heap.intern value).2 := by
  cases hknown : heap.offsets[value]? with
  | some offset =>
    rw [intern_of_known hknown]
    exact Extends.rfl
  | none =>
    rw [intern_of_unknown hknown]
    refine .inr ⟨value.toUTF8, ?_⟩
    simp only [← ByteArray.append_toByteArray_singleton, ByteArray.append_assoc]

/-- **Interning only adds terminated texts.** -/
theorem extends_internEach (heap : StringHeap) (values : List String) :
    Extends heap (heap.internEach values).2 := by
  induction values generalizing heap with
  | nil => exact Extends.rfl
  | cons value rest ih => exact (extends_intern heap value).trans (ih (heap.intern value).2)

/-- What is read of a heap depends on its bytes alone. -/
theorem read_congr (h : heap'.bytes = heap.bytes) : heap'.read offset = heap.read offset := by
  obtain ⟨bytes, offsets⟩ := heap
  obtain ⟨bytes', offsets'⟩ := heap'
  obtain rfl : bytes' = bytes := h
  rfl

/-- A reader that comes to a zero reads the same in every heap that has grown from this one. -/
theorem Extends.read_eq_of_terminator? (h : Extends heap heap') {stop : Nat}
    (hstop : terminator? heap.bytes offset.toNat = some stop) :
    heap'.read offset = heap.read offset := by
  rcases h with same | ⟨added, grown⟩
  · exact read_congr same
  · have hstop' : terminator? heap'.bytes offset.toNat = some stop := by
      rw [grown]
      exact terminator?_append_of_some hstop
    rw [read_of_terminator? hstop, read_of_terminator? hstop', grown,
      extract_append_of_le (Nat.le_of_lt (lt_size_of_terminator? hstop))]

/-- **A text that is read is read in every heap that has grown from this one.** -/
theorem Extends.read_of_ok (h : Extends heap heap') (found : heap.read offset = .ok text) :
    heap'.read offset = .ok text := by
  obtain ⟨stop, hstop⟩ := exists_terminator?_of_read found
  rw [h.read_eq_of_terminator? hstop, found]

/-- **Within a heap that ends in a zero, whatever is read is read in every heap that has grown from
it**, faults included. -/
theorem Extends.read_eq (h : Extends heap heap') (terminated : heap.Terminated)
    (within : offset.toNat < heap.size) : heap'.read offset = heap.read offset := by
  obtain ⟨front, hfront⟩ := terminated
  have hlast : front.size < heap.bytes.size := by simp [hfront]
  have hzero : heap.bytes[front.size] = 0 := by
    simp only [hfront, ByteArray.getElem_eq_getElem_data, ByteArray.data_push]
    exact Array.getElem_push_eq
  have hahead : offset.toNat ≤ front.size := by
    rw [size, hfront, ByteArray.size_push] at within
    omega
  -- the last byte stops every scan that nothing has stopped before
  obtain ⟨stop, hstop⟩ := exists_terminator?_of_zero hahead hlast hzero
  exact h.read_eq_of_terminator? hstop

/-- A heap that has grown at all ends in a zero, and so does one that has grown from a heap that
does. -/
theorem Extends.terminated (h : Extends heap heap') :
    heap.Terminated ∨ heap'.bytes ≠ heap.bytes → heap'.Terminated := by
  rcases h with same | ⟨added, grown⟩
  · rintro (⟨front, hfront⟩ | changed)
    · exact ⟨front, same.trans hfront⟩
    · exact absurd same changed
  · rintro -
    refine ⟨heap.bytes ++ added, ?_⟩
    simp only [grown, ← ByteArray.append_toByteArray_singleton, ByteArray.append_assoc]

/-! ### Offsets that exist -/

/-- The new heap ends in a zero. -/
theorem terminated_empty : StringHeap.empty.Terminated := ⟨.empty, rfl⟩

/-- Every heap that interning begins with holds the empty string at offset zero. -/
theorem Initial.getElem?_zero (h : start.Initial) : start.bytes[0]? = some 0 := by
  cases h with
  | empty => rfl
  | loaded accepted =>
    unfold load at accepted
    split at accepted
    · next hhead =>
      rw [← Except.ok.inj accepted]
      exact hhead
    · cases accepted

theorem Initial.read_zero (h : start.Initial) : start.read ⟨0⟩ = .ok "" := by
  obtain ⟨hwithin, hzero⟩ := getElem?_eq_some_iff.mp h.getElem?_zero
  have hscan : terminator? start.bytes 0 = some 0 :=
    terminator?_eq_some_iff.mpr ⟨Nat.le_refl _, ⟨hwithin, hzero⟩, fun place _ before => by omega⟩
  exact read_eq_ok_iff.mpr ⟨0, hscan, ByteArray.extract_same⟩

/-- What interning a string into a heap, which grew from a certain start, leaves as it is. A read
can only change where the heap does not end in a zero. -/
structure Undisturbed (start heap : StringHeap) (value : String) : Prop where
  texts {offset : StringOffset} {text : String} :
    heap.read offset = .ok text → (heap.intern value).2.read offset = .ok text
  reads {offset : StringOffset} : heap.Terminated → offset.toNat < heap.size →
    (heap.intern value).2.read offset = heap.read offset
  /-- All heaps that grew from the new one end in a zero. -/
  terminated_of_empty : start = .empty → heap.Terminated
  /-- So do those that something was appended to. -/
  terminated_of_grown : heap.bytes ≠ start.bytes → heap.Terminated
  origin : heap.read ⟨0⟩ = .ok ""

/-- **Interning never disturbs existing offsets.** -/
theorem Initial.undisturbed (h : start.Initial) (values : List String) (value : String) :
    Undisturbed start (start.internEach values).2 value where
  texts := (extends_intern _ value).read_of_ok
  reads := (extends_intern _ value).read_eq
  terminated_of_empty := by
    rintro rfl
    exact (extends_internEach _ values).terminated (.inl terminated_empty)
  terminated_of_grown grown := (extends_internEach start values).terminated (.inr grown)
  origin := (extends_internEach start values).read_of_ok h.read_zero

/-- A heap from an image whose only text was never terminated. -/
def ragged : StringHeap := ⟨⟨#[0, 0xc3, 0xa9]⟩, Std.HashMap.emptyWithCapacity⟩

theorem initial_ragged : ragged.Initial := by
  have haccepted : load ⟨#[0, 0xc3, 0xa9]⟩ = .ok ragged := by cbv
  exact .loaded haccepted

/-- The text that is read at offset one once something was interned is read there for good. -/
theorem undisturbed_ragged : ragged.Initial ∧ (ragged.internEach ["b"]).2.read ⟨1⟩ = .ok "éb" ∧
    Undisturbed ragged (ragged.internEach ["b"]).2 "c" :=
  ⟨initial_ragged, by cbv, initial_ragged.undisturbed ["b"] "c"⟩

/-- Before that there was no text to be disturbed: nothing is read at that offset. -/
example : ragged.read ⟨1⟩ = .error (.malformed (.invalidString 1)) := by cbv

end StringHeap

end TypeGraph
