import Mathlib
import TypeGraph.Proofs.Interning

/-!
# Offsets into the middle of a text

Nothing in a heap says where its texts begin. A reader that is sent into the middle of one finds
the same end as a reader of the whole, since between the two there is no zero, and reads whatever
bytes are left. These are valid text exactly if a character begins at the offset, or if nothing is
left at all; inside of a character, which only happens where a character takes more than one byte,
there is nothing to read.

This holds of every heap, whatever bytes it was loaded from and whatever was interned since, and
also where the text that is read begins in the middle of another one.

## Main definitions

* `StringHeap.ReadsTails` — what a heap reads in the middle of its texts

## Main results

* `terminator?_of_between` — from every offset before its end, a scan comes to the same end
* `StringHeap.read_of_within` — what is read further on is decoded from the rest of the bytes
* `StringHeap.readsTails` — offsets into the middle of a text read its tail
-/

namespace TypeGraph

/-- **From every offset before its end, a scan comes to the same end.** -/
theorem terminator?_of_between {bytes : ByteArray} {start inner stop : Nat}
    (h : terminator? bytes start = some stop) (after : start ≤ inner) (before : inner ≤ stop) :
    terminator? bytes inner = some stop := by
  obtain ⟨-, zero, first⟩ := terminator?_eq_some_iff.mp h
  exact terminator?_eq_some_iff.mpr
    ⟨before, zero, fun place ahead => first place (Nat.le_trans after ahead)⟩

/-- Bytes are decoded if they are valid text. -/
theorem fromUTF8?_eq_none_iff {bytes : ByteArray} :
    String.fromUTF8? bytes = none ↔ ¬ bytes.IsValidUTF8 := by
  rw [String.fromUTF8?]
  split <;> simp_all

/-- The bytes of a text from a place on are valid text if and only if a character begins there, or
the text ends. -/
theorem isValidUTF8_tail_iff {text : String} {skipped : Nat}
    (within : skipped ≤ text.utf8ByteSize) :
    (text.toUTF8.extract skipped text.utf8ByteSize).IsValidUTF8 ↔
      (⟨skipped⟩ : String.Pos.Raw).IsValid text := by
  rw [String.Pos.Raw.isValid_iff_isValidUTF8_extract_utf8ByteSize]
  exact (and_iff_right within).symm

namespace StringHeap

variable {heap : StringHeap} {offset inner : StringOffset} {text : String} {skipped : Nat}

/-- **What is read further on is decoded from the rest of the bytes** of the text. -/
theorem read_of_within (found : heap.read offset = .ok text) (within : skipped ≤ text.utf8ByteSize)
    (place : inner.toNat = offset.toNat + skipped) :
    heap.read inner =
      (String.fromUTF8? (text.toUTF8.extract skipped text.utf8ByteSize)).elim
        (.error (.malformed (.invalidString inner.toNat))) .ok := by
  obtain ⟨stop, hstop, hbytes⟩ := read_eq_ok_iff.mp found
  have hsize : stop = offset.toNat + text.utf8ByteSize := by
    have hlength := congrArg ByteArray.size hbytes
    have hahead := le_of_terminator? hstop
    have hbound := lt_size_of_terminator? hstop
    rw [ByteArray.size_extract, Nat.min_eq_left (Nat.le_of_lt hbound)] at hlength
    have hutf8 : text.toUTF8.size = text.utf8ByteSize := rfl
    omega
  have hinner : terminator? heap.bytes inner.toNat = some stop :=
    terminator?_of_between hstop (by omega) (by omega)
  have hrest : heap.bytes.extract inner.toNat stop =
      text.toUTF8.extract skipped text.utf8ByteSize := by
    rw [← hbytes, ByteArray.extract_extract, place, hsize, Nat.min_self]
  rw [read_of_terminator? hinner, hrest]

/-- What a heap reads in the middle of its texts, as far as an offset can lead there. -/
structure ReadsTails (heap : StringHeap) : Prop where
  /-- Where a character begins, and at the end of the text, the rest of the text is read. -/
  boundary {offset inner : StringOffset} {text : String} (place : text.Pos) :
    heap.read offset = .ok text → inner.toNat = offset.toNat + place.offset.byteIdx →
      heap.read inner = .ok (text.extract place text.endPos)
  /-- Inside of a character nothing is read. -/
  inside {offset inner : StringOffset} {text : String} {skipped : Nat} :
    heap.read offset = .ok text → skipped ≤ text.utf8ByteSize →
      inner.toNat = offset.toNat + skipped → ¬ (⟨skipped⟩ : String.Pos.Raw).IsValid text →
        heap.read inner = .error (.malformed (.invalidString inner.toNat))

/-- **Offsets into the middle of a text read its tail**, in every heap. -/
theorem readsTails (heap : StringHeap) : heap.ReadsTails := by
  constructor
  case boundary =>
    intro offset inner text place found hinner
    have hrest : text.toUTF8.extract place.offset.byteIdx text.utf8ByteSize =
        (text.extract place text.endPos).toUTF8 := by
      simp only [String.toUTF8_eq_toByteArray, String.toByteArray_extract, String.offset_endPos,
        String.byteIdx_rawEndPos]
    rw [read_of_within found place.isValid.le_rawEndPos hinner, fromUTF8?_eq_some_iff.mpr hrest,
      Option.elim_some]
  case inside =>
    intro offset inner text skipped found within hinner hbroken
    rw [read_of_within found within hinner,
      fromUTF8?_eq_none_iff.mpr (mt (isValidUTF8_tail_iff within).mp hbroken), Option.elim_none]

/-- In a text that begins with a character of two bytes, there is nothing to read between them. -/
example : (ragged.internEach ["b"]).2.read ⟨1⟩ = .ok "éb" ∧
    (ragged.internEach ["b"]).2.read ⟨2⟩ = .error (.malformed (.invalidString 2)) ∧
    (ragged.internEach ["b"]).2.read ⟨3⟩ = .ok "b" :=
  ⟨by cbv, by cbv, by cbv⟩

end StringHeap

end TypeGraph
