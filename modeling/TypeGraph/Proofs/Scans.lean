import Mathlib.Data.List.TakeWhile
import TypeGraph.StringHeap

/-!
# Scans over appended bytes

A heap grows at its end, and a reader scans from somewhere inside it. So there are two questions
about a scan. What does it make of the bytes that were just appended: it finds the end of the text
that was appended, or that of a shorter text if there is a zero character inside. And what becomes
of a scan that begins further ahead: once it has found its zero byte it never looks at what comes
after.

## Main definitions

* `beforeZero` — the part of a text that a scan over its encoding sees

## Main results

* `terminator?_append_of_some` — a scan that ends is not disturbed by what is appended
* `terminator?_append_push_zero` — a scan over appended bytes without a zero ends right behind them
* `exists_toUTF8_push_zero_eq` — a terminated text begins with what is before its first zero
* `StringHeap.read_eq_ok_iff` — when a text is read
-/

namespace TypeGraph

/-! ### Scans -/

section Scans

variable {bytes more : ByteArray} {start stop : Nat}

/-- A scan ends within the bytes. -/
theorem lt_size_of_terminator? (h : terminator? bytes start = some stop) : stop < bytes.size := by
  obtain ⟨-, ⟨bound, -⟩, -⟩ := terminator?_eq_some_iff.mp h
  exact bound

/-- A scan goes forward. -/
theorem le_of_terminator? (h : terminator? bytes start = some stop) : start ≤ stop :=
  (terminator?_eq_some_iff.mp h).1

/-- A scan ends if there is a zero byte ahead. -/
theorem exists_terminator?_of_zero {place : Nat} (ahead : start ≤ place)
    (bound : place < bytes.size) (zero : bytes[place] = 0) :
    ∃ stop, terminator? bytes start = some stop := by
  fun_induction terminator? bytes start with
  | case1 start _ _ => exact ⟨start, rfl⟩
  | case2 start _ nonzero ih =>
    refine ih ?_
    rcases Nat.lt_or_eq_of_le ahead with further | rfl
    · exact further
    · exact absurd zero nonzero
  | case3 start past => exact absurd (Nat.lt_of_le_of_lt ahead bound) past

/-- **A scan that ends is not disturbed by what is appended.** -/
theorem terminator?_append_of_some (h : terminator? bytes start = some stop) :
    terminator? (bytes ++ more) start = some stop := by
  obtain ⟨forward, ⟨bound, zero⟩, first⟩ := terminator?_eq_some_iff.mp h
  refine terminator?_eq_some_iff.mpr ⟨forward, ⟨?_, ?_⟩, fun place ahead before within => ?_⟩
  · rw [ByteArray.size_append]
    omega
  · rw [ByteArray.getElem_append_left bound]
    exact zero
  · have hplace : place < bytes.size := by omega
    rw [ByteArray.getElem_append_left hplace]
    exact first place ahead before hplace

/-- What a scan has passed is not disturbed by what is appended either. -/
theorem extract_append_of_le (h : stop ≤ bytes.size) :
    (bytes ++ more).extract start stop = bytes.extract start stop := by
  have hnothing : more.extract (start - bytes.size) (stop - bytes.size) = ByteArray.empty :=
    ByteArray.extract_eq_empty_iff.mpr (by omega)
  rw [ByteArray.extract_append, hnothing, ByteArray.append_empty]

/-- **The scan over bytes that were appended ends right behind them** if none of them is zero and a
zero follows. -/
theorem terminator?_append_push_zero {added : ByteArray}
    (h : ∀ (place : Nat) (bound : place < added.size), added[place] ≠ 0) (bytes rest : ByteArray) :
    terminator? (bytes ++ (added.push 0 ++ rest)) bytes.size = some (bytes.size + added.size) := by
  rw [← ByteArray.append_toByteArray_singleton, ByteArray.append_assoc]
  refine terminator?_eq_some_iff.mpr
    ⟨Nat.le_add_right _ _, ⟨?_, ?_⟩, fun place ahead before _ => ?_⟩
  · simp only [ByteArray.size_append, List.size_toByteArray, List.length_singleton]
    omega
  · simp [ByteArray.getElem_append_right, ByteArray.getElem_append_left]
  · have hplace : place - bytes.size < added.size := by omega
    rw [ByteArray.getElem_append_right ahead, ByteArray.getElem_append_left hplace]
    exact h _ hplace

/-- And the bytes that it has passed are those that were appended. -/
theorem extract_append_push_zero (bytes added rest : ByteArray) :
    (bytes ++ (added.push 0 ++ rest)).extract bytes.size (bytes.size + added.size) = added := by
  rw [← ByteArray.append_toByteArray_singleton, ByteArray.append_assoc]
  have hshift := ByteArray.extract_append_size_add (a := bytes) (i := 0) (j := added.size)
    (b := added ++ ([0].toByteArray ++ rest))
  rw [Nat.add_zero] at hshift
  rw [hshift, ByteArray.extract_append_eq_left rfl]

end Scans

/-! ### Encoded texts -/

/-- The part of a text before its first zero character, which is all of it if there is none. -/
def beforeZero (value : String) : String :=
  String.ofList (value.toList.takeWhile (· ≠ '\x00'))

/-- There is no zero before the first zero. -/
theorem ne_zero_of_mem_beforeZero {value : String} {c : Char}
    (mem : c ∈ (beforeZero value).toList) : c ≠ '\x00' := by
  rw [beforeZero, String.toList_ofList] at mem
  simpa using List.mem_takeWhile_imp mem

/-- What is before the first zero is all of a text, or the zero follows. -/
theorem toList_eq_beforeZero_or (value : String) :
    value.toList = (beforeZero value).toList ∨
      ∃ rest, value.toList = (beforeZero value).toList ++ '\x00' :: rest := by
  have hsplit := List.takeWhile_append_dropWhile (p := (· ≠ '\x00')) (l := value.toList)
  rw [beforeZero, String.toList_ofList]
  cases hdrop : value.toList.dropWhile (· ≠ '\x00') with
  | nil =>
    rw [hdrop, List.append_nil] at hsplit
    exact .inl hsplit.symm
  | cons c rest =>
    -- what is dropped begins with the character that stopped the search
    have hne : value.toList.dropWhile (· ≠ '\x00') ≠ [] := hdrop ▸ List.cons_ne_nil _ _
    have hstopped := List.head_dropWhile_not (· ≠ '\x00') hne
    simp only [hdrop, List.head_cons] at hstopped
    have hzero : c = '\x00' := by simpa using hstopped
    rw [hdrop, hzero] at hsplit
    exact .inr ⟨rest, hsplit.symm⟩

/-- The encoding of a zero character is a zero byte, and a terminated text begins with what is
before its first zero, terminated. -/
theorem exists_toUTF8_push_zero_eq (value : String) :
    ∃ rest, value.toUTF8.push 0 = (beforeZero value).toUTF8.push 0 ++ rest := by
  have hzero : ['\x00'].utf8Encode = [0].toByteArray := rfl
  simp only [String.toUTF8_eq_toByteArray, ← String.utf8Encode_toList]
  rcases toList_eq_beforeZero_or value with hall | ⟨rest, hrest⟩
  · exact ⟨.empty, by rw [hall, ByteArray.append_empty]⟩
  · refine ⟨rest.utf8Encode.push 0, ?_⟩
    rw [hrest, ← List.singleton_append]
    simp only [List.utf8Encode_append, hzero, ← ByteArray.append_toByteArray_singleton,
      ByteArray.append_assoc]

/-- The encoding of a character other than zero has no zero byte. -/
theorem ne_zero_of_mem_utf8EncodeChar {c : Char} (h : c ≠ '\x00') :
    ∀ byte ∈ String.utf8EncodeChar c, byte ≠ 0 := by
  have hvalue : c.val.toNat ≠ 0 := fun zero => h (Char.ext (UInt32.toNat_inj.mp zero))
  have hbytes : ∀ byte ∈ String.utf8EncodeChar c, byte.toNat ≠ 0 := by
    -- one case for each length that an encoding can have
    fun_cases String.utf8EncodeChar c
    all_goals
      simp only [List.forall_mem_cons, UInt8.toNat_ofNat', List.not_mem_nil, false_implies,
        implies_true, and_true]
      omega
  rintro byte mem rfl
  exact hbytes _ mem rfl

/-- Nor has the encoding of a text without zero characters. -/
theorem getElem_toUTF8_ne_zero {text : String} (h : ∀ c ∈ text.toList, c ≠ '\x00') {place : Nat}
    (bound : place < text.toUTF8.size) : text.toUTF8[place] ≠ 0 := by
  have hmem : text.toUTF8[place] ∈ text.toList.flatMap String.utf8EncodeChar := by
    simp only [String.toUTF8_eq_toByteArray, ← String.utf8Encode_toList, List.utf8Encode,
      List.getElem_toByteArray]
    exact List.getElem_mem _
  obtain ⟨c, hc, hbyte⟩ := List.mem_flatMap.mp hmem
  exact ne_zero_of_mem_utf8EncodeChar (h c hc) _ hbyte

/-! ### Reading a heap -/

/-- Bytes are decoded to the text that they encode. -/
theorem fromUTF8?_eq_some_iff {bytes : ByteArray} {text : String} :
    String.fromUTF8? bytes = some text ↔ bytes = text.toUTF8 := by
  rw [String.fromUTF8?]
  constructor
  · intro decoded
    split at decoded
    · rw [← Option.some.inj decoded]
      rfl
    · cases decoded
  · rintro rfl
    exact dif_pos text.isValidUTF8

namespace StringHeap

variable {heap : StringHeap} {offset : StringOffset} {text : String}

/-- What is read is decoded from the bytes before the next zero. -/
theorem read_of_terminator? {stop : Nat} (h : terminator? heap.bytes offset.toNat = some stop) :
    heap.read offset =
      ((String.fromUTF8? (heap.bytes.extract offset.toNat stop)).elim
        (.error (.malformed (.invalidString offset.toNat))) .ok) := by
  have hwithin : ¬ heap.size ≤ offset.toNat :=
    Nat.not_le_of_lt (Nat.lt_of_le_of_lt (le_of_terminator? h) (lt_size_of_terminator? h))
  simp only [read, if_neg hwithin, h]
  cases String.fromUTF8? (heap.bytes.extract offset.toNat stop) <;> rfl

/-- Nothing is read where no zero follows. -/
theorem exists_terminator?_of_read (h : heap.read offset = .ok text) :
    ∃ stop, terminator? heap.bytes offset.toNat = some stop := by
  cases hstop : terminator? heap.bytes offset.toNat with
  | some stop => exact ⟨stop, rfl⟩
  | none =>
    rw [read, hstop] at h
    split at h <;> cases h

/-- **When a text is read**: the bytes from the offset to the next zero encode it. -/
theorem read_eq_ok_iff :
    heap.read offset = .ok text ↔ ∃ stop, terminator? heap.bytes offset.toNat = some stop ∧
      heap.bytes.extract offset.toNat stop = text.toUTF8 := by
  constructor
  · intro found
    obtain ⟨stop, hstop⟩ := exists_terminator?_of_read found
    rw [read_of_terminator? hstop] at found
    refine ⟨stop, hstop, fromUTF8?_eq_some_iff.mp ?_⟩
    cases hdecoded : String.fromUTF8? (heap.bytes.extract offset.toNat stop) with
    | none => cases hdecoded ▸ found
    | some text' =>
      rw [hdecoded] at found
      exact congrArg some (Except.ok.inj found)
  · rintro ⟨stop, hstop, hbytes⟩
    rw [read_of_terminator? hstop, fromUTF8?_eq_some_iff.mpr hbytes]
    rfl

/-- A text is read only within the heap. -/
theorem lt_size_of_read (h : heap.read offset = .ok text) : offset.toNat < heap.size := by
  obtain ⟨stop, hstop, -⟩ := read_eq_ok_iff.mp h
  exact Nat.lt_of_le_of_lt (le_of_terminator? hstop) (lt_size_of_terminator? hstop)

end StringHeap

end TypeGraph
