import Mathlib
import TypeGraph.Proofs.Interning

/-!
# Offsets of interned strings

A heap keeps two accounts of what was interned into it: the bytes, and a map from strings to
offsets. They agree. The offset that the map has for a string reads as that string, as far as a
reader can see it, and no other string has the same offset.

Strings with a zero inside are told apart by the map only. Two of them that agree before the zero
have offsets of their own, and these read alike.

An offset is the size of the heap at the time, so all this holds as long as that is a number that an
offset can be.

## Main definitions

* `StringHeap.Faithful` — the map agrees with the bytes
* `StringHeap.Addressable` — every string of a run is interned while the heap's size is an offset
* `StringHeap.RoundTrips` — what the offsets of a run are good for

## Main results

* `StringHeap.Faithful.intern` — interning keeps the two accounts in step
* `StringHeap.known_internEach_take` — the offsets that a run answers are those in the map
* `StringHeap.Initial.roundTrips` — interned strings are read back, known again and told apart
-/

namespace TypeGraph

namespace StringHeap

variable {start heap : StringHeap} {offset : StringOffset} {value : String} {values : List String}

/-! ### The map and the bytes -/

/-- The map of a heap agrees with its bytes. -/
structure Faithful (heap : StringHeap) : Prop where
  reads {value : String} {offset : StringOffset} :
    heap.offsets[value]? = some offset → heap.read offset = .ok (beforeZero value)
  distinct {value value' : String} {offset : StringOffset} :
    heap.offsets[value]? = some offset → heap.offsets[value']? = some offset → value = value'

/-- A string that was just appended is read back up to its first zero. -/
theorem read_append (bytes : ByteArray) (offsets : Std.HashMap String StringOffset) (value : String)
    (h : offset.toNat = bytes.size) :
    (⟨(bytes ++ value.toUTF8).push 0, offsets⟩ : StringHeap).read offset =
      .ok (beforeZero value) := by
  obtain ⟨rest, hrest⟩ := exists_toUTF8_push_zero_eq value
  have hbytes : (bytes ++ value.toUTF8).push 0 =
      bytes ++ ((beforeZero value).toUTF8.push 0 ++ rest) := by
    rw [← hrest]
    simp only [← ByteArray.append_toByteArray_singleton, ByteArray.append_assoc]
  have hnonzero (place : Nat) (bound : place < (beforeZero value).toUTF8.size) :
      (beforeZero value).toUTF8[place] ≠ 0 :=
    getElem_toUTF8_ne_zero (fun _ => ne_zero_of_mem_beforeZero) bound
  refine read_eq_ok_iff.mpr ⟨bytes.size + (beforeZero value).toUTF8.size, ?_, ?_⟩
  · rw [hbytes, h]
    exact terminator?_append_push_zero hnonzero bytes rest
  · rw [hbytes, h]
    exact extract_append_push_zero bytes _ rest

/-- What is known after a string was entered into a map is that string, or was known before. -/
theorem of_getElem?_insert {offsets : Std.HashMap String StringOffset} {text : String}
    {entered : StringOffset} (h : (offsets.insert value entered)[text]? = some offset) :
    text = value ∧ offset = entered ∨ offsets[text]? = some offset := by
  rw [Std.HashMap.getElem?_insert] at h
  split at h
  · next same => exact .inl ⟨(eq_of_beq same).symm, (Option.some.inj h).symm⟩
  · exact .inr h

/-- A heap that interning begins with knows no string but the empty one. -/
theorem Initial.eq_of_known (h : start.Initial) (known : start.offsets[value]? = some offset) :
    value = "" ∧ offset = ⟨0⟩ := by
  cases h with
  | empty =>
    rcases of_getElem?_insert known with same | before
    · exact same
    · cases Std.HashMap.getElem?_emptyWithCapacity.symm.trans before
  | loaded accepted =>
    unfold load at accepted
    split at accepted
    · rw [← Except.ok.inj accepted] at known
      cases Std.HashMap.getElem?_emptyWithCapacity.symm.trans known
    · cases accepted

theorem Initial.faithful (h : start.Initial) : start.Faithful where
  reads known := by
    obtain ⟨rfl, rfl⟩ := h.eq_of_known known
    exact h.read_zero
  distinct known known' := (h.eq_of_known known).1.trans (h.eq_of_known known').1.symm

/-- **Interning keeps the two accounts in step.** -/
theorem Faithful.intern (h : heap.Faithful) (fits : heap.size < UInt32.size) (value : String) :
    (heap.intern value).2.Faithful := by
  cases hknown : heap.offsets[value]? with
  | some offset =>
    rw [intern_of_known hknown]
    exact h
  | none =>
    have hgrown := extends_intern heap value
    rw [intern_of_unknown hknown] at hgrown ⊢
    have hnew : (Index.ofNatClamp heap.size : StringOffset).toNat = heap.size :=
      Index.toNat_ofNatClamp fits
    -- what was known lies within the heap, so its offset is not the new one
    have hother {text : String} : heap.offsets[text]? ≠ some (Index.ofNatClamp heap.size) := by
      intro known
      have hwithin := lt_size_of_read (h.reads known)
      omega
    constructor
    case reads =>
      intro text offset known
      rcases of_getElem?_insert known with ⟨rfl, rfl⟩ | before
      · exact read_append heap.bytes _ text hnew
      · exact hgrown.read_of_ok (h.reads before)
    case distinct =>
      intro text text' offset known known'
      rcases of_getElem?_insert known with ⟨rfl, rfl⟩ | before <;>
        rcases of_getElem?_insert known' with ⟨rfl, hsame⟩ | before'
      · rfl
      · exact absurd before' hother
      · exact absurd (hsame ▸ before) hother
      · exact h.distinct before before'

/-! ### Runs -/

/-- Interning makes a string known. -/
theorem known_intern (heap : StringHeap) (value : String) :
    (heap.intern value).2.offsets[value]? = some (heap.intern value).1 := by
  cases hknown : heap.offsets[value]? with
  | some offset =>
    rw [intern_of_known hknown]
    exact hknown
  | none =>
    rw [intern_of_unknown hknown]
    exact Std.HashMap.getElem?_insert_self

/-- What is known stays known, with the same offset. -/
theorem known_intern_of_known {text : String} (h : heap.offsets[text]? = some offset)
    (value : String) : (heap.intern value).2.offsets[text]? = some offset := by
  cases hknown : heap.offsets[value]? with
  | some offset' =>
    rw [intern_of_known hknown]
    exact h
  | none =>
    rw [intern_of_unknown hknown, Std.HashMap.getElem?_insert]
    split
    · next same =>
      rw [← eq_of_beq same, hknown] at h
      cases h
    · exact h

theorem known_internEach_of_known {text : String} (values : List String)
    (h : heap.offsets[text]? = some offset) :
    (heap.internEach values).2.offsets[text]? = some offset := by
  induction values generalizing heap with
  | nil => exact h
  | cons value rest ih => exact ih (known_intern_of_known h value)

/-- Every string of a run is interned while the heap is no larger than the largest offset. -/
def Addressable (start : StringHeap) (values : List String) : Prop :=
  ∀ stage < values.length, (start.internEach (values.take stage)).2.size < UInt32.size

theorem Addressable.head {rest : List String} (h : start.Addressable (value :: rest)) :
    start.size < UInt32.size :=
  h 0 (Nat.zero_lt_succ _)

theorem Addressable.tail {rest : List String} (h : start.Addressable (value :: rest)) :
    (start.intern value).2.Addressable rest := fun stage bound =>
  h (stage + 1) (Nat.succ_lt_succ bound)

/-- The two accounts are in step at every stage of a run. -/
theorem Faithful.internEach_take (h : start.Faithful) (fits : start.Addressable values)
    (stage : Nat) : (start.internEach (values.take stage)).2.Faithful := by
  induction values generalizing start stage with
  | nil => simpa using h
  | cons value rest ih =>
    cases stage with
    | zero => exact h
    | succ stage => exact ih (h.intern fits.head value) fits.tail stage

theorem length_internEach (start : StringHeap) (values : List String) :
    (start.internEach values).1.length = values.length := by
  induction values generalizing start with
  | nil => rfl
  | cons value rest ih => exact congrArg (· + 1) (ih (start.intern value).2)

/-- **The offsets that a run answers are those in the map**, at every later stage of the run. -/
theorem known_internEach_take {place stage : Nat} (found : values[place]? = some value)
    (answered : (start.internEach values).1[place]? = some offset) (later : place < stage) :
    (start.internEach (values.take stage)).2.offsets[value]? = some offset := by
  induction values generalizing start place stage with
  | nil => cases found
  | cons head rest ih =>
    obtain ⟨stage, rfl⟩ := Nat.exists_eq_succ_of_ne_zero (Nat.ne_zero_of_lt later)
    rw [internEach_cons] at answered
    rw [List.take_succ_cons, internEach_cons]
    cases place with
    | zero =>
      obtain rfl := Option.some.inj found
      obtain rfl := Option.some.inj answered
      exact known_internEach_of_known _ (known_intern start head)
    | succ place => exact ih found answered (Nat.lt_of_succ_lt_succ later)

/-- What the offsets of a run are good for. A stage of the run is what some of its strings leave,
so the first one after a place is the heap that interning the string there left. -/
structure RoundTrips (start : StringHeap) (values : List String) : Prop where
  answers : (start.internEach values).1.length = values.length
  reads {place stage : Nat} {value : String} {offset : StringOffset} :
    values[place]? = some value → (start.internEach values).1[place]? = some offset →
      place < stage → (start.internEach (values.take stage)).2.read offset = .ok (beforeZero value)
  again {place stage : Nat} {value : String} {offset : StringOffset} :
    values[place]? = some value → (start.internEach values).1[place]? = some offset →
      place < stage → (start.internEach (values.take stage)).2.intern value =
        (offset, (start.internEach (values.take stage)).2)
  distinct {place place' : Nat} {value value' : String} {offset : StringOffset} :
    values[place]? = some value → (start.internEach values).1[place]? = some offset →
      values[place']? = some value' → (start.internEach values).1[place']? = some offset →
        value = value'

/-- **Interned strings are read back, known again and told apart**, whatever heap they were interned
into. -/
theorem Initial.roundTrips (h : start.Initial) (fits : start.Addressable values) :
    RoundTrips start values where
  answers := length_internEach start values
  reads found answered later :=
    (h.faithful.internEach_take fits _).reads (known_internEach_take found answered later)
  again found answered later := intern_of_known (known_internEach_take found answered later)
  distinct {place place' value value' offset} found answered found' answered' := by
    have hlater : place < max place place' + 1 := by omega
    have hlater' : place' < max place place' + 1 := by omega
    exact (h.faithful.internEach_take fits _).distinct
      (known_internEach_take found answered hlater) (known_internEach_take found' answered' hlater')

/-- Two strings that differ only behind a zero, and the empty string, which a heap from an image
does not know. -/
theorem roundTrips_ragged : ragged.Initial ∧ ragged.Addressable ["a\x00b", "", "a\x00c"] ∧
    (ragged.internEach ["a\x00b", "", "a\x00c"]).1 = [⟨3⟩, ⟨7⟩, ⟨8⟩] ∧
      RoundTrips ragged ["a\x00b", "", "a\x00c"] := by
  have hfits : ragged.Addressable ["a\x00b", "", "a\x00c"] := by
    intro stage bound
    have hstage : stage = 0 ∨ stage = 1 ∨ stage = 2 := by
      rw [List.length_cons, List.length_cons, List.length_cons, List.length_nil] at bound
      omega
    rcases hstage with rfl | rfl | rfl <;> cbv
  exact ⟨initial_ragged, hfits, by cbv, initial_ragged.roundTrips hfits⟩

end StringHeap

end TypeGraph
