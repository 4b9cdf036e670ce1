/-
Texts cut at byte offsets. A slice is refused where one of its offsets is behind the text
or inside a character, and nowhere else (`exists_slice_iff`). An offset at which the byte of
an ASCII character is read is a place in front of that character (`byteAt_eq_ok_iff`).
-/
import ReleaseSchema.Proofs.Text.Bytes

namespace ReleaseSchema.Text

variable {text inside : List Char} {start stop offset : Nat}

/-! ## Slices -/

/-- Why a slice is refused. -/
inductive OffsetError where
  /-- The end is behind the text, or in front of the start. -/
  | outOfRange
  | insideCharacter
  deriving DecidableEq, Repr

/-- The text between two byte offsets. -/
def slice (text : List Char) (start stop : Nat) : Except OffsetError (List Char) :=
  if stop < start ∨ byteLength text < stop then .error .outOfRange
  else
    match splitAtByte? stop text with
    | none => .error .insideCharacter
    | some (upTo, _) =>
      match splitAtByte? start upTo with
      | none => .error .insideCharacter
      | some (_, inside) => .ok inside

theorem slice_eq_ok_iff : slice text start stop = .ok inside ↔
    ∃ before after, text = before ++ (inside ++ after) ∧ byteLength before = start ∧
      byteLength (before ++ inside) = stop := by
  constructor
  · intro h
    unfold slice at h
    split at h
    · cases h
    split at h
    · cases h
    next upTo after hstop =>
      split at h
      · cases h
      next before found hstart =>
        cases h
        obtain ⟨rfl, hupTo⟩ := splitAtByte?_eq_some_iff.1 hstop
        obtain ⟨rfl, hbefore⟩ := splitAtByte?_eq_some_iff.1 hstart
        exact ⟨before, after, List.append_assoc .., hbefore, hupTo⟩
  · rintro ⟨before, after, rfl, rfl, rfl⟩
    have inRange : ¬(byteLength (before ++ inside) < byteLength before ∨
        byteLength (before ++ (inside ++ after)) < byteLength (before ++ inside)) := by
      simp only [byteLength_append]
      omega
    have hstop : splitAtByte? (byteLength (before ++ inside)) (before ++ (inside ++ after)) =
        some (before ++ inside, after) :=
      splitAtByte?_eq_some_iff.2 ⟨(List.append_assoc ..).symm, rfl⟩
    have hstart : splitAtByte? (byteLength before) (before ++ inside) = some (before, inside) :=
      splitAtByte?_eq_some_iff.2 ⟨rfl, rfl⟩
    rw [slice, if_neg inRange, hstop]
    simp only [hstart]

theorem slice_append (before inside after : List Char) :
    slice (before ++ (inside ++ after)) (byteLength before)
      (byteLength before + byteLength inside) = .ok inside :=
  slice_eq_ok_iff.2 ⟨before, after, rfl, rfl, byteLength_append ..⟩

theorem slice_start (inside after : List Char) :
    slice (inside ++ after) 0 (byteLength inside) = .ok inside :=
  slice_eq_ok_iff.2 ⟨[], after, rfl, rfl, rfl⟩

theorem slice_end (before inside : List Char) :
    slice (before ++ inside) (byteLength before) (byteLength (before ++ inside)) = .ok inside :=
  slice_eq_ok_iff.2 ⟨before, [], by rw [List.append_nil], rfl, rfl⟩

theorem length_slice (h : slice text start stop = .ok inside) :
    inside.length ≤ text.length ∧ (0 < start → inside.length < text.length) := by
  obtain ⟨before, after, rfl, rfl, -⟩ := slice_eq_ok_iff.1 h
  refine ⟨by simp; omega, fun some => ?_⟩
  have hne : before ≠ [] := by
    rintro rfl
    cases some
  have := List.length_pos_iff.2 hne
  simp
  omega

/-! ## Places -/

/-- An offset is in front of a character of the text, or right behind the text. -/
def IsPlace (text : List Char) (offset : Nat) : Prop :=
  String.Pos.Raw.IsValid (String.ofList text) ⟨offset⟩

theorem utf8ByteSize_ofList (text : List Char) :
    (String.ofList text).utf8ByteSize = byteLength text := by
  induction text with
  | nil => rfl
  | cons c text ih =>
    rw [← List.singleton_append, String.ofList_append, String.utf8ByteSize_append, ih]
    simp [byteLength]

theorem isPlace_iff : IsPlace text offset ↔
    ∃ before after, text = before ++ after ∧ byteLength before = offset := by
  rw [IsPlace, String.Pos.Raw.isValid_iff_exists_append]
  constructor
  · rintro ⟨front, rest, htext, hoffset⟩
    refine ⟨front.toList, rest.toList, ?_, ?_⟩
    · rw [← String.toList_append, ← htext, String.toList_ofList]
    · rw [← utf8ByteSize_ofList, String.ofList_toList]
      exact (congrArg String.Pos.Raw.byteIdx hoffset).symm
  · rintro ⟨before, after, rfl, rfl⟩
    refine ⟨String.ofList before, String.ofList after, String.ofList_append, ?_⟩
    rw [String.Pos.Raw.ext_iff, String.byteIdx_rawEndPos, utf8ByteSize_ofList]

/-- A slice is refused only where one of its offsets is no place or they are in the wrong order. -/
theorem exists_slice_iff : (∃ inside, slice text start stop = .ok inside) ↔
    start ≤ stop ∧ IsPlace text start ∧ IsPlace text stop := by
  simp only [slice_eq_ok_iff, isPlace_iff]
  constructor
  · rintro ⟨inside, before, after, rfl, rfl, rfl⟩
    refine ⟨?_, ⟨before, _, rfl, rfl⟩, before ++ inside, after, ?_, rfl⟩
    · rw [byteLength_append]
      exact Nat.le_add_right ..
    · rw [List.append_assoc]
  · rintro ⟨inOrder, ⟨before, behind, rfl, rfl⟩, ⟨upTo, after, htext, rfl⟩⟩
    obtain ⟨inside, rfl, rfl⟩ := exists_append_of_byteLength_le htext inOrder
    exact ⟨inside, before, after, rfl, rfl, rfl⟩

example : slice "café".toList 0 4 = .error .insideCharacter := rfl

/-! ## Single bytes -/

/-- The byte at an offset. -/
def byteAt (text : List Char) (offset : Nat) : Except OffsetError UInt8 :=
  match (bytes text)[offset]? with
  | none => .error .outOfRange
  | some byte => .ok byte

theorem exists_byteAt (h : offset < byteLength text) : ∃ byte, byteAt text offset = .ok byte := by
  rw [← length_bytes] at h
  exact ⟨(bytes text)[offset], by rw [byteAt, List.getElem?_eq_getElem h]⟩

theorem byteAt_eq_ok_iff {x : Char} (h : x.toNat < 0x80) :
    byteAt text offset = .ok x.toUInt8 ↔
      ∃ before after, text = before ++ x :: after ∧ byteLength before = offset := by
  rw [← getElem?_bytes_eq_some_iff h, byteAt]
  split
  next none => simp [none]
  next byte some => simp [some]

end ReleaseSchema.Text
