/-
The bytes of texts. An ASCII character is one byte, and every other one is bytes that are
none of an ASCII character, so where the byte of an ASCII character is, that character is
(`getElem?_bytes_eq_some_iff`), and bytes that begin with those of an ASCII text are of a
text that begins so (`bytes_prefix_iff`). Letter case is the same of bytes and of characters
(`map_lowerByte_bytes`, `all_isCodeByte_bytes`).
-/
import Mathlib.Data.List.Basic
import ReleaseSchema.Proofs.Text.Case
import ReleaseSchema.Proofs.Text.Search
import ReleaseSchema.Proofs.Text.Utf8
import ReleaseSchema.Proofs.Text.WholeWord

namespace ReleaseSchema.Text

variable {text start : List Char} {offset : Nat}

/-! ## Lengths -/

theorem utf8Size_of_ascii {c : Char} (h : c.toNat < 0x80) : c.utf8Size = 1 :=
  Char.utf8Size_eq_one_iff.2 (Nat.le_of_lt_succ h)

theorem byteLength_cons_of_ascii {c : Char} (h : c.toNat < 0x80) (text : List Char) :
    byteLength (c :: text) = byteLength text + 1 := by
  rw [byteLength, utf8Size_of_ascii h, Nat.add_comm]

theorem byteLength_append (a b : List Char) :
    byteLength (a ++ b) = byteLength a + byteLength b := by
  induction a with
  | nil => exact (Nat.zero_add _).symm
  | cons c a ih => rw [List.cons_append, byteLength, ih, byteLength, Nat.add_assoc]

theorem byteLength_pos (hne : text ≠ []) : 0 < byteLength text :=
  Nat.pos_of_ne_zero fun none => hne (eq_nil_of_byteLength none)

theorem byteLength_reverse (text : List Char) : byteLength text.reverse = byteLength text := by
  induction text with
  | nil => rfl
  | cons c text ih =>
    rw [List.reverse_cons, byteLength_append, ih]
    simp only [byteLength]
    omega

/-- Of two cuts of a text, the later one has the earlier one in front. -/
theorem exists_append_of_byteLength_le {a b c d : List Char} (h : a ++ b = c ++ d)
    (le : byteLength a ≤ byteLength c) : ∃ between, c = a ++ between ∧ b = between ++ d := by
  rcases List.append_eq_append_iff.1 h with ⟨between, rfl, rfl⟩ | ⟨more, rfl, rfl⟩
  · exact ⟨between, rfl, rfl⟩
  · rw [byteLength_append] at le
    obtain rfl : more = [] := eq_nil_of_byteLength (by omega)
    exact ⟨[], by simp, rfl⟩

/-! ## Bytes -/

/-- The bytes of a text in UTF-8. -/
def bytes (text : List Char) : List UInt8 := text.flatMap String.utf8EncodeChar

theorem bytes_append (a b : List Char) : bytes (a ++ b) = bytes a ++ bytes b :=
  List.flatMap_append

theorem length_bytes (text : List Char) : (bytes text).length = byteLength text := by
  induction text with
  | nil => rfl
  | cons c text ih =>
    rw [bytes, List.flatMap_cons, List.length_append, String.length_utf8EncodeChar, ← bytes, ih,
      byteLength]

theorem utf8EncodeChar_of_ascii {c : Char} (h : c.toNat < 0x80) :
    String.utf8EncodeChar c = [c.toUInt8] :=
  String.utf8EncodeChar_eq_singleton (utf8Size_of_ascii h)

/-- Every other character is bytes that are none of an ASCII character. -/
theorem le_of_mem_utf8EncodeChar {c : Char} (h : 0x80 ≤ c.toNat) :
    ∀ b ∈ String.utf8EncodeChar c, 0x80 ≤ b.toNat := by
  have great : ¬c.val.toNat ≤ 0x7F := Nat.not_le_of_lt h
  unfold String.utf8EncodeChar
  dsimp only
  rw [if_neg great]
  split
  · simp
    omega
  split
  · simp
    omega
  · simp
    omega

theorem bytes_cons (c : Char) (text : List Char) :
    bytes (c :: text) = String.utf8EncodeChar c ++ bytes text := rfl

theorem bytes_cons_of_ascii {c : Char} (h : c.toNat < 0x80) (text : List Char) :
    bytes (c :: text) = c.toUInt8 :: bytes text := by
  rw [bytes_cons, utf8EncodeChar_of_ascii h, List.singleton_append]

theorem toNat_toUInt8_of_ascii {c : Char} (h : c.toNat < 0x80) : c.toUInt8.toNat = c.toNat := by
  have wraps : c.toUInt8.toNat = c.toNat % 256 := UInt32.toNat_toUInt8 c.val
  omega

theorem toUInt8_inj_of_ascii {c x : Char} (hc : c.toNat < 0x80) (hx : x.toNat < 0x80) :
    c.toUInt8 = x.toUInt8 ↔ c = x := by
  refine ⟨fun h => ?_, congrArg _⟩
  have same : c.toNat = x.toNat := by
    rw [← toNat_toUInt8_of_ascii hc, h, toNat_toUInt8_of_ascii hx]
  rw [← Char.ofNat_toNat c, same, Char.ofNat_toNat]

theorem not_le_of_great {b : UInt8} {x : Char} (hb : 0x80 ≤ b.toNat) (hx : x.toNat < 0x80) :
    ¬b ≤ x.toUInt8 := by
  rw [UInt8.le_iff_toNat_le, toNat_toUInt8_of_ascii hx]
  omega

theorem ne_toUInt8_of_great {b : UInt8} {x : Char} (hb : 0x80 ≤ b.toNat) (hx : x.toNat < 0x80) :
    b ≠ x.toUInt8 := fun same => not_le_of_great hb hx (same ▸ UInt8.le_refl _)

theorem ne_of_great {c x : Char} (hc : 0x80 ≤ c.toNat) (hx : x.toNat < 0x80) : c ≠ x :=
  fun same => absurd (same ▸ hx) (Nat.not_lt.2 hc)

/-- Where the byte of an ASCII character is, that character is. -/
theorem getElem?_bytes_eq_some_iff {x : Char} (h : x.toNat < 0x80) :
    (bytes text)[offset]? = some x.toUInt8 ↔
      ∃ before after, text = before ++ x :: after ∧ byteLength before = offset := by
  constructor
  · intro hbyte
    induction text generalizing offset with
    | nil => cases hbyte
    | cons c text ih =>
      have size := String.length_utf8EncodeChar c
      rw [bytes_cons] at hbyte
      by_cases hoffset : offset < c.utf8Size
      · rw [List.getElem?_append_left (by omega)] at hbyte
        have hmem := List.mem_of_getElem? hbyte
        have ascii : c.toNat < 0x80 := by
          by_contra great
          have byte := le_of_mem_utf8EncodeChar (Nat.le_of_not_lt great) _ hmem
          rw [toNat_toUInt8_of_ascii h] at byte
          omega
        rw [utf8EncodeChar_of_ascii ascii, List.mem_singleton] at hmem
        obtain rfl := (toUInt8_inj_of_ascii h ascii).1 hmem
        have one : x.utf8Size = 1 := by rw [← size, utf8EncodeChar_of_ascii h]; rfl
        exact ⟨[], text, rfl, by rw [byteLength]; omega⟩
      · rw [List.getElem?_append_right (by omega), size] at hbyte
        obtain ⟨before, after, rfl, hbefore⟩ := ih hbyte
        exact ⟨c :: before, after, rfl, by rw [byteLength, hbefore]; omega⟩
  · rintro ⟨before, after, rfl, rfl⟩
    rw [bytes_append, bytes_cons_of_ascii h, ← length_bytes]
    simp

theorem head?_bytes_eq_some_iff {x : Char} (h : x.toNat < 0x80) :
    (bytes text).head? = some x.toUInt8 ↔ text.head? = some x := by
  rw [List.head?_eq_getElem?, getElem?_bytes_eq_some_iff h, List.head?_eq_some_iff]
  constructor
  · rintro ⟨before, after, rfl, hbefore⟩
    rw [eq_nil_of_byteLength hbefore]
    exact ⟨after, rfl⟩
  · rintro ⟨after, rfl⟩
    exact ⟨[], after, rfl, rfl⟩

theorem bytes_prefix_iff (h : ∀ c ∈ start, c.toNat < 0x80) :
    bytes start <+: bytes text ↔ start <+: text := by
  constructor
  · intro hbytes
    induction start generalizing text with
    | nil => exact List.nil_prefix
    | cons c start ih =>
      obtain ⟨hc, hstart⟩ := List.forall_mem_cons.1 h
      obtain ⟨more, hmore⟩ := hbytes
      rw [bytes_cons_of_ascii hc, List.cons_append] at hmore
      have first : (bytes text).head? = some c.toUInt8 := by rw [← hmore, List.head?_cons]
      obtain ⟨text, rfl⟩ := List.head?_eq_some_iff.1 ((head?_bytes_eq_some_iff hc).1 first)
      rw [bytes_cons_of_ascii hc, List.cons.injEq] at hmore
      exact List.cons_prefix_cons.2 ⟨rfl, ih hstart ⟨more, hmore.2⟩⟩
  · rintro ⟨more, rfl⟩
    rw [bytes_append]
    exact List.prefix_append _ _

/-! ## Letter case -/

theorem toLower_of_great {c : Char} (h : 0x80 ≤ c.toNat) : c.toLower = c := by
  unfold Char.toLower
  split
  next upper =>
    have high : c.val.toNat ≤ 90 := upper.2
    have great : 0x80 ≤ c.val.toNat := h
    omega
  next => rfl

/-- A fact of every ASCII character is one of the first 128 numbers. -/
theorem of_ascii {P : Char → Prop} {c : Char} (h : c.toNat < 0x80)
    (all : ∀ n < 0x80, P (Char.ofNat n)) : P c := by
  have := all c.toNat h
  rwa [Char.ofNat_toNat] at this

theorem toNat_toLower_of_ascii {c : Char} (h : c.toNat < 0x80) : c.toLower.toNat < 0x80 :=
  of_ascii (P := fun c => c.toLower.toNat < 0x80) h (by decide)

theorem utf8Size_toLower (c : Char) : c.toLower.utf8Size = c.utf8Size := by
  by_cases ascii : c.toNat < 0x80
  · rw [utf8Size_of_ascii (toNat_toLower_of_ascii ascii), utf8Size_of_ascii ascii]
  · rw [toLower_of_great (Nat.le_of_not_lt ascii)]

theorem byteLength_lowerAscii (text : List Char) :
    byteLength (lowerAscii text) = byteLength text := by
  induction text with
  | nil => rfl
  | cons c text ih =>
    rw [lowerAscii, List.map_cons, ← lowerAscii, byteLength, ih, utf8Size_toLower, byteLength]

theorem byteLength_eq_of_sameLetters {a b : List Char} (h : sameLetters a b = true) :
    byteLength a = byteLength b := by
  rw [← byteLength_lowerAscii a, sameLetters_iff.1 h, byteLength_lowerAscii]

theorem sameLetters_lowerAscii (a b : List Char) :
    sameLetters (lowerAscii a) b = sameLetters a b := by
  have same (c : Char) : c.toLower.toLower = c.toLower := by
    by_cases ascii : c.toNat < 0x80
    · exact of_ascii (P := fun c => c.toLower.toLower = c.toLower) ascii (by decide)
    · have great := toLower_of_great (Nat.le_of_not_lt ascii)
      rw [great, great]
  have idem : lowerAscii (lowerAscii a) = lowerAscii a := by
    simp only [lowerAscii, List.map_map, Function.comp_def, same]
  rw [sameLetters, idem, sameLetters]

/-- The byte of the small letter, of that of a capital one. -/
def lowerByte (b : UInt8) : UInt8 :=
  if 'A'.toUInt8 ≤ b ∧ b ≤ 'Z'.toUInt8 then b + 32 else b

/-- The byte of an ASCII letter or digit. -/
def isCodeByte (b : UInt8) : Bool :=
  ('0'.toUInt8 ≤ b ∧ b ≤ '9'.toUInt8) ∨ ('A'.toUInt8 ≤ b ∧ b ≤ 'Z'.toUInt8) ∨
    ('a'.toUInt8 ≤ b ∧ b ≤ 'z'.toUInt8)

theorem map_lowerByte_utf8EncodeChar (c : Char) :
    (String.utf8EncodeChar c).map lowerByte = String.utf8EncodeChar c.toLower := by
  by_cases ascii : c.toNat < 0x80
  · rw [utf8EncodeChar_of_ascii ascii, utf8EncodeChar_of_ascii (toNat_toLower_of_ascii ascii)]
    have same : lowerByte c.toUInt8 = c.toLower.toUInt8 :=
      of_ascii (P := fun c => lowerByte c.toUInt8 = c.toLower.toUInt8) ascii (by decide)
    rw [List.map_singleton, same]
  · have great : 0x80 ≤ c.toNat := Nat.le_of_not_lt ascii
    rw [toLower_of_great great]
    refine (List.map_congr_left fun b hb => ?_).trans (List.map_id _)
    have noCapital : ¬b ≤ 'Z'.toUInt8 :=
      not_le_of_great (le_of_mem_utf8EncodeChar great b hb) (by decide)
    rw [lowerByte, if_neg fun capital => noCapital capital.2, id]

theorem map_lowerByte_bytes (text : List Char) :
    (bytes text).map lowerByte = bytes (lowerAscii text) := by
  induction text with
  | nil => rfl
  | cons c text ih =>
    rw [bytes_cons, List.map_append, ih, map_lowerByte_utf8EncodeChar, lowerAscii, lowerAscii,
      List.map_cons, bytes_cons]

theorem all_isCodeByte_utf8EncodeChar (c : Char) :
    (String.utf8EncodeChar c).all isCodeByte = isAsciiAlphanumeric c := by
  by_cases ascii : c.toNat < 0x80
  · have same : isCodeByte c.toUInt8 = isAsciiAlphanumeric c :=
      of_ascii (P := fun c => isCodeByte c.toUInt8 = isAsciiAlphanumeric c) ascii (by decide)
    rw [utf8EncodeChar_of_ascii ascii, List.all_cons, same, List.all_nil, Bool.and_true]
  · have great : 0x80 ≤ c.toNat := Nat.le_of_not_lt ascii
    have noCode : isAsciiAlphanumeric c = false := by
      rw [← Bool.not_eq_true]
      exact fun code => ascii (toNat_lt_of_isAsciiAlphanumeric code)
    obtain ⟨first, others, hbytes, -⟩ := exists_utf8EncodeChar c
    have high := le_of_mem_utf8EncodeChar great first (by rw [hbytes]; exact List.mem_cons_self)
    have noByte : isCodeByte first = false := by
      simp only [isCodeByte, not_le_of_great high (x := '9') (by decide),
        not_le_of_great high (x := 'Z') (by decide), not_le_of_great high (x := 'z') (by decide),
        and_false, or_false, decide_false]
    rw [hbytes, List.all_cons, noByte, noCode, Bool.false_and]

theorem all_isCodeByte_bytes (text : List Char) :
    (bytes text).all isCodeByte = text.all isAsciiAlphanumeric := by
  induction text with
  | nil => rfl
  | cons c text ih =>
    rw [bytes_cons, List.all_append, ih, all_isCodeByte_utf8EncodeChar, List.all_cons]

theorem all_isAsciiAlphanumeric_lowerAscii (text : List Char) :
    (lowerAscii text).all isAsciiAlphanumeric = text.all isAsciiAlphanumeric := by
  have same (c : Char) : isAsciiAlphanumeric c.toLower = isAsciiAlphanumeric c := by
    by_cases ascii : c.toNat < 0x80
    · exact of_ascii (P := fun c => isAsciiAlphanumeric c.toLower = isAsciiAlphanumeric c) ascii
        (by decide)
    · rw [toLower_of_great (Nat.le_of_not_lt ascii)]
  rw [lowerAscii, List.all_map]
  exact congrArg text.all (funext same)

end ReleaseSchema.Text
