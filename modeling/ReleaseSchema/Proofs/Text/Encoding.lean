/-
Texts in the encodings that scripts come in. A text is read back from UTF-8, with or
without a byte order mark, and from UTF-16 behind its mark, in either order of the bytes
(`decode?_encode`); no text in UTF-16 is UTF-8 as well, since its mark begins with a byte
that UTF-8 never has. Bytes that are neither are read one by one (`decode?_bytewise`).
-/
import Mathlib.Data.List.Forall2
import ReleaseSchema.Proofs.Run
import ReleaseSchema.Proofs.Text.Surrogate
import ReleaseSchema.Proofs.Text.Utf8
import ReleaseSchema.Repository

namespace ReleaseSchema

namespace Text

/-- The encodings that are told by their bytes. -/
inductive Encoding where
  | utf8
  | markedUtf8
  | utf16LowFirst
  | utf16HighFirst
  deriving DecidableEq

def lowFirst (code : Nat) : List UInt8 := [UInt8.ofNat code, UInt8.ofNat (code / 256)]

def highFirst (code : Nat) : List UInt8 := [UInt8.ofNat (code / 256), UInt8.ofNat code]

namespace Encoding

/-- The byte order mark in front of a text. -/
def mark : Encoding → List UInt8
  | .utf8 => []
  | .markedUtf8 => [0xEF, 0xBB, 0xBF]
  | .utf16LowFirst => [0xFF, 0xFE]
  | .utf16HighFirst => [0xFE, 0xFF]

/-- The bytes of a text. -/
def body (text : List Char) : Encoding → List UInt8
  | .utf8 | .markedUtf8 => text.flatMap String.utf8EncodeChar
  | .utf16LowFirst => (text.flatMap units).flatMap lowFirst
  | .utf16HighFirst => (text.flatMap units).flatMap highFirst

/-- The bytes of a file that holds a text. -/
def encode (e : Encoding) (text : String) : ByteArray :=
  (e.mark ++ e.body text.toList).toByteArray

end Encoding

/-! ## UTF-16 -/

/-- Codes are read back from their bytes. -/
theorem units?_flatMap {code : UInt8 → UInt8 → Nat} {write : Nat → List UInt8}
    (written : ∀ n < 0x10000, ∃ a b, write n = [a, b] ∧ code a b = n) {codes : List Nat}
    (small : ∀ n ∈ codes, n < 0x10000) : units? code (codes.flatMap write) = some codes := by
  induction codes with
  | nil => rfl
  | cons n codes ih =>
    obtain ⟨a, b, hwrite, hcode⟩ := written n (small n List.mem_cons_self)
    have rest := ih fun m hm => small m (List.mem_cons_of_mem n hm)
    rw [List.flatMap_cons, hwrite, List.cons_append, List.singleton_append, units?, rest, hcode]
    rfl

theorem units?_lowFirst {codes : List Nat} (small : ∀ n ∈ codes, n < 0x10000) :
    units? (fun low high => high.toNat * 256 + low.toNat) (codes.flatMap lowFirst) = some codes := by
  refine units?_flatMap (fun n hn => ⟨_, _, rfl, ?_⟩) small
  simp only [UInt8.toNat_ofNat']
  omega

theorem units?_highFirst {codes : List Nat} (small : ∀ n ∈ codes, n < 0x10000) :
    units? (fun high low => high.toNat * 256 + low.toNat) (codes.flatMap highFirst) = some codes := by
  refine units?_flatMap (fun n hn => ⟨_, _, rfl, ?_⟩) small
  simp only [UInt8.toNat_ofNat']
  omega

theorem units_small (text : List Char) : ∀ n ∈ text.flatMap units, n < 0x10000 := by
  intro n hn
  obtain ⟨c, -, hc⟩ := List.mem_flatMap.1 hn
  exact units_lt hc

theorem fromUTF8?_eq_none_of_head {first : UInt8} {others : List UInt8} (h : 0xF8 ≤ first.toNat) :
    String.fromUTF8? (first :: others).toByteArray = none := by
  rw [fromUTF8?_eq_none_iff]
  rintro ⟨text, htext⟩
  rw [List.utf8Encode, List.toByteArray_inj] at htext
  cases text with
  | nil => cases htext
  | cons c text =>
    obtain ⟨start, rest, hc, low⟩ := exists_utf8EncodeChar c
    rw [List.flatMap_cons, hc, List.cons_append] at htext
    obtain ⟨rfl, -⟩ := List.cons.inj htext
    omega

/-! ## Reading back -/

theorem withoutMark_of_head {text : List Char} (h : text.head? ≠ some '\uFEFF') :
    withoutMark text = text := by
  unfold withoutMark
  split
  · exact absurd rfl h
  · rfl

/-- **Encodings.** A text that does not begin with a byte order mark is read back from each of its
encodings. -/
theorem decode?_encode (e : Encoding) {text : String} (h : text.toList.head? ≠ some '\uFEFF') :
    decode? (e.encode text) = some text := by
  have plain : withoutMark text.toList = text.toList := withoutMark_of_head h
  have codes : charsOfCodes? (text.toList.flatMap units) = some text.toList :=
    charsOfCodes?_units text.toList
  have small : ∀ n ∈ text.toList.flatMap units, n < 0x10000 := units_small text.toList
  cases e with
  | utf8 =>
    have read : String.fromUTF8? (Encoding.utf8.encode text) = some text :=
      fromUTF8?_eq_some_iff.2 String.utf8Encode_toList
    simp only [decode?, read, plain, String.ofList_toList]
  | markedUtf8 =>
    have marked : Encoding.markedUtf8.encode text = (String.ofList ('\uFEFF' :: text.toList)).toUTF8 := rfl
    have read := fromUTF8?_eq_some_iff.2 marked
    simp only [decode?, read, String.toList_ofList, withoutMark, String.ofList_toList]
  | utf16LowFirst =>
    have noText : String.fromUTF8? (Encoding.utf16LowFirst.encode text) = none :=
      fromUTF8?_eq_none_of_head (by decide)
    have read : otherChars? (Encoding.utf16LowFirst.encode text).toList = some text.toList := by
      rw [toList_eq_data, Encoding.encode, List.toList_data_toByteArray]
      show (units? _ ((text.toList.flatMap units).flatMap lowFirst)).bind charsOfCodes? = _
      rw [units?_lowFirst small, Option.bind_some, codes]
    simp only [decode?, noText, read, Option.map_some, plain, String.ofList_toList]
  | utf16HighFirst =>
    have noText : String.fromUTF8? (Encoding.utf16HighFirst.encode text) = none :=
      fromUTF8?_eq_none_of_head (by decide)
    have read : otherChars? (Encoding.utf16HighFirst.encode text).toList = some text.toList := by
      rw [toList_eq_data, Encoding.encode, List.toList_data_toByteArray]
      show (units? _ ((text.toList.flatMap units).flatMap highFirst)).bind charsOfCodes? = _
      rw [units?_highFirst small, Option.bind_some, codes]
    simp only [decode?, noText, read, Option.map_some, plain, String.ofList_toList]

/-! ## Bytes of no other encoding -/

/-- What holds of the character of every number below 256 holds of every byte's. -/
theorem of_westernChar {P : UInt8 → Prop} (all : ∀ n < 256, P (UInt8.ofNat n)) (byte : UInt8) :
    P byte := by
  have := all byte.toNat byte.toNat_lt
  rwa [UInt8.ofNat_toNat] at this

theorem westernChar_ne_mark : ∀ byte : UInt8, westernChar byte ≠ '\uFEFF' :=
  of_westernChar (by decide +kernel)

theorem toNat_westernChar :
    ∀ byte : UInt8, byte.toNat < 0x80 → (westernChar byte).toNat = byte.toNat :=
  of_westernChar (by decide +kernel)

/-- Bytes that begin with no mark are read one by one. -/
theorem otherChars?_of_no_mark {bytes : List UInt8}
    (h : ∀ e : Encoding, e ≠ .utf8 → ¬e.mark <+: bytes) :
    otherChars? bytes = some (bytes.map westernChar) := by
  unfold otherChars?
  split
  · exact absurd ⟨_, rfl⟩ (h .markedUtf8 (by decide))
  · exact absurd ⟨_, rfl⟩ (h .utf16LowFirst (by decide))
  · exact absurd ⟨_, rfl⟩ (h .utf16HighFirst (by decide))
  · rfl

theorem decode?_bytewise {bytes : ByteArray} (invalid : ¬bytes.IsValidUTF8)
    (h : ∀ e : Encoding, e ≠ .utf8 → ¬e.mark <+: bytes.toList) :
    decode? bytes = some (String.ofList (bytes.toList.map westernChar)) := by
  have plain : withoutMark (bytes.toList.map westernChar) = bytes.toList.map westernChar := by
    refine withoutMark_of_head fun hmark => ?_
    rw [List.head?_map, Option.map_eq_some_iff] at hmark
    obtain ⟨byte, -, hbyte⟩ := hmark
    exact westernChar_ne_mark byte hbyte
  simp only [decode?, fromUTF8?_eq_none_iff.2 invalid, otherChars?_of_no_mark h, Option.map_some,
    plain]

end Text

/-! ## Files -/

namespace Sources

open Text

variable {d : Disk} {path : String} {bytes : ByteArray}

theorem run_textAt (h : d.read path.toList = .ok bytes) :
    d.run (textAt path) = match decode? bytes with
      | some text => (.ok (.ok text), d)
      | none => (.ok (.error .invalidData), d) := by
  unfold textAt
  rw [Disk.run_bind_of_ok (Disk.run_read path), h]
  dsimp only
  rcases decode? bytes with _ | text
  · rfl
  · rfl

/-- **Texts of files.** A text that begins with no byte order mark is read as it is from a file in any
of the encodings. A file that is no UTF-8 and begins with no mark is read one character for each byte,
and an ASCII byte as itself. -/
theorem textAt_exact (h : d.read path.toList = .ok bytes) :
    (∀ (e : Encoding) (text : String), text.toList.head? ≠ some '\uFEFF' → bytes = e.encode text →
      d.run (textAt path) = (.ok (.ok text), d)) ∧
    (¬bytes.IsValidUTF8 → (∀ e : Encoding, e ≠ .utf8 → ¬e.mark <+: bytes.toList) →
      ∃ text : String, d.run (textAt path) = (.ok (.ok text), d) ∧
        text.toList = bytes.toList.map westernChar ∧
        List.Forall₂ (fun byte c => byte.toNat < 0x80 → c.toNat = byte.toNat) bytes.toList
          text.toList) := by
  constructor
  · rintro e text hmark rfl
    rw [run_textAt h, decode?_encode e hmark]
  · intro invalid noMark
    refine ⟨String.ofList (bytes.toList.map westernChar), ?_, String.toList_ofList, ?_⟩
    · rw [run_textAt h, decode?_bytewise invalid noMark]
    · rw [String.toList_ofList, List.forall₂_map_right_iff]
      exact List.forall₂_same.2 fun byte _ => toNat_westernChar byte

/-- A script in UTF-16 with characters of two and of four bytes, and one that is no UTF-8. -/
def scripts : Disk where
  root := .folder
    [("wide.sql", .file (Encoding.utf16LowFirst.encode "-- é😀\n")),
      ("west.sql", .file [0x2D, 0x2D, 0x20, 0xE9, 0x0A].toByteArray)]

theorem textAt_exact_scripts :
    scripts.run (textAt "wide.sql") = (.ok (.ok "-- é😀\n"), scripts) ∧
      ∃ text : String, scripts.run (textAt "west.sql") = (.ok (.ok text), scripts) ∧
        text = "-- é\n" := by
  have wide : scripts.read "wide.sql".toList = .ok (Encoding.utf16LowFirst.encode "-- é😀\n") := by
    decide +kernel
  have west : scripts.read "west.sql".toList = .ok [0x2D, 0x2D, 0x20, 0xE9, 0x0A].toByteArray := by
    decide +kernel
  obtain ⟨text, hread, htext, -⟩ := (textAt_exact west).2 (by decide +kernel) fun e => by
    cases e <;> decide +kernel
  refine ⟨(textAt_exact wide).1 .utf16LowFirst _ (by decide +kernel) rfl, text, hread, ?_⟩
  rw [← String.toList_inj, htext]
  decide +kernel

end Sources

end ReleaseSchema
