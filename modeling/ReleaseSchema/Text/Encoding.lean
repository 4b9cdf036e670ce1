/-
Texts from bytes. Bytes that are no UTF-8 are read by the byte order mark in
front of them, and without one as windows-1252, in which every byte is a
character. The mark is no part of the text (`withoutMark`).
-/
import ReleaseSchema.Text.Surrogate

namespace ReleaseSchema.Text

/-- A text without the byte order mark in front of it. -/
def withoutMark (text : List Char) : List Char :=
  match text with
  | '\uFEFF' :: rest => rest
  | _ => text

/-- The characters of the bytes from 0x80 to 0x9F in windows-1252. Five bytes that have none stand
for the control characters of their own number. -/
def westernCodes : List Nat :=
  [0x20AC, 0x81, 0x201A, 0x192, 0x201E, 0x2026, 0x2020, 0x2021, 0x2C6, 0x2030, 0x160, 0x2039, 0x152,
    0x8D, 0x17D, 0x8F, 0x90, 0x2018, 0x2019, 0x201C, 0x201D, 0x2022, 0x2013, 0x2014, 0x2DC, 0x2122,
    0x161, 0x203A, 0x153, 0x9D, 0x17E, 0x178]

/-- The character of a byte in windows-1252. -/
def westernChar (byte : UInt8) : Char :=
  if 0x80 ≤ byte.toNat ∧ byte.toNat < 0xA0 then
    Char.ofNat (westernCodes.getD (byte.toNat - 0x80) 0)
  else Char.ofNat byte.toNat

/-- The 16-bit codes of pairs of bytes, if no byte is left over. -/
def units? (code : UInt8 → UInt8 → Nat) : List UInt8 → Option (List Nat)
  | [] => some []
  | [_] => none
  | a :: b :: rest => (units? code rest).map (code a b :: ·)

/-- The characters of bytes that are no UTF-8. -/
def otherChars? : List UInt8 → Option (List Char)
  | 0xEF :: 0xBB :: 0xBF :: _ => none
  | 0xFF :: 0xFE :: rest =>
    (units? (fun low high => high.toNat * 256 + low.toNat) rest).bind charsOfCodes?
  | 0xFE :: 0xFF :: rest =>
    (units? (fun high low => high.toNat * 256 + low.toNat) rest).bind charsOfCodes?
  | bytes => some (bytes.map westernChar)

/-- The text of a file, unless a byte order mark promises an encoding that its bytes do not keep to.
-/
def decode? (bytes : ByteArray) : Option String :=
  match String.fromUTF8? bytes with
  | some text => some (String.ofList (withoutMark text.toList))
  | none => (otherChars? bytes.toList).map fun text => String.ofList (withoutMark text)

end ReleaseSchema.Text
