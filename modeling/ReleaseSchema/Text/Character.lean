/-
Classes of single characters: blanks, word characters, letters and digits in
the Unicode sense, and case folding as far as an ASCII pattern can see it.
Blanks are no word characters (`isWord_of_isBlank`), so a run of one kind ends
where the other begins.

Two versions of Unicode are in use. The classes of patterns, `isWord` and
`isDecimal`, are those of Unicode 16; the classes that cut SQL into words,
`isAlphabetic` and `isAlphanumeric`, are those of Unicode 17. The versions give
other answers for the characters of `addedIn17` only.
-/
import ReleaseSchema.Unicode.Category

namespace ReleaseSchema.Text

open Unicode

/-- The code points of the property White_Space. -/
def blankCodes : List Nat :=
  [0x09, 0x0A, 0x0B, 0x0C, 0x0D, 0x20, 0x85, 0xA0, 0x1680, 0x2000, 0x2001, 0x2002, 0x2003, 0x2004,
    0x2005, 0x2006, 0x2007, 0x2008, 0x2009, 0x200A, 0x2028, 0x2029, 0x202F, 0x205F, 0x3000]

def isBlank (c : Char) : Bool := blankCodes.contains c.toNat

def isAsciiLetter (c : Char) : Bool := c.isAlpha

def isAsciiDigit (c : Char) : Bool := c.isDigit

def isAsciiAlphanumeric (c : Char) : Bool := isAsciiLetter c || isAsciiDigit c

def isHexDigit (c : Char) : Bool :=
  isAsciiDigit c || ('a' ≤ c && c ≤ 'f') || ('A' ≤ c && c ≤ 'F')

/-- Value of a digit in base 16. -/
def hexValue? (c : Char) : Option Nat :=
  if c.isDigit then some (c.toNat - '0'.toNat)
  else if 'a' ≤ c ∧ c ≤ 'f' then some (c.toNat - 'a'.toNat + 10)
  else if 'A' ≤ c ∧ c ≤ 'F' then some (c.toNat - 'A'.toNat + 10)
  else none

/-- A character with the property Alphabetic. -/
def isAlphabetic (c : Char) : Bool :=
  if c.toNat < 0x80 then isAsciiLetter c else inRanges alphabetic c.toNat

/-- A letter or a numeric character of any script. -/
def isAlphanumeric (c : Char) : Bool :=
  isAlphabetic c || inRanges decimalNumber c.toNat || inRanges otherNumber c.toNat

/-- A character that no pattern knows: its code point was empty in Unicode 16. -/
def isRecent (c : Char) : Bool := inRanges addedIn17 c.toNat

/-- A decimal digit of any script. -/
def isDecimal (c : Char) : Bool :=
  if c.toNat < 0x80 then isAsciiDigit c else inRanges decimalNumber c.toNat && !isRecent c

/-- A character that may stand in a word: letters, marks, decimal digits, connecting
punctuation such as the underscore, and the two joiners. -/
def isWord (c : Char) : Bool :=
  if c.toNat < 0x80 then isAsciiAlphanumeric c || c == '_'
  else
    (inRanges alphabetic c.toNat || inRanges mark c.toNat || inRanges decimalNumber c.toNat ||
      inRanges connectorPunctuation c.toNat || c.toNat == 0x200C || c.toNat == 0x200D) &&
      !isRecent c

/-- The ASCII character that `c` stands for when case is ignored. Besides the capitals, the Kelvin
sign folds to `k` and the long s to `s`; every other character is left alone. -/
def foldCase (c : Char) : Char :=
  if c.toNat = 0x212A then 'k' else if c.toNat = 0x17F then 's' else c.toLower

/-- A letter from `a` to `z` when case is ignored. -/
def isLetterFolded (c : Char) : Bool := 'a' ≤ foldCase c && foldCase c ≤ 'z'

/-- A letter from `a` to `z` when case is ignored, or an ASCII digit. -/
def isCodeFolded (c : Char) : Bool := isLetterFolded c || isAsciiDigit c

theorem isBlank_iff {c : Char} : isBlank c = true ↔ c.toNat ∈ blankCodes := by
  simp [isBlank]

/-- What holds of the characters of all blank codes holds of every blank. -/
theorem of_isBlank {P : Char → Prop} {c : Char} (h : isBlank c = true)
    (all : ∀ n ∈ blankCodes, P (Char.ofNat n)) : P c := by
  have := all c.toNat (isBlank_iff.1 h)
  rwa [Char.ofNat_toNat] at this

/-- The ASCII digits are decimal digits. -/
theorem isDecimal_of_isAsciiDigit {c : Char} (h : isAsciiDigit c = true) : isDecimal c = true := by
  have ascii : c.toNat < 0x80 := by
    simp only [isAsciiDigit, Char.isDigit, Bool.and_eq_true, decide_eq_true_eq] at h
    have last : c.toNat ≤ '9'.toNat := h.2
    exact Nat.lt_of_le_of_lt last (by decide)
  rw [isDecimal, if_pos ascii, h]

/-- No blank may stand in a word. -/
theorem isWord_of_isBlank {c : Char} (h : isBlank c = true) : isWord c = false :=
  of_isBlank h (P := fun c => isWord c = false) (by decide +kernel)

end ReleaseSchema.Text
