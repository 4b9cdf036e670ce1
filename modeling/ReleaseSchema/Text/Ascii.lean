/-
Comparison of texts with the case of ASCII letters ignored. Other characters
are compared as they are.
-/
import ReleaseSchema.Text.Character

namespace ReleaseSchema.Text

def lowerAscii (text : List Char) : List Char := text.map Char.toLower

/-- Equal up to the case of ASCII letters. -/
def sameLetters (a b : List Char) : Bool := lowerAscii a == lowerAscii b

/-- `text` begins with `start` up to the case of ASCII letters. -/
def startsLike (text start : List Char) : Bool := (lowerAscii start).isPrefixOf (lowerAscii text)

/-- `word` is one of the candidates up to the case of ASCII letters. -/
def isOneOf (word : List Char) (candidates : List String) : Bool :=
  candidates.any fun candidate => sameLetters word candidate.toList

theorem sameLetters_iff {a b : List Char} :
    sameLetters a b = true ↔ lowerAscii a = lowerAscii b := by
  simp [sameLetters]

end ReleaseSchema.Text
