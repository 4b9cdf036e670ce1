/-
Names of release versions: `current`, or four numbers with dots between them.
Versions are put in order by a key that strings together the digits of their
components, each raised by a thousand; `current` comes last.
-/
import ReleaseSchema.Text.Character

namespace ReleaseSchema.Version

open Text

/-- The version that is not released yet. -/
def current : String := "current"

/-- The pieces between the dots of a name; there is one more than dots. -/
def components (name : List Char) : List (List Char) := name.splitOn '.'

/-- `current`, or four components of decimal digits. -/
def isAcceptable (name : String) : Bool :=
  name == current ||
    ((components name.toList).length == 4 &&
      (components name.toList).all fun component => !component.isEmpty && component.all isDecimal)

/-- Keys and components stay below this bound. -/
def keyBound : Nat := Nat.pow 2 128

/-- The number that ASCII digits spell. -/
def ofDigits (digits : List Char) : Nat :=
  digits.foldl (fun n c => 10 * n + (c.toNat - '0'.toNat)) 0

/-- A number below the bound, with an optional plus sign. -/
def number? (text : List Char) : Option Nat :=
  let digits := match text with
    | '+' :: rest => rest
    | _ => text
  if digits.isEmpty || !digits.all isAsciiDigit || keyBound ≤ ofDigits digits then none
  else some (ofDigits digits)

/-- Raises a component by a thousand, so that components up to 8999 have four digits. -/
def raised? (component : List Char) : Option Nat := do
  let n ← number? component
  if n + 1000 < keyBound then some (n + 1000) else none

/-- The sort key of a version name; a name that has none gets the lowest one. -/
def sortKey (name : String) : Nat :=
  if name = current then keyBound - 1
  else
    match (components name.toList).mapM raised? with
    | some numbers => (number? (numbers.flatMap (Nat.toDigits 10))).getD 0
    | none => 0

end ReleaseSchema.Version
