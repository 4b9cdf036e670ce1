/-
Block comments in condensed SQL texts.
-/
import ReleaseSchema.Text.Search
import ReleaseSchema.Text.Trim

namespace ReleaseSchema.Sql

open Text

/-- Writes a space for every block comment. A comment ends at the first closing mark, and an opening
mark without one begins no comment. -/
def blankComments (text : List Char) : List Char :=
  match text with
  | [] => []
  | '/' :: '*' :: rest =>
    match _h : splitAt? ['*', '/'] rest with
    | some (_, after) => ' ' :: blankComments after
    | none => '/' :: blankComments ('*' :: rest)
  | c :: rest => c :: blankComments rest
termination_by text.length
decreasing_by
  · exact Nat.lt_succ_of_le (Nat.le_succ_of_le (length_splitAt _h))
  · exact Nat.lt_succ_self _
  · exact Nat.lt_succ_self _

/-- A fragment without its block comments and the blanks around it. -/
def withoutComments (fragment : List Char) : List Char := trim (blankComments fragment)

end ReleaseSchema.Sql
