/-
SQL texts on one line. `condense` writes the tokens of a text with single
spaces between them, drops comments, and keeps those that may hold a tag as
block comments. A text that has no tokens is condensed by its comment marks and
blanks alone.
-/
import ReleaseSchema.Sql.Tokenize
import ReleaseSchema.Text.Encoding
import ReleaseSchema.Text.Trim

namespace ReleaseSchema.Sql

open Text

/-- The form in which a comment is kept, if a number sign in it promises a tag. -/
def keptComment? (body : List Char) : Option (List Char) :=
  if body.contains '#' then
    some ("/* ".toList ++ collapseBlanks (trim body) ++ " */".toList)
  else none

/-- Text of a run of tokens. `started` tells that something is written before it, `apart` that the
next token stands apart from what is. -/
def condenseFrom (started apart : Bool) : List Token → List Char
  | [] => []
  | .blank :: rest => condenseFrom started true rest
  | .lineComment body :: rest | .blockComment body :: rest =>
    match keptComment? body with
    | some kept => (if started then [' '] else []) ++ kept ++ condenseFrom true true rest
    | none => condenseFrom started true rest
  | token :: rest =>
    (if started && apart then [' '] else []) ++ token.render ++ condenseFrom true false rest

def condenseTokens (tokens : List Token) : List Char := condenseFrom false false tokens

/-! ## Texts without tokens -/

/-- The comment that begins a text, and what follows it. A block comment ends at the first closing
mark; without one it is no comment. A line comment ends before the line end. -/
def roughComment? : List Char → Option (List Char × List Char)
  | '/' :: '*' :: rest => splitAt? ['*', '/'] rest
  | '-' :: '-' :: rest => some (rest.takeWhile (· != '\n'), rest.dropWhile (· != '\n'))
  | _ => none

/-- What takes the place of a comment. -/
def roughlyKept (body : List Char) : List Char :=
  match keptComment? body with
  | some kept => ' ' :: (kept ++ [' '])
  | none => [' ']

theorem length_roughComment {text body after : List Char}
    (h : roughComment? text = some (body, after)) : after.length < text.length := by
  unfold roughComment? at h
  split at h
  next rest => exact Nat.lt_succ_of_le (Nat.le_succ_of_le (length_splitAt h))
  next rest =>
    cases h
    exact Nat.lt_succ_of_le (Nat.le_succ_of_le (length_dropWhile_le _ rest))
  · cases h

/-- Replaces every comment. -/
def replaceComments (text : List Char) : List Char :=
  match text with
  | [] => []
  | c :: rest =>
    match _h : roughComment? (c :: rest) with
    | some (body, after) => roughlyKept body ++ replaceComments after
    | none => c :: replaceComments rest
termination_by text.length
decreasing_by
  · exact length_roughComment _h
  · exact Nat.lt_succ_self _

def condenseRoughly (text : List Char) : List Char :=
  trim (collapseBlanks (replaceComments text))

/-- A text on one line, without a byte order mark in front. -/
def condense (text : List Char) : List Char :=
  let text := withoutMark text
  match tokenize? text with
  | some tokens => condenseTokens tokens
  | none => condenseRoughly text

end ReleaseSchema.Sql
