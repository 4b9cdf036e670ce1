/-
Nesting of SQL texts: how deep a place is in parentheses, and whether it is
inside quotes or a comment. Lists are cut at the commas that are neither
(`splitList`), and a parenthesis is closed by the first one that brings the
depth back (`enclosed?`).
-/
import ReleaseSchema.Text.Search
import ReleaseSchema.Text.Trim

namespace ReleaseSchema.Sql

open Text

/-- What a place is inside of, and the half of a comment mark just passed. -/
inductive Inside where
  | code
  /-- Behind a slash that may begin a comment. -/
  | slash
  | single
  | double
  | comment
  /-- Behind a star that may end the comment. -/
  | star
  deriving DecidableEq, Repr

structure Nesting where
  /-- How many parentheses are open. The count has no bound, where one of 32 bits and a sign would
  overflow: texts of fewer than 2^31 parentheses are meant. -/
  depth : Int := 0
  inside : Inside := .code
  deriving DecidableEq, Repr, Inhabited

namespace Nesting

/-- Passes a character outside quotes and comments. -/
def stepCode (s : Nesting) (c : Char) : Nesting :=
  if c = '/' then { s with inside := .slash }
  else if c = '\'' then { s with inside := .single }
  else if c = '"' then { s with inside := .double }
  else if c = '(' then ⟨s.depth + 1, .code⟩
  else if c = ')' then ⟨s.depth - 1, .code⟩
  else { s with inside := .code }

/-- Passes a character. -/
def step (s : Nesting) (c : Char) : Nesting :=
  match s.inside with
  | .code => s.stepCode c
  | .slash => if c = '*' then { s with inside := .comment } else s.stepCode c
  | .single => if c = '\'' then { s with inside := .code } else s
  | .double => if c = '"' then { s with inside := .code } else s
  | .comment => if c = '*' then { s with inside := .star } else s
  | .star =>
    if c = '/' then { s with inside := .code }
    else if c = '*' then s
    else { s with inside := .comment }

/-- The nesting behind a text. -/
def after (s : Nesting) (text : List Char) : Nesting := text.foldl step s

/-- Inside quotes or a comment. -/
def isQuoted (s : Nesting) : Bool :=
  match s.inside with
  | .code | .slash => false
  | _ => true

/-- A comma here ends an item. -/
def isTop (s : Nesting) : Bool := s.depth ≤ 0 && !s.isQuoted

@[simp] theorem after_nil (s : Nesting) : s.after [] = s := rfl

@[simp] theorem after_cons (s : Nesting) (c : Char) (text : List Char) :
    s.after (c :: text) = (s.step c).after text := rfl

theorem after_append (s : Nesting) (a b : List Char) : s.after (a ++ b) = (s.after a).after b :=
  List.foldl_append ..

end Nesting

/-! ## Lists -/

/-- An item without blanks around it, unless it is blank. -/
def itemOf (reversed : List Char) : List (List Char) :=
  let item := trim reversed.reverse
  if item.isEmpty then [] else [item]

/-- The items of a list. `s` is the nesting in the item under way and `item` its text, backwards.
What is left at the end is an item, however it is nested. -/
def splitListFrom (s : Nesting) (item : List Char) : List Char → List (List Char)
  | [] => itemOf item
  | c :: rest =>
    if c = ',' ∧ s.isTop then itemOf item ++ splitListFrom {} [] rest
    else splitListFrom (s.step c) (c :: item) rest

/-- The items between the commas of a list, trimmed, without blank ones. -/
def splitList (list : List Char) : List (List Char) := splitListFrom {} [] list

/-! ## Parentheses -/

/-- The text up to the parenthesis that closes the one passed, and what follows it. -/
def enclosedFrom? (s : Nesting) (inner : List Char) :
    List Char → Option (List Char × List Char)
  | [] => none
  | c :: rest =>
    let next := s.step c
    if c = ')' ∧ next.depth = 0 ∧ ¬next.isQuoted then some (inner.reverse, rest)
    else enclosedFrom? next (c :: inner) rest

/-- The inside of the parentheses that begin a text, and what follows them. -/
def enclosed? : List Char → Option (List Char × List Char)
  | '(' :: rest => enclosedFrom? ⟨1, .code⟩ [] rest
  | _ => none

/-- The inside of the parentheses that begin at a byte offset of a text, and the offset behind them.
-/
def enclosedAt? (offset : Nat) (text : List Char) : Option (List Char × Nat) := do
  let (_, after) ← splitAtByte? offset text
  let (inner, _) ← enclosed? after
  return (inner, offset + byteLength inner + 2)

end ReleaseSchema.Sql
