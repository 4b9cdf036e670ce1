/-
Reading JSON texts. The grammar is strict: no comments, no trailing commas, and
nothing but blanks after the value. What a text may contain but nobody may use
is kept as `Json.unreadable`, so that it does no harm where it is skipped.
-/
import ReleaseSchema.Json.Basic
import ReleaseSchema.Text.Character
import ReleaseSchema.Text.Surrogate

namespace ReleaseSchema.Json

/-! ## Blanks, names and numbers -/

def isBlank (c : Char) : Bool := c == ' ' || c == '\n' || c == '\t' || c == '\r'

def skipBlanks (text : List Char) : List Char := text.dropWhile isBlank

/-- The text after a given beginning. -/
def after? (start : String) (text : List Char) : Option (List Char) :=
  if start.toList.isPrefixOf text then some (text.drop start.length) else none

def digits (text : List Char) : List Char := text.takeWhile Char.isDigit

/-- One or more digits. -/
def digits? (text : List Char) : Option (List Char × List Char) :=
  if (digits text).isEmpty then none else some (digits text, text.drop (digits text).length)

/-- Digits with no needless zero in front. -/
def integer? (text : List Char) : Option (List Char × List Char) := do
  let (ds, rest) ← digits? text
  if ds.head? = some '0' ∧ ds.length ≠ 1 then none else some (ds, rest)

/-- The fraction of a number, or nothing where none is written. -/
def fraction? (text : List Char) : Option (List Char × List Char) :=
  match text with
  | '.' :: rest => (digits? rest).map fun (ds, rest) => ('.' :: ds, rest)
  | _ => some ([], text)

/-- The exponent of a number, or nothing where none is written. -/
def exponent? (text : List Char) : Option (List Char × List Char) :=
  match text with
  | [] => some ([], [])
  | e :: rest =>
    if e = 'e' ∨ e = 'E' then
      match rest with
      | '+' :: rest => (digits? rest).map fun (ds, rest) => (e :: '+' :: ds, rest)
      | '-' :: rest => (digits? rest).map fun (ds, rest) => (e :: '-' :: ds, rest)
      | _ => (digits? rest).map fun (ds, rest) => (e :: ds, rest)
    else some ([], text)

/-- A number as it is written, however great or precise it is: `1e999` is read too. -/
def number? (text : List Char) : Option (List Char × List Char) := do
  let (sign, rest) := match text with
    | '-' :: rest => (['-'], rest)
    | _ => ([], text)
  let (whole, rest) ← integer? rest
  let (part, rest) ← fraction? rest
  let (power, rest) ← exponent? rest
  return (sign ++ whole ++ part ++ power, rest)

/-! ## Strings -/

/-- The number that four hexadecimal digits spell. -/
def hexCode? (a b c d : Char) : Option Nat :=
  [a, b, c, d].foldlM (fun n digit => (Text.hexValue? digit).map (16 * n + ·)) 0

/-- The character of a one-letter escape. -/
def escape? : Char → Option Char
  | '"' => some '"'
  | '\\' => some '\\'
  | '/' => some '/'
  | 'b' => some '\x08'
  | 'f' => some '\x0c'
  | 'n' => some '\n'
  | 'r' => some '\r'
  | 't' => some '\t'
  | _ => none

/-- The codes of a string up to its closing quote, and the text after it. A character gives its code
point, a `u` escape its number; `codes` holds those already read, backwards. -/
def codesFrom? (codes : List Nat) : List Char → Option (List Nat × List Char)
  | [] => none
  | '"' :: rest => some (codes.reverse, rest)
  | '\\' :: 'u' :: a :: b :: c :: d :: rest =>
    match hexCode? a b c d with
    | some code => codesFrom? (code :: codes) rest
    | none => none
  | '\\' :: e :: rest =>
    match escape? e with
    | some c => codesFrom? (c.toNat :: codes) rest
    | none => none
  | c :: rest => if c < ' ' then none else codesFrom? (c.toNat :: codes) rest

/-- The inside of a string whose opening quote is read: its text, if it has one, and what follows.
-/
def string? (text : List Char) : Option (Option String × List Char) :=
  (codesFrom? [] text).map fun (codes, rest) => ((Text.charsOfCodes? codes).map String.ofList, rest)

/-! ## Values -/

/-- Containers may be nested this deep. -/
def maxDepth : Nat := 127

/-- The object with the given members, if all of its names may be used. -/
def ofMembers (members : List (Option String × Json)) : Json :=
  match members.mapM fun (name, value) => name.map (·, value) with
  | some members => .object members
  | none => .unreadable

mutual

/-- One value. `depth` counts the containers that may still be opened around what is kept. Each call
reads a character or passes the text on to a call that does, so twice the length of the text is
`fuel` enough. -/
def valueFrom? (fuel depth : Nat) (text : List Char) : Option (Json × List Char) :=
  match fuel with
  | 0 => none
  | fuel + 1 =>
    match skipBlanks text with
    | [] => none
    | '"' :: rest =>
      (string? rest).map fun (s, rest) => ((s.map Json.string).getD .unreadable, rest)
    | '[' :: rest =>
      match skipBlanks rest with
      | ']' :: rest => some (if depth = 0 then .unreadable else .array [], rest)
      | _ =>
        (itemsFrom? fuel (depth - 1) rest).map fun (items, rest) =>
          (if depth = 0 then .unreadable else .array items, rest)
    | '\x7b' :: rest =>
      match skipBlanks rest with
      | '\x7d' :: rest => some (if depth = 0 then .unreadable else .object [], rest)
      | _ =>
        (membersFrom? fuel (depth - 1) rest).map fun (members, rest) =>
          (if depth = 0 then .unreadable else ofMembers members, rest)
    | c :: rest =>
      if c = 'n' then (after? "ull" rest).map (.null, ·)
      else if c = 't' then (after? "rue" rest).map (.bool true, ·)
      else if c = 'f' then (after? "alse" rest).map (.bool false, ·)
      else (number? (c :: rest)).map fun (literal, rest) => (.number (String.ofList literal), rest)

/-- The items of an array up to its closing bracket; there is at least one. -/
def itemsFrom? (fuel depth : Nat) (text : List Char) : Option (List Json × List Char) :=
  match fuel with
  | 0 => none
  | fuel + 1 =>
    match valueFrom? fuel depth text with
    | none => none
    | some (item, rest) =>
      match skipBlanks rest with
      | ',' :: rest => (itemsFrom? fuel depth rest).map fun (items, rest) => (item :: items, rest)
      | ']' :: rest => some ([item], rest)
      | _ => none

/-- The members of an object up to its closing brace; there is at least one. -/
def membersFrom? (fuel depth : Nat) (text : List Char) :
    Option (List (Option String × Json) × List Char) :=
  match fuel with
  | 0 => none
  | fuel + 1 =>
    match skipBlanks text with
    | '"' :: rest =>
      match string? rest with
      | none => none
      | some (name, rest) =>
        match skipBlanks rest with
        | ':' :: rest =>
          match valueFrom? fuel depth rest with
          | none => none
          | some (value, rest) =>
            match skipBlanks rest with
            | ',' :: rest =>
              (membersFrom? fuel depth rest).map fun (members, rest) =>
                ((name, value) :: members, rest)
            | '\x7d' :: rest => some ([(name, value)], rest)
            | _ => none
        | _ => none
    | _ => none

end

/-- The tree of a JSON text. -/
def parse? (text : String) : Option Json :=
  match valueFrom? (2 * text.length + 2) maxDepth text.toList with
  | some (json, rest) => if (skipBlanks rest).isEmpty then some json else none
  | none => none

end ReleaseSchema.Json
