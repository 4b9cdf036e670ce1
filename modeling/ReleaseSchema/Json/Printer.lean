/-
Writing JSON texts, on one line or indented by two spaces. Only quotation
marks, backslashes and control characters are escaped.
-/
import ReleaseSchema.Json.Basic

namespace ReleaseSchema.Json

def hexDigit (n : Nat) : Char := if n < 10 then Char.ofNat (48 + n) else Char.ofNat (87 + n)

/-- A character as it stands inside a string. -/
def escaped (c : Char) : List Char :=
  if c = '"' then ['\\', '"']
  else if c = '\\' then ['\\', '\\']
  else if c = '\x08' then ['\\', 'b']
  else if c = '\x0c' then ['\\', 'f']
  else if c = '\n' then ['\\', 'n']
  else if c = '\r' then ['\\', 'r']
  else if c = '\t' then ['\\', 't']
  else if c < ' ' then ['\\', 'u', '0', '0', hexDigit (c.toNat / 16), hexDigit (c.toNat % 16)]
  else [c]

def quoted (s : String) : List Char := '"' :: (s.toList.flatMap escaped ++ ['"'])

mutual

/-- A value on one line, with no blanks outside its strings. -/
def compactChars : Json → List Char
  | .null => "null".toList
  | .bool b => (if b then "true" else "false").toList
  | .number literal => literal.toList
  | .string s => quoted s
  | .array items => '[' :: compactItems items
  | .object members => '\x7b' :: compactMembers members
  | .unreadable => "null".toList

/-- Items and the closing bracket. -/
def compactItems : List Json → List Char
  | [] => [']']
  | [item] => item.compactChars ++ [']']
  | item :: next :: rest => item.compactChars ++ ',' :: compactItems (next :: rest)

/-- Members and the closing brace. -/
def compactMembers : List (String × Json) → List Char
  | [] => ['\x7d']
  | [(name, value)] => quoted name ++ ':' :: (value.compactChars ++ ['\x7d'])
  | (name, value) :: next :: rest =>
    quoted name ++ ':' :: (value.compactChars ++ ',' :: compactMembers (next :: rest))

end

/-- A line end and the indentation of the next line. -/
def newLine (level : Nat) : List Char := '\n' :: List.replicate (2 * level) ' '

mutual

/-- A value over several lines; its first line is already indented by `level`. -/
def prettyChars (level : Nat) : Json → List Char
  | .array [] => ['[', ']']
  | .object [] => ['\x7b', '\x7d']
  | .array (item :: items) => '[' :: prettyItems level (item :: items)
  | .object (member :: members) => '\x7b' :: prettyMembers level (member :: members)
  | .null => "null".toList
  | .bool b => (if b then "true" else "false").toList
  | .number literal => literal.toList
  | .string s => quoted s
  | .unreadable => "null".toList

/-- Items, each on a line of its own, and the closing bracket. -/
def prettyItems (level : Nat) : List Json → List Char
  | [] => newLine level ++ [']']
  | [item] => newLine (level + 1) ++ item.prettyChars (level + 1) ++ newLine level ++ [']']
  | item :: next :: rest =>
    newLine (level + 1) ++ item.prettyChars (level + 1) ++ ',' :: prettyItems level (next :: rest)

/-- Members, each on a line of its own, and the closing brace. -/
def prettyMembers (level : Nat) : List (String × Json) → List Char
  | [] => newLine level ++ ['\x7d']
  | [(name, value)] =>
    newLine (level + 1) ++ quoted name ++ ':' :: ' ' :: value.prettyChars (level + 1) ++
      newLine level ++ ['\x7d']
  | (name, value) :: next :: rest =>
    newLine (level + 1) ++ quoted name ++ ':' :: ' ' :: value.prettyChars (level + 1) ++
      ',' :: prettyMembers level (next :: rest)

end

def compact (json : Json) : String := String.ofList json.compactChars

def pretty (json : Json) : String := String.ofList (json.prettyChars 0)

end ReleaseSchema.Json
