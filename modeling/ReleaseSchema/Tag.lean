/-
Tags: annotations in SQL comments such as `#sort`, `#list-filter=byName` or
`#roles=['admin','user']`. `Tag.ofText?` reads one tag, `Tag.scan` finds every
tag of a text, and of several tags of one name a `TagMap` keeps the last.
-/
import ReleaseSchema.Json.Record
import ReleaseSchema.SortedMap
import ReleaseSchema.Text.Search
import ReleaseSchema.Text.Trim

namespace ReleaseSchema

open Text

inductive TagValue where
  | flag (set : Bool)
  | text (s : String)
  deriving DecidableEq, Repr, Inhabited

structure Tag where
  name : String
  value : TagValue
  deriving DecidableEq, Repr, Inhabited

/-- Tags by name. -/
abbrev TagMap := SortedMap String Tag

namespace TagValue

def text? : TagValue → Option String
  | .text s => some s
  | .flag _ => none

def render : TagValue → String
  | .text s => s
  | .flag true => "true"
  | .flag false => "false"

def toJson : TagValue → Json
  | .text s => .string s
  | .flag b => .bool b

def ofJson? : Json → Option TagValue
  | .string s => some (.text s)
  | .bool b => some (.flag b)
  | _ => none

end TagValue

namespace Tag

/-! ## One tag -/

def isNameChar (c : Char) : Bool := isWord c || c == '-'

/-- A tag's name, which begins with an ASCII letter, and the text after it. -/
def name? (text : List Char) : Option (List Char × List Char) :=
  match text with
  | [] => none
  | c :: rest =>
    if isAsciiLetter c then some (c :: rest.takeWhile isNameChar, rest.dropWhile isNameChar)
    else none

/-- A value without its quotes, single or double. -/
def unquoteValue (value : List Char) : List Char :=
  ((between? '\'' '\'' value).orElse fun _ => between? '"' '"' value).getD value

/-- Reads a text that is one tag and nothing else but blanks around it. The value may not run over
a line end. -/
def ofText? (text : List Char) : Option Tag :=
  match trim text with
  | '#' :: rest =>
    match name? rest with
    | none => none
    | some (name, []) => some ⟨String.ofList name, .flag true⟩
    | some (name, '=' :: value) =>
      if value.isEmpty || value.contains '\n' then none
      else some ⟨String.ofList name, .text (String.ofList (unquoteValue value))⟩
    | some _ => none
  | _ => none

/-! ## Values that are lists -/

/-- A character of an unquoted list item. -/
def isItemChar (c : Char) : Bool := !isBlank c && c != ',' && c != '\'' && c != '"'

/-- The items between the brackets of a list: quoted in either way, or runs of other characters.
What is neither is passed over. -/
def items (text : List Char) : List (List Char) :=
  match text with
  | [] => []
  | c :: rest =>
    if (c = '\'' ∨ c = '"') ∧ rest.contains c then
      rest.takeWhile (· != c) :: items (rest.dropWhile (· != c)).tail
    else if isItemChar c then
      (c :: rest.takeWhile isItemChar) :: items (rest.dropWhile isItemChar)
    else items rest
termination_by text.length
decreasing_by
  · exact Nat.lt_succ_of_le (Nat.le_trans (List.tail_sublist _).length_le (length_dropWhile_le ..))
  · exact Nat.lt_succ_of_le (length_dropWhile_le ..)
  · exact Nat.lt_succ_self _

/-- The values of a tag: those of a bracketed list, the one of a plain text, none of a flag. -/
def listValues (tag : Tag) : List String :=
  match tag.value with
  | .flag _ => []
  | .text s =>
    let value := trim s.toList
    match between? '[' ']' value with
    | some inner => (items inner).map String.ofList
    | none => [String.ofList value]

/-! ## The tags of a text -/

/-- A character of an unquoted value: a comma, a blank or the end of the comment closes it. -/
def isBareChar (c : Char) : Bool := !isBlank c && c != ',' && c != '*' && c != '/'

/-- A value in delimiters, if the closing one is found. -/
def delimited? (close : Char) (text : List Char) : Option (List Char × List Char) :=
  match text with
  | [] => none
  | c :: rest =>
    match rest.dropWhile (· != close) with
    | [] => none
    | last :: after => some (c :: rest.takeWhile (· != close) ++ [last], after)

/-- A bracketed list or a quoted text. -/
def enclosed? (text : List Char) : Option (List Char × List Char) :=
  match text.head? with
  | some '[' => delimited? ']' text
  | some '\'' => delimited? '\'' text
  | some '"' => delimited? '"' text
  | _ => none

/-- The value after an equals sign: a bracketed list, a quoted text, or a bare run. -/
def value? (text : List Char) : Option (List Char × List Char) :=
  match enclosed? text with
  | some found => some found
  | none =>
    if (text.takeWhile isBareChar).isEmpty then none
    else some (text.takeWhile isBareChar, text.dropWhile isBareChar)

/-- The text of a tag that begins here, after its number sign, and what follows it. -/
def spelled? (text : List Char) : Option (List Char × List Char) :=
  match name? text with
  | none => none
  | some (name, '=' :: rest) =>
    match value? rest with
    | some (value, after) => some (name ++ '=' :: value, after)
    | none => some (name, '=' :: rest)
  | some (name, rest) => some (name, rest)

theorem length_name {text name rest : List Char} (h : name? text = some (name, rest)) :
    rest.length ≤ text.length := by
  unfold name? at h
  split at h
  · cases h
  · split at h <;> cases h
    exact Nat.le_succ_of_le (length_dropWhile_le ..)

theorem length_delimited {close : Char} {text value rest : List Char}
    (h : delimited? close text = some (value, rest)) : rest.length ≤ text.length := by
  unfold delimited? at h
  split at h
  · cases h
  next c rest =>
    have hdrop := length_dropWhile_le (· != close) rest
    split at h <;> cases h
    next heq =>
      rw [heq] at hdrop
      exact Nat.le_succ_of_le (Nat.le_of_succ_le hdrop)

theorem length_value {text value rest : List Char} (h : value? text = some (value, rest)) :
    rest.length ≤ text.length := by
  unfold value? at h
  split at h
  next found heq =>
    cases h
    unfold enclosed? at heq
    split at heq
    · exact length_delimited heq
    · exact length_delimited heq
    · exact length_delimited heq
    · cases heq
  next =>
    split at h <;> cases h
    exact length_dropWhile_le ..

theorem length_spelled {text spelling rest : List Char}
    (h : spelled? text = some (spelling, rest)) : rest.length ≤ text.length := by
  unfold spelled? at h
  split at h
  · cases h
  next name after hname =>
    have hlength := length_name hname
    split at h <;> cases h
    next hvalue => exact Nat.le_trans (Nat.le_succ_of_le (length_value hvalue)) hlength
    · exact hlength
  next hname =>
    cases h
    exact length_name hname

/-- The texts of the tags of a text, in order. -/
def spellings (text : List Char) : List (List Char) :=
  match text with
  | [] => []
  | c :: rest =>
    if c = '#' then
      match _h : spelled? rest with
      | some (spelling, after) => ('#' :: spelling) :: spellings after
      | none => spellings rest
    else spellings rest
termination_by text.length
decreasing_by
  · exact Nat.lt_succ_of_le (length_spelled _h)
  · exact Nat.lt_succ_self _
  · exact Nat.lt_succ_self _

/-- The tags of a text, in order. -/
def scan (text : List Char) : List Tag := (spellings text).filterMap ofText?

/-- The tags of a text by name. -/
def scanMap (text : List Char) : TagMap :=
  SortedMap.ofList ((scan text).map fun tag => (tag.name, tag))

/-! ## JSON form -/

def toJson (tag : Tag) : Json :=
  .object [("name", .string tag.name), ("value", tag.value.toJson)]

def ofJson? (json : Json) : Option Tag := do
  let fields ← json.fields? ["name", "value"]
  return {
    name := ← fields.required "name" Json.asString?
    value := ← fields.required "value" TagValue.ofJson? }

def mapToJson (tags : TagMap) : Json :=
  .object (tags.entries.map fun (name, tag) => (name, tag.toJson))

def mapOfJson? (json : Json) : Option TagMap :=
  (json.asMembers? ofJson?).map SortedMap.ofList

end Tag

end ReleaseSchema
