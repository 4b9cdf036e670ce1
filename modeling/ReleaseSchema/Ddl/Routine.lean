/-
Reading the signatures of functions and procedures out of condensed SQL texts.
Bodies between dollar tags are taken out first, so nothing is read in them.
-/
import ReleaseSchema.Ddl.Column
import ReleaseSchema.Schema.Routine
import ReleaseSchema.Sql.Nesting

namespace ReleaseSchema.Ddl

open Text

/-! ## Head -/

/-- The head of a definition up to the parenthesis that opens the arguments: whether it replaces an
older routine, and its name. -/
def routineHead? (c : Cursor) : Option (Bool × List Char × Cursor) := do
  let c ← c.boundary?
  let c ← wordAndBlanks? "create" c
  let replacing := (c.phrase? ["or", "replace"]).bind (·.blanks?)
  let c := replacing.getD c
  let c ← (wordAndBlanks? "function" c).orElse fun _ => wordAndBlanks? "procedure" c
  let (name, c) ← qualifiedName? c
  let c := c.skipBlanks
  let _ ← c.char? '('
  return (replacing.isSome, name, c)

/-! ## Arguments -/

/-- The mark of a default value: the keyword or an equals sign. -/
def defaultMark? (c : Cursor) : Option Cursor :=
  (c.wholePhrase? ["default"]).orElse fun _ => c.char? '='

/-- The default value after blanks and a mark, if it is on one line. -/
def defaultHere? (c : Cursor) : Option (List Char) := do
  let c ← defaultMark? c.skipBlanks
  let value := c.skipBlanks.rest
  if value.isEmpty || value.contains '\n' then none else some value

/-- The text before a default value and the value. The text before it is as short as can be and does
not run over a line end. -/
def splitDefaultFrom? (passed : List Char) :
    List Char → Option (List Char × List Char)
  | [] => (defaultHere? ⟨passed, []⟩).map (passed.reverse, ·)
  | c :: rest =>
    match defaultHere? ⟨passed, c :: rest⟩ with
    | some value => some (passed.reverse, value)
    | none => if c = '\n' then none else splitDefaultFrom? (c :: passed) rest

def splitDefault? (text : List Char) : Option (List Char × List Char) := splitDefaultFrom? [] text

/-- The argument that a fragment of an argument list declares, if it holds more than comments and a
default. A single word is a type. -/
def argument? (fragment : List Char) : Option Argument :=
  let clean := Sql.withoutComments fragment
  let (head, defaultValue) := match splitDefault? clean with
    | some (head, value) => (head, some (String.ofList (trim value)))
    | none => (clean, none)
  let (mode, words) := match words head with
    | first :: second :: rest =>
      match ArgumentMode.ofKeyword? first with
      | some mode => (mode, second :: rest)
      | none => (.in, first :: second :: rest)
    | words => (.in, words)
  match words with
  | [] => none
  | [type] => some { mode, name := "", type := String.ofList type, defaultValue }
  | name :: type =>
    some
      { mode
        name := String.ofList (unquoteName name)
        type := String.ofList ([' '].intercalate type)
        defaultValue }

/-! ## Bodies -/

def startsTag (c : Char) : Bool := isAsciiLetter c || c == '_'

/-- The name in a dollar tag whose first sign is read, and what follows the tag. -/
def dollarTag? (text : List Char) : Option (List Char × List Char) :=
  match text with
  | [] => none
  | c :: rest =>
    if c = '$' then some ([], rest)
    else if startsTag c then
      match rest.dropWhile isWord with
      | '$' :: after => some (c :: rest.takeWhile isWord, after)
      | _ => none
    else none

theorem length_dollarTag {text tag inside : List Char}
    (h : dollarTag? text = some (tag, inside)) : inside.length ≤ text.length := by
  unfold dollarTag? at h
  split at h
  · cases h
  next c rest =>
    split at h
    · cases h
      exact Nat.le_succ _
    · split at h
      · have hdrop := length_dropWhile_le isWord rest
        split at h <;> cases h
        next heq =>
          rw [heq] at hdrop
          exact Nat.le_succ_of_le (Nat.le_of_succ_le hdrop)
      · cases h

/-- Writes a space for every body between two equal dollar tags. A body that is not closed takes the
rest of the text with it. -/
def withoutBodies (text : List Char) : List Char :=
  match text with
  | [] => []
  | c :: rest =>
    if c = '$' then
      match _htag : dollarTag? rest with
      | some (tag, inside) =>
        match _hbody : splitAt? ('$' :: (tag ++ ['$'])) inside with
        | some (_, after) => ' ' :: withoutBodies after
        | none => []
      | none => c :: withoutBodies rest
    else c :: withoutBodies rest
termination_by text.length
decreasing_by
  · exact Nat.lt_succ_of_le (Nat.le_trans (length_splitAt _hbody) (length_dollarTag _htag))
  · exact Nat.lt_succ_self _
  · exact Nat.lt_succ_self _

/-! ## Attributes -/

/-- A volatility keyword as a whole word, as it is written. -/
def volatilityWord? (c : Cursor) : Option (List Char) := do
  let start ← c.boundary?
  let word ← Volatility.all.findSome? fun v => do
    let _ ← (← start.spelled? v.name).boundary?
    return start.rest.take v.name.length
  return word

/-- The first volatility keyword of the attributes. -/
def volatility? (attributes : List Char) : Option Volatility :=
  (search? volatilityWord? attributes).bind fun (_, word) => Volatility.ofKeyword? word

/-- The words that end a return type. -/
def attributeWords : List String :=
  ["as", "language", "immutable", "stable", "volatile", "leakproof", "strict", "security",
    "external", "cost", "rows", "parallel", "set", "called", "returns", "not", "window", "support",
    "begin"]

/-- A return type may end before this text: at its end, a dollar sign or a semicolon, with or
without blanks before it, or at blanks and an attribute word. -/
def endsType (text : List Char) : Bool :=
  match text.dropWhile isBlank with
  | [] => true
  | c :: rest =>
    c == '$' || c == ';' ||
      (text.head?.any isBlank &&
        attributeWords.any fun word =>
          ((Cursor.start (c :: rest)).wholePhrase? [word]).isSome)

/-- The shortest text, of one character or more, behind which a return type may end. It does not run
over a line end. -/
def declaredFrom? (read : List Char) : List Char → Option (List Char)
  | [] => if read.isEmpty then none else some read.reverse
  | c :: rest =>
    if !read.isEmpty && endsType (c :: rest) then some read.reverse
    else if c = '\n' then none
    else declaredFrom? (c :: read) rest

/-- The first of the texts after `n`, `n - 1`, … `1` blanks in which a return type is declared. -/
def declaredBehind? (text : List Char) : Nat → Option (List Char)
  | 0 => none
  | n + 1 =>
    match declaredFrom? [] (text.drop (n + 1)) with
    | some declared => some declared
    | none => declaredBehind? text n

/-- The word `returns` at the beginning of the attributes. -/
def returns? (attributes : List Char) : Option Cursor :=
  (Cursor.start attributes).skipBlanks.spelled? "returns"

/-- The list of columns that a routine returns, from its parenthesis on. -/
def returnsTable? (attributes : List Char) : Option (List Char) := do
  let c ← (← returns? attributes).blanks?
  let c := (← c.spelled? "table").skipBlanks
  let _ ← c.char? '('
  return c.rest

/-- What a routine returns, and the columns if that is a table. -/
def returned (attributes : List Char) : ReturnType × Option (List Column) :=
  match returnsTable? attributes with
  | some list =>
    let columns := match Sql.enclosed? list with
      | some (inner, _) => (Sql.splitList inner).filterMap (column? · "")
      | none => []
    (.table, some columns)
  | none =>
    match returns? attributes with
    | none => (.void, none)
    | some c =>
      match declaredBehind? c.rest (c.rest.takeWhile isBlank).length with
      | some declared => (ReturnType.ofText declared, none)
      | none => (.void, none)

/-! ## Routines -/

/-- A routine that is named by the convention, or by any other name. -/
def namedRoutine (history : History) (name : List Char) : Routine :=
  match routineName? name with
  | some (dbPrefix, camelName) => { history, dbPrefix, camelName }
  | none => { history, camelName := String.ofList (camelCase name) }

/-- The routine that a condensed text defines. Where no head is found, the routine goes by the name
of its history. -/
def routine (history : History) (sql : List Char) : Routine :=
  match search? routineHead? sql with
  | none => namedRoutine history history.name.toList
  | some (_, replaces, name, list) =>
    let routine := { namedRoutine history name with replaces }
    match Sql.enclosed? list.rest with
    | none => routine
    | some (arguments, rest) =>
      let attributes := withoutBodies rest
      let (returnType, returnColumns) := returned attributes
      { routine with
        arguments := (Sql.splitList arguments).filterMap argument?
        volatility := volatility? attributes
        returnType
        returnColumns }

end ReleaseSchema.Ddl
