/-
Names in data definitions: readers of qualified and quoted names, and the
naming conventions of tables, routines and columns.
-/
import ReleaseSchema.Text.Case
import ReleaseSchema.Text.Cursor
import ReleaseSchema.Text.Search

namespace ReleaseSchema.Ddl

open Text

/-! ## Readers -/

/-- A name, with or without quotes on either side. -/
def name? (c : Cursor) : Option (List Char × Cursor) := do
  let (word, c) ← (c.skipChar '"').word?
  return (word, c.skipChar '"')

/-- A schema and the point after it. -/
def qualifier? (c : Cursor) : Option Cursor := do
  let (_, c) ← name? c
  let c ← c.skipBlanks.char? '.'
  return c.skipBlanks

/-- A name that a schema may qualify; the schema is passed over. -/
def qualifiedName? (c : Cursor) : Option (List Char × Cursor) :=
  name? ((qualifier? c).getD c)

/-- A word and the blanks after it. -/
def wordAndBlanks? (word : String) (c : Cursor) : Option Cursor :=
  (c.spelled? word).bind (·.blanks?)

/-- Passes the first of several words that is followed by blanks, if one is. -/
def skipOneOf (words : List String) (c : Cursor) : Cursor :=
  (words.findSome? fun word => wordAndBlanks? word c).getD c

/-! ## Conventions -/

/-- A prefix of the database, of two to four letters, before the letter that marks the kind and an
underscore. -/
def prefixed? (mark : Char) (name : List Char) : Option (List Char × List Char) :=
  let head := name.takeWhile (· != '_')
  let dbPrefix := head.dropLast
  match name.dropWhile (· != '_') with
  | [] => none
  | _ :: rest =>
    if head.getLast?.map foldCase = some mark ∧ 2 ≤ dbPrefix.length ∧ dbPrefix.length ≤ 4 ∧
        dbPrefix.all isLetterFolded
    then some (dbPrefix, rest)
    else none

/-- The parts of a table name such as `abct_user_usr`. -/
structure TableName where
  dbPrefix : String
  camelName : String
  suffix : String
  deriving DecidableEq, Repr

/-- A table name is a prefix marked with `t`, a body of word characters, and a suffix of three
letters or digits, with underscores between them. -/
def TableName.ofText? (name : List Char) : Option TableName := do
  let (dbPrefix, rest) ← prefixed? 't' name
  let body := rest.take (rest.length - 4)
  let code := rest.drop (rest.length - 4)
  if body.isEmpty || !body.all isWord || code.head? != some '_' || !code.tail.all isCodeFolded then
    none
  else
    return ⟨String.ofList dbPrefix, String.ofList (camelCase body), String.ofList code.tail⟩

/-- The prefix and the camel case name of a routine such as `abcf_get_user`. -/
def routineName? (name : List Char) : Option (String × String) := do
  let (dbPrefix, body) ← prefixed? 'f' name
  if body.isEmpty || !body.all isWord then none
  else return (String.ofList dbPrefix, String.ofList (camelCase body))

/-- What follows a table's suffix and an underscore, if anything does. -/
def afterSuffix? (suffix name : List Char) : Option (List Char) :=
  if startsLike name suffix then
    match name.drop suffix.length with
    | '_' :: c :: rest => some (c :: rest)
    | _ => none
  else none

/-- What follows the codes of the table referred to and of the own table in a foreign key column
such as `fk_abc_xyz_owner_id`, where `xyz` is the own suffix. -/
def foreignKeyRest? (suffix name : List Char) : Option (List Char) :=
  match name with
  | f :: k :: u :: a :: b :: c :: '_' :: rest =>
    if byteLength suffix = 3 ∧ sameLetters [f, k, u] "fk_".toList ∧
        [a, b, c].all isAsciiAlphanumeric
    then afterSuffix? suffix rest
    else none
  | _ => none

/-- The name of a primary key column such as `pk_usr_id`. -/
def isKeyName (name : List Char) : Bool :=
  let folded := name.map foldCase
  let code := (folded.drop 3).take (folded.length - 6)
  "pk_".toList.isPrefixOf folded && "_id".toList.isSuffixOf folded && !code.isEmpty &&
    code.all isCodeFolded

end ReleaseSchema.Ddl
