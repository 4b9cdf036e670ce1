/-
Reading column definitions. The first word of a fragment is the column's name.
Every property has a pattern of its own that is looked for in the whole
fragment, so the order of the clauses does not matter.
-/
import ReleaseSchema.Ddl.Name
import ReleaseSchema.Schema.Column
import ReleaseSchema.Sql.Comment

namespace ReleaseSchema.Ddl

open Text

/-! ## Clauses -/

/-- The words that begin a clause after the default. -/
def clauseHeads : List (List String) :=
  [["not", "null"], ["null"], ["unique"], ["references"], ["primary", "key"], ["check"],
    ["constraint"], ["collate"], ["generated"]]

/-- A blank and then one of the given phrases as whole words. -/
def clause? (heads : List (List String)) (c : Cursor) : Option Cursor :=
  match c.rest with
  | [] => none
  | x :: rest =>
    if isBlank x then
      heads.findSome? fun head => (Cursor.phrase? head ⟨x :: c.passed, rest⟩).bind (·.boundary?)
    else none

/-- The text before the first clause. -/
def beforeClause (heads : List (List String)) (text : List Char) : List Char :=
  match search? (clause? heads) text with
  | some (place, _) => trim place.passed.reverse
  | none => trim text

/-- The keyword `default` and what follows it, which must be on one line. -/
def default? (c : Cursor) : Option (List Char) := do
  let c ← c.boundary?
  let c ← wordAndBlanks? "default" c
  if c.rest.isEmpty || c.rest.contains '\n' then none else some c.rest

/-- A reference to a column of another table. -/
def references? (c : Cursor) : Option ForeignKey := do
  let c ← c.boundary?
  let c ← wordAndBlanks? "references" c
  let (table, c) ← qualifiedName? c
  let c ← c.skipBlanks.char? '('
  let (key, c) ← name? c.skipBlanks
  let _ ← c.skipBlanks.char? ')'
  return ⟨String.ofList table, String.ofList key⟩

/-! ## Names -/

/-- The columns that record who changed a row and when. -/
def auditColumns : List String := ["created_by", "created_at", "modified_by", "modified_at"]

/-- The camel case name of a column: the one that a tag gives, or what the conventions make of the
column name and its table's suffix. -/
def columnCamelName (name : List Char) (suffix : String) (tags : TagMap) : String :=
  match (tags.get? "camel-cased-name").bind (·.value.text?) with
  | some given => given
  | none =>
    match foreignKeyRest? suffix.toList name with
    | some rest => String.ofList (camelCase rest)
    | none =>
      if isKeyName name then "id"
      else if suffix.isEmpty then String.ofList (camelCase name)
      else String.ofList (camelCase ((afterSuffix? suffix.toList name).getD name))

/-! ## Columns -/

/-- The column that a fragment of a column list defines, if it holds more than comments. -/
def column? (fragment : List Char) (suffix : String) : Option Column :=
  let clean := Sql.withoutComments fragment
  let rawName := clean.takeWhile (!isBlank ·)
  let remainder := clean.dropWhile (!isBlank ·)
  if rawName.isEmpty then none
  else
    let name := unquoteName rawName
    let defaultText := (search? default? clean).map fun (_, text) => trim text
    let foreignKey := (search? references? clean).map (·.2)
    let isPrimaryKey := occurs (Cursor.wholePhrase? ["primary", "key"]) clean
    let tags := Tag.scanMap fragment
    let camelName := columnCamelName name suffix tags
    let listFilter := tags.get? "list-filter"
    some {
      name := String.ofList name
      camelName
      type := String.ofList (beforeClause (["default"] :: clauseHeads) remainder)
      notNull := occurs (Cursor.wholePhrase? ["not", "null"]) clean
      unique := occurs (clause? [["unique"]]) clean
      defaultText := defaultText.map String.ofList
      defaultValue := defaultText.map fun text => String.ofList (beforeClause clauseHeads text)
      isPrimaryKey
      isForeignKey := foreignKey.isSome
      foreignKey
      tags
      toUpdate := !(isOneOf name auditColumns || isPrimaryKey)
      isListFilter := listFilter.isSome
      listFilterName := listFilter.map fun tag => tag.value.text?.getD camelName
      retrieveInList := isPrimaryKey
      sort := tags.contains "sort"
      getWithParent := tags.contains "get-with-parent" }

end ReleaseSchema.Ddl
