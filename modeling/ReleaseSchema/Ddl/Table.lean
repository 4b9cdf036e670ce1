/-
Reading table definitions out of condensed SQL texts. The tags before the
definition are the table's, and every item of the column list that is no table
constraint is a column.
-/
import ReleaseSchema.Ddl.Column
import ReleaseSchema.Schema.Table
import ReleaseSchema.Sql.Nesting

namespace ReleaseSchema.Ddl

open Text

/-- The words `create table` with the attributes that may stand between them. -/
def createTable? (c : Cursor) : Option Cursor := do
  let c ← c.boundary?
  let c ← wordAndBlanks? "create" c
  let c := skipOneOf ["global", "local"] c
  let c := skipOneOf ["unlogged", "temporary", "temp"] c
  let c ← c.spelled? "table"
  c.boundary?

/-- The name of the table, up to the parenthesis that opens its column list. -/
def tableHead? (c : Cursor) : Option (List Char × Cursor) := do
  let c ← c.boundary?
  let c ← (wordAndBlanks? "table" c).orElse fun _ => wordAndBlanks? "exists" c
  let (name, c) ← qualifiedName? c
  let c := c.skipBlanks
  let _ ← c.char? '('
  return (name, c)

/-- The words that begin a table constraint, or another item that is no column. -/
def constraintHeads : List String :=
  ["check", "unique", "primary", "exclude", "foreign", "constraint", "like"]

/-- The first word of the item that begins no comment is one of those of table constraints. -/
def isConstraint (item : List Char) : Bool :=
  match (words item).find? fun word => !"/*".toList.isPrefixOf word with
  | some word => isOneOf (word.takeWhile (· != '(')) constraintHeads
  | none => false

/-- The columns of a column list. -/
def columnsOf (list : List Char) (suffix : String) : List Column :=
  ((Sql.splitList list).filter (!isConstraint ·)).filterMap (column? · suffix)

/-- A table that is named by the convention, or by any other name. -/
def namedTable (history : History) (tags : TagMap) (name : List Char) : Table :=
  match TableName.ofText? name with
  | some parts =>
    { history, tags, dbPrefix := parts.dbPrefix, camelName := parts.camelName,
      suffix := parts.suffix }
  | none => { history, tags, camelName := String.ofList (camelCase name) }

/-- The table that a condensed text defines. Where no column list is found, the table has no
columns; where no name is found either, it goes by the name of its history. -/
def table (history : History) (sql : List Char) : Table :=
  let create := search? createTable? sql
  let tags := match create with
    | some (place, _) => Tag.scanMap place.passed.reverse
    | none => .empty
  let definition := match create with
    | some (place, _) => place.rest
    | none => sql
  match search? tableHead? definition with
  | none => namedTable history tags history.name.toList
  | some (_, name, list) =>
    let table := namedTable history tags name
    match Sql.enclosed? list.rest with
    | none => table
    | some (inner, _) =>
      let columns := columnsOf inner table.suffix
      { table with columns, primaryKey := (columns.find? (·.isPrimaryKey)).map (·.name) }

end ReleaseSchema.Ddl
