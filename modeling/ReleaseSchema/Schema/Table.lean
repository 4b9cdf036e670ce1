/-
Tables: their columns in order of declaration, the parts of their names, and
the tags that steer what is generated from them.
-/
import ReleaseSchema.Schema.Column
import ReleaseSchema.Schema.History

namespace ReleaseSchema

structure Table where
  history : History
  columns : List Column := []
  suffix : String := ""
  dbPrefix : String := ""
  camelName : String := ""
  tags : TagMap := .empty
  /-- Name of the first column declared as primary key. -/
  primaryKey : Option String := none
  deriving DecidableEq, Inhabited

namespace Table

/-- The first column of the given name. -/
def column? (t : Table) (name : String) : Option Column := t.columns.find? (·.name == name)

def primaryKeyColumn? (t : Table) : Option Column := t.primaryKey.bind t.column?

/-! ## Tags -/

def isIgnored (t : Table) : Bool := t.tags.contains "ignore"

/-- No tag forbids the action. -/
def allows (t : Table) (action : String) : Bool := !t.tags.contains ("no-" ++ action)

/-- The roles named for the action itself, or else those named for the whole table. -/
def rolesFor (t : Table) (action : String) : List String :=
  match (t.tags.get? (action ++ "-roles")).orElse fun _ => t.tags.get? "roles" with
  | some tag => tag.listValues
  | none => []

def serviceName? (t : Table) : Option String :=
  (t.tags.get? "service-name").bind fun tag => tag.value.text?

/-! ## JSON form -/

def fieldNames : List String :=
  ["fields", "tableSuffix", "dbPrefix", "camelCasedName", "tags", "primaryKey"]

/-- The members that say something of the columns, which are named members of an object. -/
def toJson (t : Table) : Json :=
  .object <|
    t.history.toMembers ++
    [("fields", .object (t.columns.map fun c => (c.name, c.toJson))),
      ("tableSuffix", .string t.suffix), ("dbPrefix", .string t.dbPrefix),
      ("camelCasedName", .string t.camelName), ("tags", Tag.mapToJson t.tags)] ++
    Json.optionalMember "primaryKey" (t.primaryKey.map .string)

/-- The columns of an object, whose member names say nothing new. -/
def columnsOfJson? (json : Json) : Option (List Column) :=
  (json.asMembers? Column.ofJson?).map (·.map (·.2))

def ofJson? (json : Json) : Option Table := do
  let fields ← json.openFields? fieldNames History.fieldNames
  return {
    history := ← History.ofFields? fields
    columns := ← fields.required "fields" columnsOfJson?
    suffix := ← fields.required "tableSuffix" Json.asString?
    dbPrefix := ← fields.required "dbPrefix" Json.asString?
    camelName := ← fields.required "camelCasedName" Json.asString?
    tags := ← fields.withDefault "tags" .empty Tag.mapOfJson?
    primaryKey := ← fields.optional "primaryKey" Json.asString? }

end Table

end ReleaseSchema
