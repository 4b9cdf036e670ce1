/-
Columns of tables and of table-valued functions, and their JSON form.
-/
import ReleaseSchema.Tag

namespace ReleaseSchema

/-- The column of another table that a column refers to. -/
structure ForeignKey where
  table : String
  key : String
  deriving DecidableEq, Repr, Inhabited

structure Column where
  name : String
  camelName : String
  /-- The type as written. -/
  type : String
  notNull : Bool
  unique : Bool
  /-- All that follows the keyword `default`. -/
  defaultText : Option String
  /-- The default expression, without the clauses after it. -/
  defaultValue : Option String
  isPrimaryKey : Bool
  isForeignKey : Bool
  foreignKey : Option ForeignKey
  tags : TagMap
  toUpdate : Bool
  isListFilter : Bool
  listFilterName : Option String
  retrieveInList : Bool
  sort : Bool
  getWithParent : Bool
  deriving DecidableEq, Inhabited

namespace ForeignKey

def toJson (key : ForeignKey) : Json :=
  .object [("table", .string key.table), ("key", .string key.key)]

def ofJson? (json : Json) : Option ForeignKey := do
  let fields ← json.fields? ["table", "key"]
  return {
    table := ← fields.required "table" Json.asString?
    key := ← fields.required "key" Json.asString? }

end ForeignKey

namespace Column

def fieldNames : List String :=
  ["name", "camelCasedName", "type", "notNull", "unique", "default", "defaultValue",
    "isPrimaryKey", "isForeignKey", "foreignKey", "tags", "toUpdate", "isListFilter",
    "listFilterName", "retrieveInList", "sort", "getWithParent"]

def toJson (c : Column) : Json :=
  .object <|
    [("name", .string c.name), ("camelCasedName", .string c.camelName), ("type", .string c.type),
      ("notNull", .bool c.notNull), ("unique", .bool c.unique)] ++
    Json.optionalMember "default" (c.defaultText.map .string) ++
    Json.optionalMember "defaultValue" (c.defaultValue.map .string) ++
    [("isPrimaryKey", .bool c.isPrimaryKey), ("isForeignKey", .bool c.isForeignKey)] ++
    Json.optionalMember "foreignKey" (c.foreignKey.map ForeignKey.toJson) ++
    [("tags", Tag.mapToJson c.tags), ("toUpdate", .bool c.toUpdate),
      ("isListFilter", .bool c.isListFilter)] ++
    Json.optionalMember "listFilterName" (c.listFilterName.map .string) ++
    [("retrieveInList", .bool c.retrieveInList), ("sort", .bool c.sort),
      ("getWithParent", .bool c.getWithParent)]

def ofJson? (json : Json) : Option Column := do
  let fields ← json.fields? fieldNames
  return {
    name := ← fields.required "name" Json.asString?
    camelName := ← fields.required "camelCasedName" Json.asString?
    type := ← fields.required "type" Json.asString?
    notNull := ← fields.required "notNull" Json.asBool?
    unique := ← fields.required "unique" Json.asBool?
    defaultText := ← fields.optional "default" Json.asString?
    defaultValue := ← fields.optional "defaultValue" Json.asString?
    isPrimaryKey := ← fields.required "isPrimaryKey" Json.asBool?
    isForeignKey := ← fields.required "isForeignKey" Json.asBool?
    foreignKey := ← fields.optional "foreignKey" ForeignKey.ofJson?
    tags := ← fields.withDefault "tags" .empty Tag.mapOfJson?
    toUpdate := ← fields.required "toUpdate" Json.asBool?
    isListFilter := ← fields.required "isListFilter" Json.asBool?
    listFilterName := ← fields.optional "listFilterName" Json.asString?
    retrieveInList := ← fields.required "retrieveInList" Json.asBool?
    sort := ← fields.required "sort" Json.asBool?
    getWithParent := ← fields.required "getWithParent" Json.asBool? }

end Column

end ReleaseSchema
