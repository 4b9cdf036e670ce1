/-
The catalog of a database: its objects by kind and name, the placeholders of
its scripts, its versions and what is known of the database itself.
-/
import ReleaseSchema.Schema.Entry
import ReleaseSchema.Schema.Kind

namespace ReleaseSchema

structure Properties where
  dbName : String := ""
  hasCurrent : Bool := false
  path : String := ""
  lastVersion : String := ""
  deriving DecidableEq, Repr, Inhabited

/-- The objects of one kind by name. -/
abbrev Bucket := SortedMap String Entry

structure Catalog where
  buckets : SortedMap Kind Bucket := .empty
  properties : Properties := {}
  /-- The files that use each placeholder. -/
  parameters : SortedMap String (List String) := .empty
  versions : List String := []
  deriving DecidableEq, Inhabited

namespace Properties

def toJson (p : Properties) : Json :=
  .object
    [("dbName", .string p.dbName), ("hasCurrent", .bool p.hasCurrent), ("path", .string p.path),
      ("lastVersion", .string p.lastVersion)]

def ofJson? (json : Json) : Option Properties := do
  let fields ← json.fields? ["dbName", "hasCurrent", "path", "lastVersion"]
  return {
    dbName := ← fields.required "dbName" Json.asString?
    hasCurrent := ← fields.required "hasCurrent" Json.asBool?
    path := ← fields.required "path" Json.asString?
    lastVersion := ← fields.required "lastVersion" Json.asString? }

end Properties

namespace Bucket

def toJson (b : Bucket) : Json := .object (b.entries.map fun (name, entry) => (name, entry.toJson))

def ofJson? (json : Json) : Option Bucket := (json.asMembers? Entry.ofJson?).map SortedMap.ofList

end Bucket

namespace Catalog

/-- A catalog with a bucket for each kind and nothing in them. -/
def blank : Catalog := { buckets := .ofList (Kind.buckets.map fun kind => (kind, .empty)) }

def bucket? (c : Catalog) (kind : Kind) : Option Bucket := c.buckets.get? kind

/-- The entries of a bucket, none if there is no such bucket. -/
def entriesOf (c : Catalog) (kind : Kind) : List (String × Entry) :=
  match c.bucket? kind with
  | some bucket => bucket.entries
  | none => []

def tables (c : Catalog) : List Table := (c.entriesOf .table).filterMap (·.2.table?)

def routines (c : Catalog) : List Routine := (c.entriesOf .function).filterMap (·.2.routine?)

/-- The entry of a name in the first bucket that has one. -/
def find? (c : Catalog) (name : String) : Option (Kind × Entry) :=
  c.buckets.entries.findSome? fun (kind, bucket) => (bucket.get? name).map (kind, ·)

def objectCount (c : Catalog) : Nat := (c.buckets.values.flatMap (·.entries)).length

/-! ## JSON form -/

def parametersToJson (parameters : SortedMap String (List String)) : Json :=
  .object (parameters.entries.map fun (name, files) => (name, .array (files.map .string)))

def parametersOfJson? (json : Json) : Option (SortedMap String (List String)) :=
  (json.asMembers? (Json.asList? Json.asString?)).map SortedMap.ofList

/-- The names of the members that are no buckets. -/
def fieldNames : List String := ["_properties", "_parameters", "_versions"]

def toJson (c : Catalog) : Json :=
  .object <|
    (c.buckets.entries.map fun (kind, bucket) => (kind.name, bucket.toJson)) ++
    [("_properties", c.properties.toJson), ("_parameters", parametersToJson c.parameters),
      ("_versions", .array (c.versions.map .string))]

/-- A bucket and its kind. -/
def bucketOfMember? (member : String × Json) : Option (Kind × Bucket) := do
  return (← Kind.ofName? member.1, ← Bucket.ofJson? member.2)

def ofJson? (json : Json) : Option Catalog := do
  let fields ← json.openFields? fieldNames []
  return {
    buckets := .ofList <|
      ← (fields.filter fun (name, _) => !fieldNames.contains name).mapM bucketOfMember?
    properties := ← fields.withDefault "_properties" {} Properties.ofJson?
    parameters := ← fields.withDefault "_parameters" .empty parametersOfJson?
    versions := ← fields.withDefault "_versions" [] (Json.asList? Json.asString?) }

end Catalog

end ReleaseSchema
