/-
Data scripts: the tables that they insert rows into.
-/
import ReleaseSchema.Schema.History

namespace ReleaseSchema

structure DataScript where
  history : History
  /-- Tables in order of their first insertion, each once. -/
  targets : List String := []
  deriving DecidableEq, Repr, Inhabited

namespace DataScript

def fieldNames : List String := ["targetTables"]

def toJson (d : DataScript) : Json :=
  .object (d.history.toMembers ++ [("targetTables", .array (d.targets.map .string))])

def ofJson? (json : Json) : Option DataScript := do
  let fields ← json.openFields? fieldNames History.fieldNames
  return {
    history := ← History.ofFields? fields
    targets := ← fields.required "targetTables" (Json.asList? Json.asString?) }

end DataScript

end ReleaseSchema
