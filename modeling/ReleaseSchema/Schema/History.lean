/-
What the releases say of one object: every file that has defined it, by
version, and the last of them.
-/
import ReleaseSchema.Json.Record

namespace ReleaseSchema

/-- A version and the file that defines an object in it. -/
structure Revision where
  version : String
  file : String
  deriving DecidableEq, Repr, Inhabited

/-- An object's name and the files that have defined it, oldest first. -/
structure History where
  name : String
  latestVersion : String := ""
  latestFile : String := ""
  revisions : List Revision := []
  deriving DecidableEq, Repr, Inhabited

namespace Revision

def toJson (r : Revision) : Json :=
  .object [("version", .string r.version), ("file", .string r.file)]

def ofJson? (json : Json) : Option Revision := do
  let fields ← json.fields? ["version", "file"]
  return {
    version := ← fields.required "version" Json.asString?
    file := ← fields.required "file" Json.asString? }

end Revision

namespace History

/-- Adds a file, which becomes the latest one. -/
def record (h : History) (version file : String) : History :=
  { h with
    latestVersion := version
    latestFile := file
    revisions := h.revisions ++ [⟨version, file⟩] }

def fieldNames : List String := ["name", "latestVersion", "latestFile", "versions"]

def toMembers (h : History) : List (String × Json) :=
  [("name", .string h.name), ("latestVersion", .string h.latestVersion),
    ("latestFile", .string h.latestFile), ("versions", .array (h.revisions.map Revision.toJson))]

def toJson (h : History) : Json := .object h.toMembers

def ofFields? (fields : Json.Fields) : Option History := do
  return {
    name := ← fields.required "name" Json.asString?
    latestVersion := ← fields.required "latestVersion" Json.asString?
    latestFile := ← fields.required "latestFile" Json.asString?
    revisions := ← fields.required "versions" (Json.asList? Revision.ofJson?) }

def ofJson? (json : Json) : Option History := json.fields? fieldNames >>= ofFields?

end History

end ReleaseSchema
