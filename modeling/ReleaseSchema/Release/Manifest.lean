/-
Version manifests: the install steps of one release, each with the files it
runs. A manifest lies in the folder of its version, and its entries are paths
from there.
-/
import ReleaseSchema.Json.Reader
import ReleaseSchema.Path
import ReleaseSchema.Release.Version
import ReleaseSchema.Schema.Kind

namespace ReleaseSchema

/-- A file of a release: its kind, the name of what it defines, and its path. -/
structure ReleaseFile where
  kind : Kind
  name : String
  file : String
  deriving DecidableEq, Repr, Inhabited

/-- One step of an installation. -/
structure InstallStep where
  user : String := ""
  database : String := ""
  /-- Whatever the manifest says of other applications. -/
  dependencies : Option Json := none
  /-- The files as the manifest lists them. -/
  fileList : List String := []
  files : List ReleaseFile := []

structure Manifest where
  fileName : String
  versionName : String
  steps : List InstallStep

namespace ReleaseFile

/-- The file of a manifest entry, taken from the folder of the version. -/
def ofEntry (folder : List Char) (entry : String) : ReleaseFile :=
  let relative := Path.normalize entry.toList
  { kind := Kind.ofPath relative
    name := String.ofList (((Path.fileName? relative).map Path.stem).getD [])
    file := String.ofList (Path.normalize (Path.join folder relative)) }

def toJson (f : ReleaseFile) : Json :=
  .object [("type", f.kind.toJson), ("name", .string f.name), ("file", .string f.file)]

def ofJson? (json : Json) : Option ReleaseFile := do
  let fields ← json.fields? ["type", "name", "file"]
  return {
    kind := ← fields.required "type" Kind.ofJson?
    name := ← fields.required "name" Json.asString?
    file := ← fields.required "file" Json.asString? }

end ReleaseFile

namespace InstallStep

def toJson (s : InstallStep) : Json :=
  .object <|
    [("userToUse", .string s.user), ("databaseToUse", .string s.database)] ++
    Json.optionalMember "dependencies" s.dependencies ++
    [("fileList", .array (s.fileList.map .string)),
      ("files", .array (s.files.map ReleaseFile.toJson))]

def ofJson? (json : Json) : Option InstallStep := do
  let fields ← json.fields? ["userToUse", "databaseToUse", "dependencies", "fileList", "files"]
  return {
    user := ← fields.withDefault "userToUse" "" Json.asString?
    database := ← fields.withDefault "databaseToUse" "" Json.asString?
    dependencies := ← fields.optional "dependencies" Json.value?
    fileList := ← fields.withDefault "fileList" [] (Json.asList? Json.asString?)
    files := ← fields.withDefault "files" [] (Json.asList? ReleaseFile.ofJson?) }

/-- The step with its files told by its list. -/
def withFiles (folder : List Char) (s : InstallStep) : InstallStep :=
  { s with files := s.fileList.map (ReleaseFile.ofEntry folder) }

end InstallStep

namespace Manifest

/-- The name of the file in a version's folder. -/
def baseName : String := "version.json"

def toJson (m : Manifest) : Json :=
  .object
    [("fileName", .string m.fileName), ("versionName", .string m.versionName),
      ("versions", .array (m.steps.map InstallStep.toJson))]

def ofJson? (json : Json) : Option Manifest := do
  let fields ← json.fields? ["fileName", "versionName", "versions"]
  return {
    fileName := ← fields.required "fileName" Json.asString?
    versionName := ← fields.required "versionName" Json.asString?
    steps := ← fields.required "versions" (Json.asList? InstallStep.ofJson?) }

/-- The manifest at a path, read from its text. The version is named by the folder. -/
def ofText? (path : List Char) (text : String) : Option Manifest := do
  let json ← Json.parse? text
  let steps ← json.asList? InstallStep.ofJson?
  let folder := (Path.parent? path).getD []
  return {
    fileName := String.ofList (Path.normalize path)
    versionName := String.ofList ((Path.fileName? folder).getD [])
    steps := steps.map (InstallStep.withFiles folder) }

def isAcceptable (m : Manifest) : Bool := Version.isAcceptable m.versionName

/-- The files of every step, in order. -/
def files (m : Manifest) : List ReleaseFile := m.steps.flatMap (·.files)

/-- The files of no known kind. -/
def unknownFiles (m : Manifest) : List ReleaseFile := m.files.filter (·.kind == .unknown)

end Manifest

end ReleaseSchema
