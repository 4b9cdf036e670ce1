/-
A store of two JSON documents in a folder, one for catalogs and one for
manifests. Each maps stored names to values. To save is to read the document,
to set one entry and to write the document again; two writers at once may lose
an entry.
-/
import ReleaseSchema.Failure
import ReleaseSchema.Json.Printer
import ReleaseSchema.Json.Reader
import ReleaseSchema.Release.Manifest
import ReleaseSchema.Schema.Catalog
import ReleaseSchema.Store.Memory

namespace ReleaseSchema

/-- The values of a document by stored name. -/
abbrev Document := SortedMap String Json

structure DocumentStore where
  folder : String
  /-- What the names of both documents begin with. -/
  label : String := "dbrepo"
  deriving DecidableEq, Repr, Inhabited

namespace Document

def ofText? (text : String) : Option Document := do
  let json ← Json.parse? text
  return SortedMap.ofList (← json.asMembers? Json.value?)

def toText (d : Document) : String := (Json.object d.entries).pretty

end Document

namespace DocumentStore

open Store

variable {m : Type → Type} [Monad m] [FileSystem m]

/-- A file in the folder of the store. -/
def pathOf (s : DocumentStore) (ending : String) : String :=
  String.ofList (Path.join s.folder.toList (s.label ++ ending).toList)

def catalogPath (s : DocumentStore) : String := s.pathOf "-db-data.json"

def manifestPath (s : DocumentStore) : String := s.pathOf "-dbs.json"

/-- The document at a path; where nothing is, there is an empty one. -/
def readDocument (path : String) : ExceptT Failure m Document := do
  if ← FileSystem.exists? path then
    match ← FileSystem.readText path with
    | .error cause => throw (.documentUnreadable path cause)
    | .ok text =>
      match Document.ofText? text with
      | some document => return document
      | none => throw (.documentInvalid path)
  else return .empty

def writeDocument (path : String) (document : Document) : ExceptT Failure m Unit := do
  let parent := String.ofList ((Path.parent? path.toList).getD [])
  match ← FileSystem.makeFolders parent with
  | .error cause => throw (.documentUnwritable parent cause)
  | .ok () =>
    match ← FileSystem.write path document.toText.toUTF8 with
    | .error cause => throw (.documentUnwritable path cause)
    | .ok () => return ()

/-- The value of an application in a document. -/
def loadEntry (path : String) (value? : Json → Option α) (app : String) : ExceptT Failure m α := do
  let document ← readDocument path
  match document.get? (storedName app) with
  | none => throw (.notStored (storedName app))
  | some json =>
    match value? json with
    | some value => return value
    | none => throw (.documentInvalid path)

def saveEntry (path : String) (app : String) (json : Json) : ExceptT Failure m Unit := do
  let document ← readDocument path
  writeDocument path (document.insert (storedName app) json.distinct)

def loadCatalog (s : DocumentStore) (app : String) : ExceptT Failure m Catalog :=
  loadEntry s.catalogPath Catalog.ofJson? app

def saveCatalog (s : DocumentStore) (app : String) (catalog : Catalog) : ExceptT Failure m Unit :=
  saveEntry s.catalogPath app catalog.toJson

def loadManifests (s : DocumentStore) (app : String) : ExceptT Failure m (List Manifest) :=
  loadEntry s.manifestPath (Json.asList? Manifest.ofJson?) app

def saveManifests (s : DocumentStore) (app : String) (manifests : List Manifest) :
    ExceptT Failure m Unit :=
  saveEntry s.manifestPath app (.array (manifests.map Manifest.toJson))

end DocumentStore

end ReleaseSchema
