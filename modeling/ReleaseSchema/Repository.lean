/-
Reading a repository into a catalog and storing what was read.
-/
import ReleaseSchema.Build
import ReleaseSchema.Release.Folder
import ReleaseSchema.Store.Document
import ReleaseSchema.Text.Encoding

namespace ReleaseSchema

/-- A repository as it was read. -/
structure Scan where
  manifests : List Manifest
  catalog : Catalog

/-- What to read, and where to store it. -/
structure ReadOptions where
  repository : String
  /-- The application to store under; without one the repository's folder gives its name. -/
  app : Option String := none
  store : String := "."
  deriving DecidableEq, Repr, Inhabited

variable {m : Type → Type} [Monad m] [FileSystem m]

namespace Sources

/-- The text of a file in any of the encodings that scripts come in. -/
def textAt (path : String) : m (Except FileError String) := do
  match ← FileSystem.read path with
  | .error e => return .error e
  | .ok bytes =>
    match Text.decode? bytes with
    | some text => return .ok text
    | none => return .error .invalidData

/-- The texts of the files at the given paths. -/
def load (paths : List String) : m Sources := do
  let texts ← paths.mapM fun path => do return (path, (← textAt path).toOption)
  return fun path => (texts.lookup path).join

end Sources

namespace ReadOptions

/-- The name to store under. -/
def storedName (o : ReadOptions) : m String := do
  match o.app with
  | some app => return Store.storedName app
  | none =>
    let path := (← FileSystem.resolve? o.repository).getD o.repository
    let name := (Path.fileName? path.toList).map String.ofList
    return Store.storedName (name.getD "repository")

def documents (o : ReadOptions) : DocumentStore := { folder := o.store }

end ReadOptions

namespace Repository

/-- Reads the manifests of a repository and every file that they list. -/
def scan (repository : String) : ExceptT Failure m Scan := do
  let manifests ← Release.read repository
  let sources ← Sources.load (distinct (Manifest.fold manifests).files)
  return { manifests, catalog := Catalog.build manifests sources }

/-- Reads a repository and stores its manifests, then its catalog. -/
def read (options : ReadOptions) : ExceptT Failure m Scan := do
  let scan ← scan options.repository
  let app ← options.storedName
  options.documents.saveManifests app scan.manifests
  options.documents.saveCatalog app scan.catalog
  return scan

end Repository

end ReleaseSchema
