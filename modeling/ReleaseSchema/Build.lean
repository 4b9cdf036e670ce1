/-
Building the catalog of a database from the manifests of its releases and the
texts of its files.
-/
import ReleaseSchema.Ddl.Entry
import ReleaseSchema.Placeholder
import ReleaseSchema.Release.Fold
import ReleaseSchema.Schema.Catalog

namespace ReleaseSchema

open Text

/-! ## Name of the database -/

/-- The first part of a database name: a placeholder, or letters and digits. -/
def environment? (c : Cursor) : Option Cursor :=
  ((Placeholder.bracketed? c).orElse fun _ => c.run? isCodeFolded).map (·.2)

/-- The name in a `drop database` statement, behind the environment and an underscore. -/
def droppedDatabase? (c : Cursor) : Option (List Char) := do
  let c ← c.boundary?
  let c ← Ddl.wordAndBlanks? "drop" c
  let c ← Ddl.wordAndBlanks? "database" c
  let c := ((c.phrase? ["if", "exists"]).bind (·.blanks?)).getD c
  let c ← environment? (c.skipChar '"')
  let (name, _) ← (← c.char? '_').word?
  return name

/-- The lowercase prefix of a table name such as `abct_user_usr`. -/
def tablePrefix? (name : String) : Option String :=
  let head := name.toList.takeWhile (· != '_')
  let isLower := fun (c : Char) => 'a' ≤ c && c ≤ 'z'
  if name.toList.contains '_' ∧ head.getLast? = some 't' ∧ 3 ≤ head.length ∧ head.length ≤ 5 ∧
      head.all isLower
  then some (String.ofList head.dropLast)
  else none

namespace Catalog

/-- The name that the setup scripts drop, or else the prefix of the first table that has one. -/
def databaseName (sources : Sources) (c : Catalog) : String :=
  let dropped := (c.entriesOf .setup).findSome? fun (_, entry) =>
    (sources entry.history.latestFile).bind fun text =>
      (search? droppedDatabase? text.toList).map fun (_, name) => String.ofList name
  match dropped with
  | some name => name
  | none => ((c.entriesOf .table).findSome? fun (name, _) => tablePrefix? name).getD ""

/-- A bucket for each kind, with an entry for every folded object of it. -/
def bucketsOf (sources : Sources) (folded : Folded) : SortedMap Kind Bucket :=
  blank.buckets.mapValues fun kind _ =>
    ((folded.buckets.get? kind).getD .empty).mapValues fun _ history =>
      Ddl.entry sources kind history

/-- The catalog of what the manifests say together. -/
def ofFolded (sources : Sources) (folded : Folded) : Catalog :=
  let filled := { blank with buckets := bucketsOf sources folded }
  { filled with
    properties :=
      { dbName := filled.databaseName sources
        hasCurrent := folded.hasCurrent
        lastVersion := folded.lastVersion }
    parameters := Placeholder.scan sources folded.files
    versions := folded.versions }

/-- The root of the repository that a manifest belongs to, four folders up. -/
def repositoryRoot? (manifest : List Char) : Option (List Char) := Path.ancestor? 4 manifest

/-- The catalog of a repository. Its path is the root that the first manifest tells. -/
def build (manifests : List Manifest) (sources : Sources) : Catalog :=
  let root := manifests.head?.bind fun m => repositoryRoot? m.fileName.toList
  let catalog := ofFolded sources (Manifest.fold manifests)
  { catalog with
    properties :=
      { catalog.properties with path := String.ofList (Path.normalize (root.getD [])) } }

end Catalog

end ReleaseSchema
