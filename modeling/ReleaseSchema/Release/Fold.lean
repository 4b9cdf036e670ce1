/-
Folding the manifests of a repository into the history of each object. The
manifests of acceptable versions are taken in the order of their version keys,
manifests of one key in the order given.
-/
import ReleaseSchema.Release.Manifest
import ReleaseSchema.Schema.History
import ReleaseSchema.SortedMap

namespace ReleaseSchema

/-- What the manifests say together. -/
structure Folded where
  buckets : SortedMap Kind (SortedMap String History) := .empty
  /-- The versions in order, each once. -/
  versions : List String := []
  hasCurrent : Bool := false
  /-- The last released version. -/
  lastVersion : String := ""
  /-- The paths of all files, as often as they are listed. -/
  files : List String := []
  deriving DecidableEq, Inhabited

namespace Folded

/-- Notes the name of a version. -/
def addVersion (version : String) (f : Folded) : Folded :=
  let f := if version = Version.current then { f with hasCurrent := true }
    else { f with lastVersion := version }
  if f.versions.contains version then f else { f with versions := f.versions ++ [version] }

/-- Notes a file of a version. A file of no known kind defines no object. -/
def addFile (version : String) (f : Folded) (file : ReleaseFile) : Folded :=
  let f := { f with files := f.files ++ [file.file] }
  if file.kind = .unknown then f
  else
    { f with
      buckets := f.buckets.alter file.kind .empty fun bucket =>
        bucket.alter file.name { name := file.name } fun h => h.record version file.file }

def addManifest (f : Folded) (m : Manifest) : Folded :=
  m.files.foldl (addFile m.versionName) (f.addVersion m.versionName)

end Folded

namespace Manifest

/-- The manifests of acceptable versions, lowest version first. -/
def inOrder (manifests : List Manifest) : List Manifest :=
  (manifests.filter isAcceptable).mergeSort fun a b =>
    decide (Version.sortKey a.versionName ≤ Version.sortKey b.versionName)

def fold (manifests : List Manifest) : Folded := (inOrder manifests).foldl Folded.addManifest {}

end Manifest

end ReleaseSchema
