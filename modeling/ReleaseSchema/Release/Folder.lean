/-
The release folder of a repository: `postgres/release`, with a folder for each
version and a manifest in it.
-/
import ReleaseSchema.Failure
import ReleaseSchema.Release.Manifest

namespace ReleaseSchema.Release

variable {m : Type → Type} [Monad m] [FileSystem m]

/-- The release folder of a repository. -/
def folder (repository : List Char) : List Char :=
  Path.join (Path.join repository "postgres".toList) "release".toList

/-- The manifest in the folder of a version. -/
def manifestPath (root : List Char) (version : String) : String :=
  String.ofList (Path.join (Path.join root version.toList) Manifest.baseName.toList)

/-- The paths of the manifests in a release folder, in the order of the names of their versions. -/
def findManifests (repository : String) : ExceptT Failure m (List String) := do
  let root := folder repository.toList
  let rootPath := String.ofList root
  if ← FileSystem.isFolder rootPath then
    let versions ← FileSystem.folders rootPath
    let versions ← versions.filterM fun version => do
      let files ← FileSystem.files (String.ofList (Path.join root version.toList))
      return files.contains Manifest.baseName
    return versions.map (manifestPath root)
  else throw (.releaseFolderMissing rootPath)

def readManifest (path : String) : ExceptT Failure m Manifest := do
  match ← FileSystem.readText path with
  | .error cause => throw (.manifestUnreadable path cause)
  | .ok text =>
    match Manifest.ofText? path.toList text with
    | some manifest => return manifest
    | none => throw (.manifestInvalid path)

/-- The manifests of a repository, or the failure of the first bad one. -/
def read (repository : String) : ExceptT Failure m (List Manifest) := do
  (← findManifests repository).mapM readManifest

end ReleaseSchema.Release
