/-
Why a repository cannot be read or a catalog not be stored, in one line each.
-/
import ReleaseSchema.FileSystem

namespace ReleaseSchema

inductive Failure where
  | releaseFolderMissing (path : String)
  | manifestUnreadable (path : String) (cause : FileError)
  | manifestInvalid (path : String)
  | notStored (app : String)
  | documentUnreadable (path : String) (cause : FileError)
  | documentInvalid (path : String)
  | documentUnwritable (path : String) (cause : FileError)
  deriving DecidableEq, Repr, Inhabited

def Failure.message : Failure → String
  | .releaseFolderMissing path => "Release directory not found: " ++ path
  | .manifestUnreadable path _ => "Failed to read version manifest: " ++ path
  | .manifestInvalid path => "Failed to parse version manifest: " ++ path
  | .notStored app => "No stored database model for application: " ++ app
  | .documentUnreadable path _ => "Failed to read store file: " ++ path
  | .documentInvalid path => "Store file is not valid JSON: " ++ path
  | .documentUnwritable path _ => "Failed to write store file: " ++ path

end ReleaseSchema
