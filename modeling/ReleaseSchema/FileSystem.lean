/-
What the program asks of a file system, and how it may be refused.
-/
namespace ReleaseSchema

/-- Why a file operation is refused. -/
inductive FileError where
  | notFound
  | notADirectory
  | isADirectory
  | alreadyExists
  /-- The bytes of a file are not the text they should be. -/
  | invalidData
  | other
  deriving DecidableEq, Repr, Inhabited

/-- The file operations of a monad. Paths are texts, taken from the working folder. -/
class FileSystem (m : Type → Type) where
  /-- Something is there. -/
  exists? : String → m Bool
  /-- A folder is there. -/
  isFolder : String → m Bool
  /-- The absolute path of what is there. -/
  resolve? : String → m (Option String)
  /-- The folders in a folder, by name. -/
  folders : String → m (List String)
  /-- The files in a folder, by name. -/
  files : String → m (List String)
  read : String → m (Except FileError ByteArray)
  /-- Makes a folder, with the folders above it that are missing. -/
  makeFolders : String → m (Except FileError Unit)
  /-- Makes a file, or writes over one. -/
  write : String → ByteArray → m (Except FileError Unit)

namespace FileSystem

variable {m : Type → Type} [Monad m] [FileSystem m]

/-- The text of a file in UTF-8. -/
def readText (path : String) : m (Except FileError String) := do
  match ← read path with
  | .error e => return .error e
  | .ok bytes =>
    match String.fromUTF8? bytes with
    | some text => return .ok text
    | none => return .error .invalidData

/-- File operations beside failures of another kind. -/
instance {ε : Type} : FileSystem (ExceptT ε m) where
  exists? path := ExceptT.lift (exists? path)
  isFolder path := ExceptT.lift (isFolder path)
  resolve? path := ExceptT.lift (resolve? path)
  folders path := ExceptT.lift (folders path)
  files path := ExceptT.lift (files path)
  read path := ExceptT.lift (read path)
  makeFolders path := ExceptT.lift (makeFolders path)
  write path content := ExceptT.lift (write path content)

end FileSystem

end ReleaseSchema
