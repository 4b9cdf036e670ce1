/-
The program: the file operations of the machine it runs on, and its arguments.
-/
import ReleaseSchema.Command.Run

namespace ReleaseSchema

/-- The cause of an error of the machine. -/
def FileError.ofError : IO.Error → FileError
  | .noFileOrDirectory .. => .notFound
  | .alreadyExists .. => .alreadyExists
  | .inappropriateType _ _ details =>
    if details.startsWith "is a" || details.startsWith "Is a" then .isADirectory
    else .notADirectory
  | _ => .other

/-- The result of an action that the machine may refuse. -/
def attempt (action : IO α) : IO (Except FileError α) := do
  match ← action.toBaseIO with
  | .ok a => return .ok a
  | .error e => return .error (FileError.ofError e)

/-- The names in a folder of what `p` accepts, in order. -/
def namesIn (p : IO.FS.FileType → Bool) (path : String) : IO (List String) := do
  let found ← attempt do
    let entries ← (System.mkFilePath [path]).readDir
    entries.toList.filterMapM fun entry => do
      return if p (← entry.path.symlinkMetadata).type then some entry.fileName else none
  return (found.toOption.getD []).mergeSort fun a b => decide (a ≤ b)

instance : FileSystem IO where
  exists? path := if path.isEmpty then return false else (System.mkFilePath [path]).pathExists
  isFolder path := if path.isEmpty then return false else (System.mkFilePath [path]).isDir
  resolve? path := do
    if path.isEmpty then return none
    match ← attempt (IO.FS.realPath (System.mkFilePath [path])) with
    | .ok resolved => return some resolved.toString
    | .error _ => return none
  folders := namesIn fun type => match type with
    | .dir => true
    | _ => false
  files := namesIn fun type => match type with
    | .file => true
    | _ => false
  read path := attempt (IO.FS.readBinFile (System.mkFilePath [path]))
  makeFolders path := do
    if path.isEmpty then return .ok ()
    if ← (System.mkFilePath [path]).isDir then return .ok ()
    attempt (IO.FS.createDirAll (System.mkFilePath [path]))
  write path content := attempt (IO.FS.writeBinFile (System.mkFilePath [path]) content)

end ReleaseSchema

open ReleaseSchema in
def main (arguments : List String) : IO UInt32 := do
  let outcome ← (Command.run arguments : IO Command.Outcome)
  IO.print outcome.output
  match outcome.error with
  | some message => IO.eprintln ("Error: " ++ message)
  | none => if outcome.status = 2 then IO.eprint (Command.lines Command.helpLines)
  return UInt32.ofNat outcome.status
