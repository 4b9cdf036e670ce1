/-
A file system held in memory: a tree of folders and files, and the folder in
which relative paths begin. A path is walked one segment at a time, and every
segment but the last must lead to a folder; there are no links.
-/
import ReleaseSchema.Bindings
import ReleaseSchema.FileSystem
import ReleaseSchema.Path

namespace ReleaseSchema

inductive Node where
  | file (content : ByteArray)
  | folder (entries : List (String × Node))

instance : Inhabited Node := ⟨.folder []⟩

/-- The names of the folders from the root to a place, the last one first. -/
abbrev Place := List String

structure Disk where
  root : Node := .folder []
  /-- Where relative paths begin. -/
  cwd : Place := []

namespace Node

def isFolder : Node → Bool
  | .folder _ => true
  | .file _ => false

def child? (name : String) : Node → Option Node
  | .folder entries => entries.lookup name
  | .file _ => none

/-- What names lead to, one after the other. -/
def descend? (node : Node) : List String → Option Node
  | [] => some node
  | name :: rest => (node.child? name).bind (·.descend? rest)

/-- Puts a node where names lead. Only the last name may be new. -/
def put (node : Node) : List String → Node → Node
  | [], _ => node
  | [name], .folder entries => .folder (Bindings.bind name node entries)
  | name :: rest, .folder entries =>
    match entries.lookup name with
    | some next => .folder (Bindings.bind name (put node rest next) entries)
    | none => .folder entries
  | _, .file content => .file content

end Node

namespace Disk

def at? (d : Disk) (place : Place) : Option Node := d.root.descend? place.reverse

/-- Walks segments from a place. An idle segment stays, two dots lead up, and each needs a folder to
be taken from. -/
def walk? (d : Disk) (place : Place) : List (List Char) → Except FileError Place
  | [] => .ok place
  | segment :: rest =>
    match d.at? place with
    | some (.folder entries) =>
      if Path.isIdle segment then d.walk? place rest
      else if segment = ['.', '.'] then d.walk? place.tail rest
      else
        let name := String.ofList segment
        if (entries.lookup name).isSome then d.walk? (name :: place) rest else .error .notFound
    | some (.file _) => .error .notADirectory
    | none => .error .notFound

/-- The place from which a path is walked, and its segments. -/
def steps (d : Disk) (path : List Char) : Place × List (List Char) :=
  match path with
  | '/' :: body => ([], Path.segments body)
  | _ => (d.cwd, Path.segments path)

/-- The place that a path leads to. -/
def find? (d : Disk) (path : List Char) : Except FileError Place :=
  if path.isEmpty then .error .notFound else d.walk? (d.steps path).1 (d.steps path).2

def node? (d : Disk) (path : List Char) : Except FileError Node := do
  match d.at? (← d.find? path) with
  | some node => .ok node
  | none => .error .notFound

def isFolder (d : Disk) (path : List Char) : Bool :=
  match d.node? path with
  | .ok node => node.isFolder
  | .error _ => false

/-- The names in a folder of the nodes that `p` accepts, in order. -/
def names (d : Disk) (p : Node → Bool) (path : List Char) : List String :=
  match d.node? path with
  | .ok (.folder entries) =>
    ((entries.filter fun (_, node) => p node).map (·.1)).mergeSort fun a b => decide (a ≤ b)
  | _ => []

def read (d : Disk) (path : List Char) : Except FileError ByteArray := do
  match ← d.node? path with
  | .file content => .ok content
  | .folder _ => .error .isADirectory

/-- The folder that a path's last segment is looked for in, and that segment. -/
def findParent? (d : Disk) (path : List Char) : Except FileError (Place × String) := do
  let (start, segments) := d.steps path
  let segments := (segments.reverse.dropWhile Path.isIdle).reverse
  match segments.getLast? with
  | none => .error .alreadyExists
  | some last =>
    let place ← d.walk? start segments.dropLast
    match d.at? place with
    | some (.folder _) =>
      if last = ['.', '.'] then .error .alreadyExists else .ok (place, String.ofList last)
    | some (.file _) => .error .notADirectory
    | none => .error .notFound

def put (d : Disk) (place : Place) (node : Node) : Disk :=
  { d with root := Node.put node place.reverse d.root }

/-- Makes one folder, where nothing is yet. -/
def makeFolder (d : Disk) (path : List Char) : Except FileError Disk := do
  let (place, name) ← d.findParent? path
  if (d.at? (name :: place)).isSome then .error .alreadyExists
  else .ok (d.put (name :: place) (.folder []))

/-- Makes a folder unless it is there. -/
def ensureFolder (d : Disk) (path : List Char) : Except FileError Disk :=
  match d.makeFolder path with
  | .ok d => .ok d
  | .error e => if d.isFolder path then .ok d else .error e

/-- Makes a folder, and the folders above it where its own parent is missing. Folders made on the
way stay even if a later one cannot be made. A parent is shorter than its path, so the length of the
path is `fuel` enough. -/
def makeFoldersFrom : Nat → Disk → List Char → Except FileError Unit × Disk
  | 0, d, _ => (.error .other, d)
  | fuel + 1, d, path =>
    if path.isEmpty then (.ok (), d)
    else
      match d.makeFolder path with
      | .ok d => (.ok (), d)
      | .error .notFound =>
        match Path.parent? path with
        | none => (.error .other, d)
        | some parent =>
          match makeFoldersFrom fuel d parent with
          | (.error e, d) => (.error e, d)
          | (.ok (), d) =>
            match d.ensureFolder path with
            | .ok d => (.ok (), d)
            | .error e => (.error e, d)
      | .error e => if d.isFolder path then (.ok (), d) else (.error e, d)

def makeFolders (d : Disk) (path : List Char) : Except FileError Unit × Disk :=
  makeFoldersFrom (path.length + 1) d path

/-- Makes a file, or writes over one. -/
def write (d : Disk) (path : List Char) (content : ByteArray) : Except FileError Disk := do
  if path.isEmpty then .error .notFound
  else
    let (start, segments) := d.steps path
    match segments.getLast? with
    | none => .error .notFound
    | some last =>
      if Path.isIdle last || last = ['.', '.'] then
        let _ ← d.node? path
        .error .isADirectory
      else
        let place ← d.walk? start segments.dropLast
        match d.at? place with
        | some (.folder entries) =>
          let name := String.ofList last
          match entries.lookup name with
          | some (.folder _) => .error .isADirectory
          | _ => .ok (d.put (name :: place) (.file content))
        | some (.file _) => .error .notADirectory
        | none => .error .notFound

/-- The absolute path of a place. -/
def pathOf (place : Place) : String :=
  if place.isEmpty then "/" else String.join (place.reverse.map ("/" ++ ·))

instance : FileSystem (StateM Disk) where
  exists? path := fun d => (((d.find? path.toList).toOption).isSome, d)
  isFolder path := fun d => (d.isFolder path.toList, d)
  resolve? path := fun d => ((d.find? path.toList).toOption.map pathOf, d)
  folders path := fun d => (d.names (·.isFolder) path.toList, d)
  files path := fun d => (d.names (!·.isFolder) path.toList, d)
  read path := fun d => (d.read path.toList, d)
  makeFolders path := fun d => d.makeFolders path.toList
  write path content := fun d =>
    match d.write path.toList content with
    | .ok d => (.ok (), d)
    | .error e => (.error e, d)

end Disk

end ReleaseSchema
