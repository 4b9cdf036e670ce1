/-
Running commands. A command answers what is printed and the status that the
program ends with: 0 when it is done, 1 when it fails, 2 when it makes no
sense.
-/
import ReleaseSchema.Command.Arguments

namespace ReleaseSchema.Command

/-- The end of a run. -/
structure Outcome where
  status : Nat := 0
  output : String := ""
  error : Option String := none
  deriving DecidableEq, Repr, Inhabited

variable {m : Type → Type} [Monad m] [FileSystem m]

def lines (ls : List String) : String := String.join (ls.map (· ++ "\n"))

/-- A text with blanks after it up to a width. -/
def padded (width : Nat) (text : String) : String :=
  text ++ String.ofList (List.replicate (width - text.length) ' ')

/-- The report of a repository that was read and stored under a name. -/
def report (app : String) (scan : Scan) : String :=
  let catalog := scan.catalog
  let unknown := (scan.manifests.flatMap (·.unknownFiles)).length
  lines <|
    ["Application:  " ++ app, "Database:     " ++ catalog.properties.dbName,
      "Versions:     " ++ ", ".intercalate catalog.versions,
      "Last version: " ++ catalog.properties.lastVersion,
      "Objects:      " ++ toString catalog.objectCount] ++
    ((catalog.buckets.entries.filter fun (_, bucket) => !bucket.isEmpty).map fun (kind, bucket) =>
      "  " ++ padded 30 kind.name ++ " " ++ toString bucket.size) ++
    if unknown = 0 then [] else ["Unclassified files: " ++ toString unknown]

/-- The part of a catalog that a kind and a name select, or why there is none. -/
def select (catalog : Catalog) (kind name : Option String) : Except String Json :=
  match kind with
  | some word =>
    match Kind.ofWord? word with
    | none => .error ("unknown file type: " ++ word)
    | some kind =>
      match catalog.bucket? kind with
      | none => .error ("No bucket for kind " ++ kind.name)
      | some bucket =>
        match name with
        | none => .ok bucket.toJson
        | some name =>
          match bucket.get? name with
          | some entry => .ok entry.toJson
          | none => .error ("No " ++ kind.name ++ " named " ++ name)
  | none =>
    match name with
    | none => .ok catalog.toJson
    | some name =>
      match catalog.find? name with
      | some (_, entry) => .ok entry.toJson
      | none => .error ("No object named " ++ name)

/-- The placeholders of a catalog, each with its files. -/
def parameterLines (catalog : Catalog) : List String :=
  if catalog.parameters.isEmpty then ["No parameters found"]
  else
    catalog.parameters.entries.flatMap fun (name, files) =>
      ("<" ++ name ++ ">") :: files.map ("    " ++ ·)

/-- What a command prints, or why it fails. -/
def output : Command → ExceptT String m String
  | .read options => do
    let scan ← (Repository.read options).adapt Failure.message
    return report (← options.storedName) scan
  | .inspect app folder kind name => do
    let catalog ← (DocumentStore.loadCatalog { folder } app).adapt Failure.message
    match select catalog kind name with
    | .ok json => return lines [json.pretty]
    | .error message => throw message
  | .parameters app folder => do
    let catalog ← (DocumentStore.loadCatalog { folder } app).adapt Failure.message
    return lines (parameterLines catalog)

/-- The name and version of the program. -/
def versionLine : String := "dbrepo 0.1.0"

def helpLines : List String :=
  ["Usage: dbrepo [-v] <COMMAND>", "",
    "  read        Read a repository and store its catalog [-r REPO] [-a APP] [-s STORE]",
    "  show        Print a stored catalog, or a part of it -a APP [-s STORE] [-k KIND] [-n NAME]",
    "  parameters  List the placeholders of a catalog      -a APP [-s STORE]"]

/-- Runs the program with its arguments. -/
def run (arguments : List String) : m Outcome := do
  match request arguments with
  | .version => return { output := lines [versionLine] }
  | .help => return { output := lines helpLines }
  | .misused => return { status := 2 }
  | .run command =>
    match ← (output command).run with
    | .ok text => return { output := text }
    | .error message => return { status := 1, error := some message }

end ReleaseSchema.Command
