/-
The command line: three commands with options of their own, and the flags that
every one of them takes. An option may be given once; its value follows it as
the next argument, behind an equals sign, or joined to its letter.
-/
import ReleaseSchema.Repository

namespace ReleaseSchema

inductive Command where
  | read (options : ReadOptions)
  | inspect (app store : String) (kind name : Option String)
  | parameters (app store : String)
  deriving DecidableEq, Repr, Inhabited

namespace Command

/-- What an argument list asks for. -/
inductive Request where
  | run (command : Command)
  | version
  | help
  /-- The arguments make no sense. -/
  | misused
  deriving DecidableEq, Repr, Inhabited

/-- An option with a value. -/
structure Setting where
  name : String
  letter : Char
  /-- A path must not be empty. -/
  isPath : Bool
  deriving DecidableEq, Repr

def repo : Setting := ⟨"repo", 'r', true⟩

def app : Setting := ⟨"app", 'a', false⟩

def store : Setting := ⟨"store", 's', true⟩

def kind : Setting := ⟨"kind", 'k', false⟩

def objectName : Setting := ⟨"name", 'n', false⟩

/-! ## Single arguments -/

/-- The shapes of an argument. -/
inductive Shape where
  /-- Two dashes alone: no options follow. -/
  | stop
  | long (name : String) (value : Option String)
  | short (letters : List Char)
  | plain
  deriving DecidableEq, Repr

def shapeOf (argument : String) : Shape :=
  match argument.toList with
  | ['-', '-'] => .stop
  | '-' :: '-' :: rest =>
    let name := String.ofList (rest.takeWhile (· != '='))
    match rest.dropWhile (· != '=') with
    | [] => .long name none
    | _ :: value => .long name (some (String.ofList value))
  | '-' :: c :: rest => .short (c :: rest)
  | _ => .plain

/-- Settings and values, and whether the flag for more messages is given. -/
structure Given where
  values : List (String × String) := []
  verbose : Bool := false
  deriving DecidableEq, Repr

/-- Adds the value of a setting. -/
def Given.set? (given : Given) (setting : Setting) (value : String) : Option Given :=
  if (given.values.lookup setting.name).isSome || (setting.isPath && value.isEmpty) then none
  else some { given with values := given.values ++ [(setting.name, value)] }

/-- Adds the flag for more messages. -/
def Given.beVerbose? (given : Given) : Option Given :=
  if given.verbose then none else some { given with verbose := true }

/-- What a run of letters after one dash leads to. -/
inductive Letters where
  | done (given : Given)
  /-- The last letter is a setting whose value is the next argument. -/
  | pending (given : Given) (setting : Setting)
  | version
  | help
  | misused

/-- Reads letters: flags, and at the end a setting that may have its value joined to it. -/
def readLetters (settings : List Setting) (top : Bool) (given : Given) : List Char → Letters
  | [] => .done given
  | c :: rest =>
    if c = 'h' then .help
    else if c = 'V' ∧ top then .version
    else if c = 'v' then
      match given.beVerbose? with
      | some given => readLetters settings top given rest
      | none => .misused
    else
      match settings.find? (·.letter == c) with
      | none => .misused
      | some setting =>
        let value := match rest with
          | [] => none
          | '=' :: value => some value
          | value => some value
        match value with
        | none => .pending given setting
        | some value =>
          match given.set? setting (String.ofList value) with
          | some given => .done given
          | none => .misused

/-! ## Argument lists -/

/-- The arguments of a command, which all are settings and flags. -/
def readSettings (settings : List Setting) (finish : Given → Option Command) (given : Given) :
    List String → Request
  | [] => match finish given with
    | some command => .run command
    | none => .misused
  | argument :: rest =>
    /- The next argument as the value of a setting. -/
    let withNext := fun (given : Given) (setting : Setting) =>
      match rest with
      | [] => .misused
      | value :: rest =>
        match shapeOf value, given.set? setting value with
        | .plain, some given => readSettings settings finish given rest
        | _, _ => .misused
    match shapeOf argument with
    | .stop =>
      match rest, finish given with
      | [], some command => .run command
      | _, _ => .misused
    | .plain => .misused
    | .short letters =>
      match readLetters settings false given letters with
      | .done given => readSettings settings finish given rest
      | .pending given setting => withNext given setting
      | .version => .misused
      | .help => .help
      | .misused => .misused
    | .long name value =>
      if name = "help" ∧ value = none then .help
      else if name = "verbose" ∧ value = none then
        match given.beVerbose? with
        | some given => readSettings settings finish given rest
        | none => .misused
      else
        match settings.find? (·.name == name), value with
        | some setting, some value =>
          match given.set? setting value with
          | some given => readSettings settings finish given rest
          | none => .misused
        | some setting, none => withNext given setting
        | none, _ => .misused

/-- The value of a setting. -/
def Given.get? (given : Given) (setting : Setting) : Option String :=
  given.values.lookup setting.name

/-- The value of a path, which is the working folder unless it is given. -/
def Given.pathOf (given : Given) (setting : Setting) : String := (given.get? setting).getD "."

def readOf (given : Given) : Option Command :=
  some <| .read
    { repository := given.pathOf repo, app := given.get? app, store := given.pathOf store }

def showOf (given : Given) : Option Command :=
  (given.get? app).map fun name =>
    .inspect name (given.pathOf store) (given.get? kind) (given.get? objectName)

def parametersOf (given : Given) : Option Command :=
  (given.get? app).map fun name => .parameters name (given.pathOf store)

/-- Help is asked for in general, or for one command. -/
def readHelp : List String → Request
  | [] => .help
  | [topic] => if ["read", "show", "parameters", "help"].contains topic then .help else .misused
  | _ => .misused

/-- The command of a name, with its arguments. -/
def readCommand (name : String) (arguments : List String) : Request :=
  if name = "read" then readSettings [repo, app, store] readOf {} arguments
  else if name = "show" then readSettings [app, store, kind, objectName] showOf {} arguments
  else if name = "parameters" then readSettings [app, store] parametersOf {} arguments
  else if name = "help" then readHelp arguments
  else .misused

/-- Flags, and then a command. -/
def readTop (given : Given) : List String → Request
  | [] => .misused
  | argument :: rest =>
    match shapeOf argument with
    | .stop => .misused
    | .plain => readCommand argument rest
    | .short letters =>
      match readLetters [] true given letters with
      | .done given => readTop given rest
      | .version => .version
      | .help => .help
      | _ => .misused
    | .long name none =>
      if name = "help" then .help
      else if name = "version" then .version
      else if name = "verbose" then
        match given.beVerbose? with
        | some given => readTop given rest
        | none => .misused
      else .misused
    | .long _ (some _) => .misused

/-- What the arguments of the program ask for. -/
def request (arguments : List String) : Request := readTop {} arguments

end Command

end ReleaseSchema
