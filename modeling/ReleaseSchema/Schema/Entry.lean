/-
Entries of a catalog: an object with all that its kind lets one know of it.
-/
import ReleaseSchema.Schema.DataScript
import ReleaseSchema.Schema.Kind
import ReleaseSchema.Schema.Routine
import ReleaseSchema.Schema.Table

namespace ReleaseSchema

inductive Entry where
  | table (t : Table)
  | routine (r : Routine)
  | data (d : DataScript)
  | plain (h : History)
  deriving DecidableEq, Inhabited

/-- The forms of entries, without what is in them. -/
inductive Form where
  | table
  | routine
  | data
  | plain
  deriving DecidableEq, Repr, Inhabited

/-- The form in which objects of a kind are entered. -/
def Kind.form : Kind → Form
  | .table | .localTables => .table
  | .function => .routine
  | .data => .data
  | _ => .plain

namespace Entry

def form : Entry → Form
  | .table _ => .table
  | .routine _ => .routine
  | .data _ => .data
  | .plain _ => .plain

/-- An entry with nothing known but the history. -/
def ofHistory (history : History) : Form → Entry
  | .table => .table { history }
  | .routine => .routine { history }
  | .data => .data { history }
  | .plain => .plain history

def history : Entry → History
  | .table t => t.history
  | .routine r => r.history
  | .data d => d.history
  | .plain h => h

def name (e : Entry) : String := e.history.name

def table? : Entry → Option Table
  | .table t => some t
  | _ => none

def routine? : Entry → Option Routine
  | .routine r => some r
  | _ => none

def data? : Entry → Option DataScript
  | .data d => some d
  | _ => none

def toJson : Entry → Json
  | .table t => t.toJson
  | .routine r => r.toJson
  | .data d => d.toJson
  | .plain h => h.toJson

/-- The first of the four forms that fits; nothing marks them. -/
def ofJson? (json : Json) : Option Entry :=
  if json.isReadable then
    (Table.ofJson? json).map .table <|> (Routine.ofJson? json).map .routine <|>
      (DataScript.ofJson? json).map .data <|> (History.ofJson? json).map .plain
  else none

end Entry

end ReleaseSchema
