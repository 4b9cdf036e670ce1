/-
Entries read from the latest files of objects.
-/
import ReleaseSchema.Ddl.Data
import ReleaseSchema.Ddl.Routine
import ReleaseSchema.Ddl.Table
import ReleaseSchema.Path
import ReleaseSchema.Schema.Entry
import ReleaseSchema.Sql.Condense

namespace ReleaseSchema.Ddl

/-- The entry that a condensed text defines. -/
def entryOfText (history : History) (sql : List Char) : Form → Entry
  | .table => .table (table history sql)
  | .routine => .routine (routine history sql)
  | .data => .data (dataScript history sql)
  | .plain => .plain history

/-- The entry of an object in the form of its kind. A plain entry needs no file, and an object whose
latest file cannot be read keeps its history and nothing else. -/
def entry (sources : Sources) (kind : Kind) (history : History) : Entry :=
  match kind.form with
  | .plain => .plain history
  | form =>
    match sources history.latestFile with
    | some text => entryOfText history (Sql.condense text.toList) form
    | none => Entry.ofHistory history form

end ReleaseSchema.Ddl
