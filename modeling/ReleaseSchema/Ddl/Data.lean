/-
Reading the targets of insert statements out of condensed SQL texts.
-/
import ReleaseSchema.Ddl.Name
import ReleaseSchema.Distinct
import ReleaseSchema.Schema.DataScript
import ReleaseSchema.Text.Trim

namespace ReleaseSchema.Ddl

open Text

/-- A name with the quotes that stand on either side of it. -/
def quotedName? (c : Cursor) : Option (List Char × Cursor) := do
  let (word, after) ← (c.skipChar '"').word?
  return (quoteHere c ++ word ++ quoteHere after, after.skipChar '"')
where
  quoteHere (c : Cursor) : List Char := c.rest.head?.toList.filter (· == '"')

/-- The target of an insert statement, without its schema. -/
def insertTarget? (c : Cursor) : Option (List Char × Cursor) := do
  let c ← c.boundary?
  let c ← wordAndBlanks? "insert" c
  let c ← wordAndBlanks? "into" c
  ((qualifier? c).bind quotedName?).orElse fun _ => quotedName? c

/-- The tables that a condensed text inserts into, in order, each once. -/
def insertTargets (sql : List Char) : List String :=
  distinct ((searchAll insertTarget? sql).map fun name => String.ofList (unquoteName name))

def dataScript (history : History) (sql : List Char) : DataScript :=
  { history, targets := insertTargets sql }

end ReleaseSchema.Ddl
