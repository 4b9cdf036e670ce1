/-
Placeholders in scripts, such as `<DB_NAME>`: words in angle brackets that the
installer fills in.
-/
import ReleaseSchema.Distinct
import ReleaseSchema.Path
import ReleaseSchema.SortedMap
import ReleaseSchema.Text.Cursor

namespace ReleaseSchema.Placeholder

open Text

/-- A word in angle brackets. -/
def bracketed? (c : Cursor) : Option (List Char × Cursor) := do
  let (word, c) ← (← c.char? '<').word?
  return (word, ← c.char? '>')

/-- The placeholders of a text, in order, each once. -/
def names (text : List Char) : List String :=
  distinct ((searchAll bracketed? text).map String.ofList)

/-- Files by placeholder. -/
abbrev Uses := SortedMap String (List String)

/-- Notes that a file uses a placeholder. -/
def addUse (file : String) (uses : Uses) (name : String) : Uses :=
  uses.alter name [] (· ++ [file])

/-- Notes the placeholders of a file, if it can be read. -/
def addFile (sources : Sources) (uses : Uses) (file : String) : Uses :=
  match sources file with
  | some text => (names text.toList).foldl (addUse file) uses
  | none => uses

/-- The readable files that use each placeholder, in the order of their first listing. -/
def scan (sources : Sources) (files : List String) : Uses :=
  (distinct files).foldl (addFile sources) .empty

end ReleaseSchema.Placeholder
