/-
What stands around a text and between its words. Of blanks, `trim` takes off
those at both ends, `words` cuts at them, and `collapseBlanks` turns each run of
them into one space. Of quotation marks, `unquoteName` takes off one pair, and
`doubled` writes a quote inside a literal twice.
-/
import ReleaseSchema.Text.Character

namespace ReleaseSchema.Text

/-! ## Blanks -/

def trimStart (text : List Char) : List Char := text.dropWhile isBlank

def trimEnd (text : List Char) : List Char := (text.reverse.dropWhile isBlank).reverse

def trim (text : List Char) : List Char := trimEnd (trimStart text)

/-- The maximal runs of characters that are no blanks. -/
def words (text : List Char) : List (List Char) := (text.splitOnP isBlank).filter (!·.isEmpty)

/-- Writes one space for each run of blanks; `inRun` tells that the run under way is written. -/
def collapseFrom (inRun : Bool) : List Char → List Char
  | [] => []
  | c :: rest =>
    if isBlank c then
      if inRun then collapseFrom true rest else ' ' :: collapseFrom true rest
    else c :: collapseFrom false rest

def collapseBlanks (text : List Char) : List Char := collapseFrom false text

/-! ## Quotation marks -/

/-- The text between a leading and a trailing mark, if both are there and are not the same one. -/
def between? (left right : Char) (text : List Char) : Option (List Char) :=
  match text with
  | [] => none
  | c :: inner => if c = left ∧ inner.getLast? = some right then some inner.dropLast else none

/-- An identifier without its pair of double quotes. -/
def unquoteName (name : List Char) : List Char := (between? '"' '"' name).getD name

/-- Every occurrence of the quote written twice. -/
def doubled (quote : Char) : List Char → List Char
  | [] => []
  | c :: rest => if c = quote then c :: c :: doubled quote rest else c :: doubled quote rest

end ReleaseSchema.Text
