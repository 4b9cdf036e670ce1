/-
Letter case beyond ASCII and the camel case of snake_case names. A capital
sigma at the end of a word is lowered to its final form. An underscore
separates words where it is a grapheme cluster of its own.
-/
import ReleaseSchema.Text.Ascii
import ReleaseSchema.Unicode.CaseMap
import ReleaseSchema.Unicode.Grapheme

namespace ReleaseSchema.Text

open Unicode

/-! ## Letter case -/

/-- The image of one character under a case mapping. -/
def mapChar (special : List (Nat × List Nat)) (rows : List CaseRow) (c : Char) : List Char :=
  match special.lookup c.toNat with
  | some image => image.map Char.ofNat
  | none => [Char.ofNat (mapCase rows c.toNat)]

def lowerChar (c : Char) : List Char :=
  if c.toNat < 0x80 then [c.toLower] else mapChar lowerSpecial lowerRows c

def upperChar (c : Char) : List Char :=
  if c.toNat < 0x80 then [c.toUpper] else mapChar upperSpecial upperRows c

/-- The first character that case does not ignore is cased. -/
def meetsCased : List Char → Bool
  | [] => false
  | c :: rest =>
    if inRanges caseIgnorable c.toNat then meetsCased rest else inRanges cased c.toNat

/-- Lowercase of a text whose earlier characters are `passed`, nearest first. -/
def lowerFrom (passed : List Char) : List Char → List Char
  | [] => []
  | c :: rest =>
    let image :=
      if c = 'Σ' then (if meetsCased passed && !meetsCased rest then ['ς'] else ['σ'])
      else lowerChar c
    image ++ lowerFrom (c :: passed) rest

def lower (text : List Char) : List Char := lowerFrom [] text

/-- First character in upper case, the others in lower case. -/
def capitalized : List Char → List Char
  | [] => []
  | c :: rest => upperChar c ++ lower rest

/-! ## Camel case -/

def joinsCluster (c : Char) : Bool := inRanges clusterExtender c.toNat

def drawsNext (c : Char) : Bool := inRanges clusterPrepender c.toNat

/-- The words between separating underscores; `word` is the one under way, backwards, and
`before` the character before the next one. There is one word more than separators. -/
def snakeWordsFrom (before : Option Char) (word : List Char) : List Char → List (List Char)
  | [] => [word.reverse]
  | c :: rest =>
    if c = '_' && !before.any drawsNext && !rest.head?.any joinsCluster then
      word.reverse :: snakeWordsFrom (some c) [] rest
    else snakeWordsFrom (some c) (c :: word) rest

def snakeWords (name : List Char) : List (List Char) := snakeWordsFrom none [] name

/-- The first word in lower case, every other one capitalized, joined with nothing. -/
def camelCase (name : List Char) : List Char :=
  match snakeWords (lowerAscii name) with
  | [] => []
  | first :: others => lower first ++ (others.map capitalized).flatten

end ReleaseSchema.Text
