/-
Paths as texts. A path is a lead (a slash, a dot of its own, or nothing) and a
body cut at slashes; empty and dot segments of the body are insignificant. Two
texts with the same components name the same file (`samePath`), so the texts of
files are given by path (`Sources`).
-/
import ReleaseSchema.Text.Search

namespace ReleaseSchema

namespace Path

/-- The pieces between the slashes of a text; there is one more than slashes. -/
def segments (text : List Char) : List (List Char) := text.splitOn '/'

def joinSegments (pieces : List (List Char)) : List Char := ['/'].intercalate pieces

/-- Where a path starts from. -/
inductive Lead where
  | root
  | here
  | none
  deriving DecidableEq, Repr

def Lead.chars : Lead → List Char
  | .root => ['/']
  | .here => ['.']
  | .none => []

/-- The lead of a path and its body. -/
def split : List Char → Lead × List Char
  | '/' :: body => (.root, body)
  | ['.'] => (.here, [])
  | '.' :: '/' :: body => (.here, '/' :: body)
  | body => (.none, body)

/-- Empty and dot segments move nowhere. -/
def isIdle (segment : List Char) : Bool := segment.isEmpty || segment == ['.']

/-- The segments of a body up to its last significant one, backwards. -/
def significantReversed (body : List Char) : List (List Char) :=
  (segments body).reverse.dropWhile isIdle

/-- The lead and the significant segments of a path. -/
def components (path : List Char) : Lead × List (List Char) :=
  ((split path).1, (segments (split path).2).filter (!isIdle ·))

/-- Two texts name the same file whatever the disk holds. -/
def samePath (a b : List Char) : Bool := components a == components b

/-- The path without its last component and what followed it. -/
def parent? (path : List Char) : Option (List Char) :=
  let (lead, body) := split path
  match significantReversed body, lead with
  | _ :: before, _ => some (lead.chars ++ joinSegments (before.dropWhile isIdle).reverse)
  | [], .here => some []
  | [], _ => none

/-- The parent taken `n` times. -/
def ancestor? : Nat → List Char → Option (List Char)
  | 0, path => some path
  | n + 1, path => (parent? path).bind (ancestor? n)

/-- The last component, unless it leads upwards. -/
def fileName? (path : List Char) : Option (List Char) :=
  match significantReversed (split path).2 with
  | [] => none
  | last :: _ => if last = ['.', '.'] then none else some last

/-- A file name up to its last dot, if a character stands before that. -/
def stem (name : List Char) : List Char :=
  match name.reverse.dropWhile (· != '.') with
  | [] => name
  | [_] => name
  | _ :: before => before.reverse

/-- A path taken from a base. An absolute path stays as it is. -/
def join (base path : List Char) : List Char :=
  match path with
  | '/' :: _ => path
  | _ =>
    match base.getLast? with
    | none => path
    | some last => if last = '/' then base ++ path else base ++ '/' :: path

/-- The path with slashes for backslashes. -/
def normalize (path : List Char) : List Char := Text.replaceChar '\\' '/' path

end Path

/-! ## Texts by path -/

/-- The text of the file at a path, if it can be read. -/
abbrev Sources := String → Option String

namespace Sources

/-- The given files and no others. Paths with the same components name one file, and of two files
given for it the later counts. -/
def ofFiles (files : List (String × String)) : Sources := fun path =>
  (files.reverse.find? fun (file, _) => Path.samePath file.toList path.toList).map (·.2)

end Sources

end ReleaseSchema
