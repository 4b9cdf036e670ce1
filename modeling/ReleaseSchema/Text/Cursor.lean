/-
A place in a text and the small readers that move it. A reader answers the
place after what it read, or nothing; `find` tries one at every place in turn.
Letters are compared with case ignored, and a word boundary is a place where
exactly one of the two neighbours is a word character.
-/
import ReleaseSchema.Text.Trim

namespace ReleaseSchema.Text

/-- A place in a text: what was passed, nearest character first, and what is still to read. -/
structure Cursor where
  passed : List Char
  rest : List Char
  deriving DecidableEq, Repr

namespace Cursor

/-- The place before the first character. -/
def start (text : List Char) : Cursor := ⟨[], text⟩

/-- Exactly one of the two characters around the place is a word character. -/
def atBoundary (c : Cursor) : Bool := c.passed.head?.any isWord != c.rest.head?.any isWord

def boundary? (c : Cursor) : Option Cursor := if c.atBoundary then some c else none

/-- Moves behind one given character. -/
def char? (x : Char) (c : Cursor) : Option Cursor :=
  match c.rest with
  | [] => none
  | y :: rest => if y = x then some ⟨y :: c.passed, rest⟩ else none

/-- Moves behind a character where it stands, and stays where it does not. -/
def skipChar (x : Char) (c : Cursor) : Cursor := (c.char? x).getD c

/-- Moves behind the longest run of characters that `p` accepts. -/
def skipWhile (p : Char → Bool) (c : Cursor) : Cursor :=
  ⟨(c.rest.takeWhile p).reverse ++ c.passed, c.rest.dropWhile p⟩

/-- The longest run of characters that `p` accepts, which must not be empty. -/
def run? (p : Char → Bool) (c : Cursor) : Option (List Char × Cursor) :=
  if (c.rest.takeWhile p).isEmpty then none else some (c.rest.takeWhile p, c.skipWhile p)

def skipBlanks (c : Cursor) : Cursor := c.skipWhile isBlank

/-- Moves behind one or more blanks. -/
def blanks? (c : Cursor) : Option Cursor := (c.run? isBlank).map (·.2)

/-- A whole word. -/
def word? (c : Cursor) : Option (List Char × Cursor) := c.run? isWord

/-- Moves behind the given lowercase letters, in any case. -/
def letters? : List Char → Cursor → Option Cursor
  | [], c => some c
  | _ :: _, ⟨_, []⟩ => none
  | l :: ls, ⟨passed, x :: rest⟩ =>
    if foldCase x = l then letters? ls ⟨x :: passed, rest⟩ else none

def spelled? (word : String) (c : Cursor) : Option Cursor := c.letters? word.toList

/-- Words with blanks between them, as in `not null`. -/
def phrase? : List String → Cursor → Option Cursor
  | [], c => some c
  | [word], c => c.spelled? word
  | word :: next :: more, c => do
    let c ← c.spelled? word
    let c ← c.blanks?
    c.phrase? (next :: more)

/-- A phrase from one word boundary to another. -/
def wholePhrase? (words : List String) (c : Cursor) : Option Cursor := do
  let c ← c.boundary?
  let c ← c.phrase? words
  c.boundary?

/-- Tries a reader here and then at every later place, the end included. -/
def findFrom (reader : Cursor → Option α) (passed : List Char) :
    List Char → Option (Cursor × α)
  | [] => (reader ⟨passed, []⟩).map (⟨passed, []⟩, ·)
  | x :: rest =>
    match reader ⟨passed, x :: rest⟩ with
    | some a => some (⟨passed, x :: rest⟩, a)
    | none => findFrom reader (x :: passed) rest

/-- The first place at or after `c` where the reader answers, and the answer. -/
def find? (reader : Cursor → Option α) (c : Cursor) : Option (Cursor × α) :=
  findFrom reader c.passed c.rest

end Cursor

/-- The place and answer of a reader's first success in a text. -/
def search? (reader : Cursor → Option α) (text : List Char) : Option (Cursor × α) :=
  (Cursor.start text).find? reader

/-- A reader succeeds at some place of the text. -/
def occurs (reader : Cursor → Option α) (text : List Char) : Bool :=
  (search? reader text).isSome

/-- The answers of a reader, each search starting where the one before ended. A reader that
answers moves forward, so `fuel` as large as the text suffices. -/
def searchAllFrom (reader : Cursor → Option (α × Cursor)) : Nat → Cursor → List α
  | 0, _ => []
  | fuel + 1, c =>
    match c.find? reader with
    | none => []
    | some (_, a, next) => a :: searchAllFrom reader fuel next

def searchAll (reader : Cursor → Option (α × Cursor)) (text : List Char) : List α :=
  searchAllFrom reader (text.length + 1) (Cursor.start text)

end ReleaseSchema.Text
