/-
The insides of SQL literals and comments. Each reader starts behind the opening
mark and answers the text that the literal stands for and what follows its
closing mark; a literal that is not closed, or that holds a bad escape, is
refused. What follows is never longer than what was given, which is what the
lemmas say.
-/
import ReleaseSchema.Text.Character

namespace ReleaseSchema.Sql

/-! ## Quoted texts -/

/-- A text in which a doubled quote stands for one. -/
def quotedFrom? (quote : Char) (read : List Char) : List Char → Option (List Char × List Char)
  | [] => none
  | c :: rest =>
    if c = quote then
      match rest with
      | [] => some (read.reverse, [])
      | next :: more =>
        if next = quote then quotedFrom? quote (quote :: read) more
        else some (read.reverse, next :: more)
    else quotedFrom? quote (c :: read) rest

/-- The character that a letter after a backslash stands for. -/
def simpleEscape : Char → Char
  | '0' => '\x00'
  | 'a' => '\x07'
  | 'b' => '\x08'
  | 'f' => '\x0c'
  | 'n' => '\n'
  | 'r' => '\r'
  | 't' => '\t'
  | 'Z' => '\x1a'
  | c => c

/-- A text in single quotes with a letter after each backslash. -/
def backslashedFrom? (read : List Char) : List Char → Option (List Char × List Char)
  | [] => none
  | '\'' :: '\'' :: rest => backslashedFrom? ('\'' :: read) rest
  | '\'' :: rest => some (read.reverse, rest)
  | '\\' :: c :: rest => backslashedFrom? (simpleEscape c :: read) rest
  | '\\' :: [] => none
  | c :: rest => backslashedFrom? (c :: read) rest

theorem length_quotedFrom {quote : Char} {read text s rest : List Char}
    (h : quotedFrom? quote read text = some (s, rest)) : rest.length ≤ text.length := by
  fun_induction quotedFrom? quote read text <;> grind

theorem length_backslashedFrom {read text s rest : List Char}
    (h : backslashedFrom? read text = some (s, rest)) : rest.length ≤ text.length := by
  fun_induction backslashedFrom? read text <;> grind

/-! ## Character codes -/

def isOctalDigit (c : Char) : Bool := '0' ≤ c && c ≤ '7'

/-- The number that digits of a base spell, none of which is out of range. -/
def numberOf? (base : Nat) (digits : List Char) : Option Nat :=
  digits.foldlM (fun n c => (Text.hexValue? c).map (base * n + ·)) 0

/-- The character of a code point, if there is one. -/
def char? (code : Nat) : Option Char :=
  if code.isValidChar then some (Char.ofNat code) else none

/-- The next `n` characters and the rest, if there are that many. -/
def take? (n : Nat) (text : List Char) : Option (List Char × List Char) :=
  if n ≤ text.length then some (text.take n, text.drop n) else none

theorem length_take {n : Nat} {text s rest : List Char} (h : take? n text = some (s, rest)) :
    rest.length ≤ text.length := by
  simp only [take?] at h
  split at h
  · cases h; simp
  · cases h

/-! ## Escape strings -/

/-- The character of a code written with exactly `n` hexadecimal digits, the first of which may be a
plus sign instead. -/
def codeEscape? (n : Nat) (text : List Char) : Option (Char × List Char) := do
  let (taken, rest) ← take? n text
  let digits := if taken.head? = some '+' then taken.tail else taken
  let code ← numberOf? 16 digits
  return (← char? code, rest)

/-- The character of a byte; only ASCII bytes have one. -/
def byteChar? (base : Nat) (digits : List Char) : Option Char := do
  let n ← numberOf? base digits
  if n % 256 ≤ 127 then some (Char.ofNat (n % 256)) else none

/-- The escape after a backslash in a string marked with `E`. -/
def escape? : List Char → Option (Char × List Char)
  | [] => none
  | 'b' :: rest => some ('\x08', rest)
  | 'f' :: rest => some ('\x0c', rest)
  | 'n' :: rest => some ('\n', rest)
  | 'r' :: rest => some ('\r', rest)
  | 't' :: rest => some ('\t', rest)
  | 'u' :: rest => codeEscape? 4 rest
  | 'U' :: rest => codeEscape? 8 rest
  | 'x' :: rest =>
    let digits := (rest.take 2).takeWhile Text.isHexDigit
    if digits.isEmpty then some ('x', rest)
    else (byteChar? 16 digits).map (·, rest.drop digits.length)
  | c :: rest =>
    if isOctalDigit c then
      let digits := (rest.take 2).takeWhile isOctalDigit
      (byteChar? 8 (c :: digits)).map (·, rest.drop digits.length)
    else some (c, rest)

theorem length_codeEscape {n : Nat} {text rest : List Char} {c : Char}
    (h : codeEscape? n text = some (c, rest)) : rest.length ≤ text.length := by
  simp only [codeEscape?, Option.bind_eq_bind, Option.bind_eq_some_iff, Option.pure_def,
    Option.some.injEq, Prod.mk.injEq] at h
  obtain ⟨⟨taken, after⟩, htake, _, _, _, _, _, rfl⟩ := h
  exact length_take htake

theorem length_escape {text rest : List Char} {c : Char} (h : escape? text = some (c, rest)) :
    rest.length ≤ text.length := by
  unfold escape? at h
  split at h
  case h_7 => exact Nat.le_succ_of_le (length_codeEscape h)
  case h_8 => exact Nat.le_succ_of_le (length_codeEscape h)
  all_goals grind [Option.map_eq_some_iff, List.length_drop]

/-- The inside of a string marked with `E`. No escape may give the character zero. -/
def escapedFrom? (read : List Char) (text : List Char) : Option (List Char × List Char) :=
  match text with
  | [] => none
  | '\'' :: '\'' :: rest => escapedFrom? ('\'' :: read) rest
  | '\'' :: rest => some (read.reverse, rest)
  | '\\' :: rest =>
    match _h : escape? rest with
    | some (c, after) => if c = '\x00' then none else escapedFrom? (c :: read) after
    | none => none
  | c :: rest => escapedFrom? (c :: read) rest
termination_by text.length
decreasing_by
  · exact Nat.lt_succ_of_lt (Nat.lt_succ_self _)
  · exact Nat.lt_succ_of_le (length_escape _h)
  · exact Nat.lt_succ_self _

theorem length_escapedFrom {read text s rest : List Char}
    (h : escapedFrom? read text = some (s, rest)) : rest.length ≤ text.length := by
  fun_induction escapedFrom? read text with
  | case5 _ _ _ _ he _ ih =>
    have := ih h
    have := length_escape he
    simp only [List.length_cons]
    omega
  | _ => grind

/-! ## Strings of code points -/

/-- The code point after a backslash in a string marked with `U&`. -/
def codePoint? : List Char → Option (Char × List Char)
  | '\\' :: rest => some ('\\', rest)
  | '+' :: rest => do
    let (digits, rest) ← take? 6 rest
    return (← char? (← numberOf? 16 digits), rest)
  | text => do
    let (digits, rest) ← take? 4 text
    return (← char? (← numberOf? 16 digits), rest)

theorem length_codePoint {text rest : List Char} {c : Char} (h : codePoint? text = some (c, rest)) :
    rest.length ≤ text.length := by
  unfold codePoint? at h
  split at h
  · cases h; simp
  all_goals
    simp only [Option.bind_eq_bind, Option.bind_eq_some_iff, Option.pure_def, Option.some.injEq,
      Prod.mk.injEq] at h
    obtain ⟨⟨_, after⟩, htake, _, _, _, _, _, rfl⟩ := h
    have := length_take htake
    simp only [List.length_cons] at *
    omega

/-- The inside of a string marked with `U&`. -/
def unicodeFrom? (read : List Char) (text : List Char) : Option (List Char × List Char) :=
  match text with
  | [] => none
  | '\'' :: '\'' :: rest => unicodeFrom? ('\'' :: read) rest
  | '\'' :: rest => some (read.reverse, rest)
  | '\\' :: rest =>
    match _h : codePoint? rest with
    | some (c, after) => unicodeFrom? (c :: read) after
    | none => none
  | c :: rest => unicodeFrom? (c :: read) rest
termination_by text.length
decreasing_by
  · exact Nat.lt_succ_of_lt (Nat.lt_succ_self _)
  · exact Nat.lt_succ_of_le (length_codePoint _h)
  · exact Nat.lt_succ_self _

theorem length_unicodeFrom {read text s rest : List Char}
    (h : unicodeFrom? read text = some (s, rest)) : rest.length ≤ text.length := by
  fun_induction unicodeFrom? read text with
  | case4 _ _ _ _ he ih =>
    have := ih h
    have := length_codePoint he
    simp only [List.length_cons]
    omega
  | _ => grind

/-! ## Comments -/

/-- The inside of a block comment. `inner` counts the comments begun inside it. -/
def commentFrom? (inner : Nat) (read : List Char) : List Char → Option (List Char × List Char)
  | [] => none
  | '/' :: '*' :: rest => commentFrom? (inner + 1) ('*' :: '/' :: read) rest
  | '*' :: '/' :: rest =>
    match inner with
    | 0 => some (read.reverse, rest)
    | outer + 1 => commentFrom? outer ('/' :: '*' :: read) rest
  | c :: rest => commentFrom? inner (c :: read) rest

theorem length_commentFrom {inner : Nat} {read text s rest : List Char}
    (h : commentFrom? inner read text = some (s, rest)) : rest.length ≤ text.length := by
  fun_induction commentFrom? inner read text <;> grind

/-- A line comment takes in the line end that closes it. -/
def lineCommentOf (text : List Char) : List Char × List Char :=
  let body := text.takeWhile fun c => c != '\n' && c != '\r'
  let rest := text.dropWhile fun c => c != '\n' && c != '\r'
  (body ++ rest.take 1, rest.drop 1)

end ReleaseSchema.Sql
