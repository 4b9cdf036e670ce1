/-
Cutting SQL texts into tokens. `Token.read?` reads the token that begins with a
given character and leaves no more than came after it (`length_read`), so
`tokenize?` ends. A text that holds an unclosed literal or comment, or a bad
escape, has no tokens.
-/
import ReleaseSchema.Sql.Literal
import ReleaseSchema.Sql.Token
import ReleaseSchema.Text.Search

namespace ReleaseSchema.Sql

open Text

/-! ## Words and numbers -/

def startsWord (c : Char) : Bool := isAlphabetic c || c == '_'

def continuesWord (c : Char) : Bool := isAlphabetic c || isAsciiDigit c || c == '$' || c == '_'

/-- The word that begins with `c`. -/
def wordOf (c : Char) (rest : List Char) : Token × List Char :=
  (.word (c :: rest.takeWhile continuesWord), rest.dropWhile continuesWord)

/-- The exponent of a number with what follows it; nothing unless a digit is in it. -/
def exponentOf (text : List Char) : List Char × List Char :=
  match text with
  | [] => ([], [])
  | e :: rest =>
    if e = 'e' ∨ e = 'E' then
      let sign := rest.take 1 |>.filter fun c => c == '+' || c == '-'
      let rest := rest.drop sign.length
      if (rest.takeWhile isAsciiDigit).isEmpty then ([], text)
      else (e :: sign ++ rest.takeWhile isAsciiDigit, rest.dropWhile isAsciiDigit)
    else ([], text)

/-- A character taken where it stands. -/
def optionalChar (c : Char) (text : List Char) : List Char × List Char :=
  match text with
  | [] => ([], [])
  | x :: rest => if x = c then ([x], rest) else ([], text)

/-- The number that begins a text, or a point with no digit around it. A number may end in `L`;
`0x` begins a literal of hexadecimal digits. -/
def numberOf (text : List Char) : Token × List Char :=
  let whole := text.takeWhile isAsciiDigit
  let rest := text.dropWhile isAsciiDigit
  if whole = ['0'] ∧ rest.head? = some 'x' then
    (.hex (rest.tail.takeWhile isHexDigit), rest.tail.dropWhile isHexDigit)
  else
    let (point, rest) := optionalChar '.' rest
    let mantissa := whole ++ point ++ rest.takeWhile isAsciiDigit
    let rest := rest.dropWhile isAsciiDigit
    if mantissa = ['.'] then (.symbol mantissa, rest)
    else
      let (exponent, rest) := exponentOf rest
      let (mark, rest) := optionalChar 'L' rest
      (.number (mantissa ++ exponent ++ mark), rest)

/-! ## Operators -/

/-- A character that lengthens an operator into one of the database's own. -/
def isOperatorChar (c : Char) : Bool :=
  ['+', '-', '*', '/', '<', '>', '=', '~', '!', '@', '#', '%', '^', '&', '|', '\x60',
    '?'].contains c

/-- The operators, longer ones before their beginnings, and whether operator characters after them
belong to them. -/
def operators : List (String × Bool) :=
  [("->>", true), ("->", true), ("-", true), ("%", true), ("||/", true), ("||", true),
    ("|/", true), ("|", true), ("<=>", true), ("<=", true), ("<>", true), ("<<", true),
    ("<@", true), ("<", true), (">=", true), (">>", true), (">", true), ("&&", true),
    ("&", true), ("~~*", true), ("~~", true), ("~*", true), ("~", true), ("#>>", true),
    ("#>", true), ("#-", true), ("#", true), ("+", false), ("*", false), ("/", false),
    ("=>", false), ("==", false), ("=", false), ("!=", false), ("!!", false), ("!~~*", false),
    ("!~~", false), ("!~*", false), ("!~", false), ("!", false), ("::", false), (":=", false),
    (":", false), ("^@", false), ("^", false), ("@>", false), ("@?", false), ("@@", false),
    ("@", false)]

/-- The operator that begins a text. Both spellings of inequality are one operator. -/
def operator? (text : List Char) : Option (Token × List Char) :=
  match operators.find? fun (op, _) => op.toList.isPrefixOf text with
  | some (op, grows) =>
    let rest := text.drop op.length
    if grows then
      some (.symbol (op.toList ++ rest.takeWhile isOperatorChar), rest.dropWhile isOperatorChar)
    else some (.symbol (if op = "!=" then "<>".toList else op.toList), rest)
  | none => none

/-! ## Dollar signs -/

/-- What begins with a dollar sign: a text between dollar tags, or a placeholder. -/
def dollarOf? (rest : List Char) : Option (Token × List Char) :=
  let isTagChar := fun c => isAlphanumeric c || c == '_'
  let tag := rest.takeWhile isTagChar
  match rest.dropWhile isTagChar with
  | '$' :: more =>
    (splitAt? ('$' :: (tag ++ ['$'])) more).map fun (body, after) => (.dollar tag body, after)
  | more => some (.placeholder tag, more)

/-! ## All tokens -/

/-- The literal that a marking letter begins, if a quote follows it. -/
def marked? (c : Char) (rest : List Char) : Option (Option (Token × List Char)) :=
  match rest with
  | '\'' :: inside =>
    if c = 'b' ∨ c = 'B' then
      some ((quotedFrom? '\'' [] inside).map fun (s, after) => (.bytes '\'' s, after))
    else if c = 'n' ∨ c = 'N' then
      some ((backslashedFrom? [] inside).map fun (s, after) => (.national s, after))
    else if c = 'e' ∨ c = 'E' then
      some ((escapedFrom? [] inside).map fun (s, after) => (.escape s, after))
    else if c = 'x' ∨ c = 'X' then
      some ((backslashedFrom? [] inside).map fun (s, after) => (.hex s, after))
    else none
  | '"' :: inside =>
    if c = 'b' ∨ c = 'B' then
      some ((quotedFrom? '"' [] inside).map fun (s, after) => (.bytes '"' s, after))
    else none
  | '&' :: '\'' :: inside =>
    if c = 'u' ∨ c = 'U' then
      some ((unicodeFrom? [] inside).map fun (s, after) => (.unicode s, after))
    else none
  | _ => none

namespace Token

/-- The token that begins with `c`, and what follows it. -/
def read? (c : Char) (rest : List Char) : Option (Token × List Char) :=
  match marked? c rest with
  | some literal => literal
  | none =>
    if c = '\'' then (quotedFrom? '\'' [] rest).map fun (s, after) => (.string s, after)
    else if c = '"' then (quotedFrom? '"' [] rest).map fun (s, after) => (.quotedName s, after)
    else if isAsciiDigit c || c == '.' then some (numberOf (c :: rest))
    else if c = '-' ∧ rest.head? = some '-' then
      some (.lineComment (lineCommentOf rest.tail).1, (lineCommentOf rest.tail).2)
    else if c = '/' ∧ rest.head? = some '*' then
      (commentFrom? 0 [] rest.tail).map fun (body, after) => (.blockComment body, after)
    else if c = '?' then
      if rest.head? = some '|' ∨ rest.head? = some '&' then
        some (.symbol (c :: rest.take 1), rest.drop 1)
      else some (.symbol [c], rest.drop 1)
    else
      match operator? (c :: rest) with
      | some found => some found
      | none =>
        if startsWord c then some (wordOf c rest)
        else if c = '$' then dollarOf? rest
        else if isBlank c then some (.blank, rest)
        else some (.symbol [c], rest)

end Token

theorem length_optionalChar (c : Char) (text : List Char) :
    (optionalChar c text).2.length ≤ text.length := by
  unfold optionalChar
  split
  · simp
  · split <;> simp

theorem length_exponentOf (text : List Char) : (exponentOf text).2.length ≤ text.length := by
  unfold exponentOf
  split
  · simp
  next e rest =>
    split
    · dsimp only
      split
      · simp
      · refine Nat.le_trans (length_dropWhile_le ..) ?_
        simp only [List.length_drop, List.length_cons]
        omega
    · simp

theorem length_lineCommentOf (text : List Char) : (lineCommentOf text).2.length ≤ text.length := by
  simpa [lineCommentOf] using Nat.le_trans (Nat.sub_le ..) (length_dropWhile_le _ text)

theorem length_numberOf {c : Char} (h : (isAsciiDigit c || c == '.') = true) (rest : List Char) :
    (numberOf (c :: rest)).2.length ≤ rest.length := by
  have hdigit : isAsciiDigit c = true →
      ((c :: rest).dropWhile isAsciiDigit).length ≤ rest.length := fun hc => by
    simpa [hc] using length_dropWhile_le isAsciiDigit rest
  have hpoint : (optionalChar '.' ((c :: rest).dropWhile isAsciiDigit)).2.length ≤ rest.length := by
    by_cases hc : isAsciiDigit c = true
    · exact Nat.le_trans (length_optionalChar ..) (hdigit hc)
    · obtain rfl : c = '.' := by simpa [hc] using h
      simp [optionalChar, hc]
  simp only [numberOf]
  split
  next hex =>
    have hc : isAsciiDigit c = true := by
      cases hc : isAsciiDigit c
      · have := hex.1
        simp [hc] at this
      · rfl
    refine Nat.le_trans (length_dropWhile_le ..) (Nat.le_trans ?_ (hdigit hc))
    simp only [List.length_tail]
    omega
  next =>
    have hmantissa := Nat.le_trans (length_dropWhile_le isAsciiDigit _) hpoint
    split
    · exact hmantissa
    · exact Nat.le_trans (length_optionalChar ..) (Nat.le_trans (length_exponentOf _) hmantissa)

theorem length_of_map {read : Option (List Char × List Char)} {make : List Char → Token}
    {t : Token} {after : List Char} {n : Nat}
    (h : read.map (fun (s, rest) => (make s, rest)) = some (t, after))
    (bound : ∀ s rest, read = some (s, rest) → rest.length ≤ n) : after.length ≤ n := by
  obtain ⟨⟨s, _⟩, hread, hpair⟩ := Option.map_eq_some_iff.1 h
  cases hpair
  exact bound s after hread

theorem length_marked {c : Char} {rest after : List Char} {t : Token}
    (h : marked? c rest = some (some (t, after))) : after.length ≤ rest.length := by
  unfold marked? at h
  split at h
  next inside =>
    refine Nat.le_succ_of_le ?_
    split at h
    · exact length_of_map (Option.some.inj h) fun _ _ => length_quotedFrom
    split at h
    · exact length_of_map (Option.some.inj h) fun _ _ => length_backslashedFrom
    split at h
    · exact length_of_map (Option.some.inj h) fun _ _ => length_escapedFrom
    split at h
    · exact length_of_map (Option.some.inj h) fun _ _ => length_backslashedFrom
    · cases h
  next inside =>
    refine Nat.le_succ_of_le ?_
    split at h
    · exact length_of_map (Option.some.inj h) fun _ _ => length_quotedFrom
    · cases h
  next inside =>
    refine Nat.le_succ_of_le (Nat.le_succ_of_le ?_)
    split at h
    · exact length_of_map (Option.some.inj h) fun _ _ => length_unicodeFrom
    · cases h
  · cases h

theorem operators_ne_empty : ∀ op ∈ operators, 1 ≤ op.1.length := by decide

theorem length_operator {c : Char} {rest after : List Char} {t : Token}
    (h : operator? (c :: rest) = some (t, after)) : after.length ≤ rest.length := by
  unfold operator? at h
  split at h
  next op grows hfind =>
    have := operators_ne_empty _ (List.mem_of_find?_eq_some hfind)
    have hdrop : ((c :: rest).drop op.length).length ≤ rest.length := by
      simp only [List.length_drop, List.length_cons] at *
      omega
    dsimp only at h
    split at h <;> cases h
    · exact Nat.le_trans (length_dropWhile_le ..) hdrop
    · exact hdrop
  · cases h

theorem length_dollarOf {rest after : List Char} {t : Token}
    (h : dollarOf? rest = some (t, after)) : after.length ≤ rest.length := by
  have hdrop := length_dropWhile_le (fun c => isAlphanumeric c || c == '_') rest
  simp only [dollarOf?] at h
  split at h
  next more hmore =>
    have := length_of_map h fun _ _ => length_splitAt
    rw [hmore, List.length_cons] at hdrop
    omega
  · cases h
    exact hdrop

theorem length_read {c : Char} {rest after : List Char} {t : Token}
    (h : Token.read? c rest = some (t, after)) : after.length ≤ rest.length := by
  have htail : rest.tail.length ≤ rest.length := by simp
  unfold Token.read? at h
  split at h
  next literal hmarked => exact length_marked (hmarked.trans (congrArg some h))
  next =>
    split at h
    · exact length_of_map h fun _ _ => length_quotedFrom
    split at h
    · exact length_of_map h fun _ _ => length_quotedFrom
    split at h
    next hnumber =>
      have := length_numberOf hnumber rest
      rwa [Option.some.inj h] at this
    split at h
    · cases h
      exact Nat.le_trans (length_lineCommentOf _) htail
    split at h
    · exact length_of_map h fun _ _ hread => Nat.le_trans (length_commentFrom hread) htail
    split at h
    · split at h <;> cases h <;> simp
    split at h
    next found hoperator =>
      exact length_operator (hoperator.trans (congrArg some (Option.some.inj h)))
    split at h
    · cases h
      exact length_dropWhile_le ..
    split at h
    · exact length_dollarOf h
    split at h <;> cases h <;> exact Nat.le_refl _

/-- The tokens of a text. -/
def tokenize? (text : List Char) : Option (List Token) :=
  match text with
  | [] => some []
  | c :: rest =>
    match _h : Token.read? c rest with
    | some (t, after) => (tokenize? after).map (t :: ·)
    | none => none
termination_by text.length
decreasing_by exact Nat.lt_succ_of_le (length_read _h)

end ReleaseSchema.Sql
