/-
The layout of a text has no part in what it is condensed to: words, whole
numbers, strings and punctuation marks that stand in the same order are
condensed to the same text, whatever blanks and comments without tags stand
between them (`condense_of_layouts`).

What stands between tokens is a `Filler`, and is read as one token wherever it
is written (`Filler.first?_render`). A token is read as it is written if
nothing or a filler follows it (`Token.first?_of_isBasic`), so the tokens of a
layout are known, and each filler leaves nothing but the mark that the next
token stands apart.
-/
import ReleaseSchema.Proofs.Sql.Condense
import ReleaseSchema.Proofs.Text.Search

namespace ReleaseSchema.Sql

open Text Token

/-! ## Between tokens -/

/-- What stands between tokens: a blank, a block comment, or a line comment with the line end that
closes it. -/
inductive Filler where
  | blank (c : Char)
  | block (body : List Char)
  | line (body : List Char)
  deriving DecidableEq, Repr

namespace Filler

def render : Filler → List Char
  | blank c => [c]
  | block body => '/' :: '*' :: (body ++ ['*', '/'])
  | line body => '-' :: '-' :: (body ++ ['\n'])

/-- The token that is read. -/
def token : Filler → Token
  | blank _ => .blank
  | block body => .blockComment body
  | line body => .lineComment (body ++ ['\n'])

/-- A comment ends at the mark that is written behind it, and begins no other one. -/
def IsPlain : Filler → Prop
  | blank c => isBlank c = true
  | block body => Closes ['*', '/'] body ∧ ¬['/', '*'] <:+: body ++ ['*', '/']
  | line body => '\n' ∉ body ∧ '\r' ∉ body

/-- No number sign in it promises a tag. -/
def IsUntagged : Filler → Prop
  | blank _ => True
  | block body | line body => '#' ∉ body

instance : (f : Filler) → Decidable f.IsPlain
  | blank c => inferInstanceAs (Decidable (isBlank c = true))
  | block body => inferInstanceAs
      (Decidable (Closes ['*', '/'] body ∧ ¬['/', '*'] <:+: body ++ ['*', '/']))
  | line body => inferInstanceAs (Decidable ('\n' ∉ body ∧ '\r' ∉ body))

instance : (f : Filler) → Decidable f.IsUntagged
  | blank _ => isTrue trivial
  | block body | line body => inferInstanceAs (Decidable ('#' ∉ body))

end Filler

/-- A character that a filler may begin with. -/
def beginsFiller (c : Char) : Bool := isBlank c || c == '/' || c == '-'

section Filler

variable {f : Filler} {body rest : List Char} {p : Char → Bool}

theorem head_render (plain : f.IsPlain) : ∃ c more, f.render = c :: more ∧ beginsFiller c = true := by
  cases f with
  | blank c => exact ⟨c, [], rfl, by rw [beginsFiller, show isBlank c = true from plain]; rfl⟩
  | block body => exact ⟨'/', _, rfl, by decide⟩
  | line body => exact ⟨'-', _, rfl, by decide⟩

theorem of_beginsFiller {c : Char} (h : beginsFiller c = true)
    (blanks : ∀ n ∈ blankCodes, p (Char.ofNat n) = false) (slash : p '/' = false)
    (dash : p '-' = false) : p c = false := by
  simp only [beginsFiller, Bool.or_eq_true, beq_iff_eq] at h
  rcases h with (hblank | rfl) | rfl
  · exact of_isBlank hblank (P := fun c => p c = false) blanks
  · exact slash
  · exact dash

/-- A run ends before a filler if none of the characters that begin one continues it. -/
theorem stops_of_filler (h : Stops (!beginsFiller ·) rest)
    (blanks : ∀ n ∈ blankCodes, p (Char.ofNat n) = false) (slash : p '/' = false)
    (dash : p '-' = false) : Stops p rest :=
  fun c hc => of_beginsFiller (by simpa using h c hc) blanks slash dash

theorem line_run (h : '\n' ∉ body ∧ '\r' ∉ body) : ∀ c ∈ body, (c != '\n' && c != '\r') = true := by
  intro c hc
  simp only [Bool.and_eq_true, bne_iff_ne]
  exact ⟨fun hline => h.1 (hline ▸ hc), fun hreturn => h.2 (hreturn ▸ hc)⟩

theorem Filler.first?_render (plain : f.IsPlain) (rest : List Char) :
    first? (f.render ++ rest) = some (f.token, rest) := by
  cases f with
  | blank c => exact first?_blank plain rest
  | block body =>
    obtain ⟨closed, noOther⟩ := plain
    have read := @commentFrom?_closed [] body closed noOther rest
    change read? '/' ('*' :: (body ++ ['*', '/'] ++ rest)) = _
    rw [read?_block, List.append_assoc, read]
    rfl
  | line body =>
    have stop : Stops (fun c => c != '\n' && c != '\r') ('\n' :: rest) := stops_cons.2 (by decide)
    change read? '-' ('-' :: (body ++ ['\n'] ++ rest)) = _
    rw [read?_line, List.append_assoc, List.singleton_append, lineCommentOf,
      takeWhile_run (line_run plain) stop, dropWhile_run (line_run plain) stop]
    rfl

end Filler

/-! ## Tokens -/

section Token

variable {c : Char} {t : Token} {rest digits : List Char}

/-- The characters that stand alone between words. -/
def isPunctuation (c : Char) : Bool := c == '(' || c == ')' || c == ',' || c == ';'

/-- A word, a whole number, a string or a punctuation mark. -/
def Token.IsBasic : Token → Prop
  | .word (c :: text) => startsWord c = true ∧ text.all continuesWord = true
  | .number digits => digits ≠ [] ∧ digits.all isAsciiDigit = true
  | .string _ => True
  | .symbol [c] => isPunctuation c = true
  | _ => False

instance : DecidablePred Token.IsBasic
  | .word (c :: text) =>
    inferInstanceAs (Decidable (startsWord c = true ∧ text.all continuesWord = true))
  | .number digits => inferInstanceAs (Decidable (digits ≠ [] ∧ digits.all isAsciiDigit = true))
  | .string _ => isTrue trivial
  | .symbol [c] => inferInstanceAs (Decidable (isPunctuation c = true))
  | .word [] | .symbol [] | .symbol (_ :: _ :: _) | .blank | .lineComment _ | .blockComment _
  | .quotedName _ | .national _ | .escape _ | .unicode _ | .hex _ | .bytes _ _ | .dollar _ _
  | .placeholder _ => isFalse id

theorem first?_punctuation (h : isPunctuation c = true) (rest : List Char) :
    first? (c :: rest) = some (.symbol [c], rest) := by
  have other : c ∉ "bBnNeExXuU".toList ∧ isAsciiDigit c = false ∧ c ∉ "'\".-/?".toList ∧
      operator? [c] = none ∧ startsWord c = false ∧ c ≠ '$' ∧ isBlank c = false := by
    simp only [isPunctuation, Bool.or_eq_true, beq_iff_eq] at h
    rcases h with ((rfl | rfl) | rfl) | rfl <;> decide +kernel
  obtain ⟨mark, digit, sign, noOperator, word, dollar, blank⟩ := other
  rw [first?_eq_plain? (marked?_eq_none mark rest) digit sign, plain?,
    operator?_eq_none noOperator rest]
  simp only [word, blank, Bool.false_eq_true, if_false, if_neg dollar]

theorem startsWord_of_isAsciiDigit (h : isAsciiDigit c = true) : startsWord c = false := by
  have all : ∀ n < 128, isAsciiDigit (Char.ofNat n) = true → startsWord (Char.ofNat n) = false := by
    decide
  have small : c.toNat < 128 := by
    simp only [isAsciiDigit, Char.isDigit, Bool.and_eq_true, decide_eq_true_eq] at h
    have := UInt32.le_iff_toNat_le.1 h.2
    exact Nat.lt_of_le_of_lt this (by decide)
  have := all c.toNat small
  rw [Char.ofNat_toNat] at this
  exact this h

theorem first?_word (h : startsWord c = true) (unmarked : marked? c rest = none) :
    first? (c :: rest) = some (wordOf c rest) := by
  have neWord : ∀ x, startsWord x = false → c ≠ x := by
    rintro x hx rfl
    rw [h] at hx
    cases hx
  have digit : isAsciiDigit c = false := by
    rw [← Bool.not_eq_true]
    intro hdigit
    rw [startsWord_of_isAsciiDigit hdigit] at h
    cases h
  have sign : c ∉ "'\".-/?".toList := by
    have signs : ("'\".-/?".toList.all fun x => !startsWord x) = true := by decide
    exact fun hc => neWord c (by simpa using List.all_eq_true.1 signs c hc) rfl
  have noOperator : operator? [c] = none := by
    have starts : ∀ op ∈ operators, op.1.toList.head?.any (!startsWord ·) = true := by decide
    refine operator?_of_no_prefix fun op hop hprefix => ?_
    obtain ⟨x, hx, hword⟩ := (Option.any_eq_true _ _).1 (starts op hop)
    obtain ⟨more, hmore⟩ := List.head?_eq_some_iff.1 hx
    rw [hmore] at hprefix
    exact neWord x (by simpa using hword) (List.cons_prefix_cons.1 hprefix).1.symm
  rw [first?_eq_plain? unmarked digit sign, plain?, operator?_eq_none noOperator rest]
  simp only [if_pos h]

/-- A character that may stand behind a letter that marks a literal. -/
def followsMark (c : Char) : Bool := c == '\'' || c == '"' || c == '&'

theorem marked?_of_stops (h : Stops followsMark rest) (c : Char) : marked? c rest = none := by
  rw [marked?_eq_none_iff]
  rintro (⟨-, more, rfl⟩ | ⟨-, more, rfl⟩ | ⟨-, more, rfl⟩)
  · exact absurd (stops_cons.1 h) (by decide)
  · exact absurd (stops_cons.1 h) (by decide)
  · exact absurd (stops_cons.1 h) (by decide)

theorem followsMark_of_continuesWord (h : continuesWord c = true) : followsMark c = false := by
  rw [← Bool.not_eq_true]
  intro hmark
  simp only [followsMark, Bool.or_eq_true, beq_iff_eq] at hmark
  rcases hmark with (rfl | rfl) | rfl
  · exact absurd h (by decide)
  · exact absurd h (by decide)
  · exact absurd h (by decide)

theorem optionalChar_of_stops (h : Stops (· == c) rest) : optionalChar c rest = ([], rest) := by
  cases rest with
  | nil => rfl
  | cons x rest =>
    have hx : x ≠ c := by simpa using stops_cons.1 h
    rw [optionalChar, if_neg hx]

theorem numberOf_digits (hne : digits ≠ []) (hdigits : ∀ x ∈ digits, isAsciiDigit x = true)
    (h : Stops (!beginsFiller ·) rest) : numberOf (digits ++ rest) = (.number digits, rest) := by
  have stop : ∀ x, beginsFiller x = false → Stops (· == x) rest := fun x hx =>
    h.imp fun c hc => by
      rw [beq_iff_eq.1 hc, hx]
      rfl
  have digit : Stops isAsciiDigit rest := stops_of_filler h (by decide) (by decide) (by decide)
  have noHex : ¬(digits = ['0'] ∧ rest.head? = some 'x') := by
    rintro ⟨-, hx⟩
    exact absurd (stop 'x' (by decide) 'x' hx) (by decide)
  have noExponent : exponentOf rest = ([], rest) := by
    refine exponentOf_of_not fun hexponent => ?_
    have letter : ∀ e, e = 'e' ∨ e = 'E' → beginsFiller e = false := by
      rintro e (rfl | rfl) <;> decide
    cases hexponent with
    | unsigned he _ => exact absurd (stops_cons.1 h) (by simp [letter _ he])
    | signed he _ _ => exact absurd (stops_cons.1 h) (by simp [letter _ he])
  have noPoint : digits ≠ ['.'] := by
    rintro rfl
    exact absurd (hdigits '.' List.mem_cons_self) (by decide)
  simp only [numberOf, takeWhile_run hdigits digit, dropWhile_run hdigits digit, if_neg noHex,
    optionalChar_of_stops (stop '.' (by decide)), digit.takeWhile, digit.dropWhile,
    List.append_nil, if_neg noPoint, noExponent, optionalChar_of_stops (stop 'L' (by decide))]

theorem first?_number (hne : digits ≠ []) (hdigits : ∀ x ∈ digits, isAsciiDigit x = true)
    (h : Stops (!beginsFiller ·) rest) : first? (digits ++ rest) = some (.number digits, rest) := by
  have number := numberOf_digits hne hdigits h
  obtain ⟨d, digits, rfl⟩ := List.exists_cons_of_ne_nil hne
  have hd : isAsciiDigit d = true := hdigits d List.mem_cons_self
  have other : ("bBnNeExXuU'\"".toList.all fun x => !isAsciiDigit x) = true := by decide
  have neDigit : ∀ x ∈ "bBnNeExXuU'\"".toList, d ≠ x := by
    rintro x hx rfl
    have noDigit : isAsciiDigit d = false := by simpa using List.all_eq_true.1 other d hx
    rw [noDigit] at hd
    cases hd
  have unmarked : marked? d (digits ++ rest) = none := by
    refine marked?_eq_none (fun hmark => ?_) _
    exact neDigit d (List.mem_append_left ['\'', '"'] hmark) rfl
  rw [List.cons_append] at number ⊢
  rw [first?, read?, unmarked]
  simp only [if_neg (neDigit '\'' (by decide)), if_neg (neDigit '"' (by decide)), hd, Bool.true_or,
    if_true, number]

/-- A basic token is read as it is written in front of a filler. -/
theorem Token.first?_of_isBasic (basic : t.IsBasic) (h : Stops (!beginsFiller ·) rest) :
    first? (t.render ++ rest) = some (t, rest) := by
  match t, basic with
  | .word (c :: text), ⟨start, all⟩ =>
    have run := List.all_eq_true.1 all
    have stop : Stops continuesWord rest :=
      stops_of_filler h (by decide +kernel) (by decide) (by decide)
    have unmarked : marked? c (text ++ rest) = none := by
      refine marked?_of_stops ?_ c
      cases text with
      | nil => exact stops_of_filler h (by decide) (by decide) (by decide)
      | cons x text => exact stops_cons.2 (followsMark_of_continuesWord (run x List.mem_cons_self))
    change first? (c :: (text ++ rest)) = _
    rw [first?_word start unmarked, wordOf, takeWhile_run run stop, dropWhile_run run stop]
  | .number digits, ⟨hne, hdigits⟩ => exact first?_number hne (List.all_eq_true.1 hdigits) h
  | .string text, _ =>
    have stop : Stops (· == '\'') rest := stops_of_filler h (by decide) (by decide) (by decide)
    have read := @quotedFrom?_doubled '\'' [] rest text stop
    change read? '\'' (doubled '\'' text ++ ['\''] ++ rest) = _
    rw [read?_single, List.append_assoc, List.singleton_append, read]
    rfl
  | .symbol [c], mark => exact first?_punctuation mark rest

end Token

/-! ## Gaps -/

def gapText (gap : List Filler) : List Char := gap.flatMap Filler.render

theorem gapText_cons (f : Filler) (gap : List Filler) :
    gapText (f :: gap) = f.render ++ gapText gap := List.flatMap_cons

/-- Blanks and comments without tags. -/
def IsPlainGap (gap : List Filler) : Prop := ∀ f ∈ gap, f.IsPlain ∧ f.IsUntagged

instance : DecidablePred IsPlainGap :=
  fun gap => inferInstanceAs (Decidable (∀ f ∈ gap, f.IsPlain ∧ f.IsUntagged))

section Gap

variable {f : Filler} {gap : List Filler} {rest : List Char} {tokens : List Token}

theorem tokenize?_gap (plain : ∀ f ∈ gap, f.IsPlain) (rest : List Char) :
    tokenize? (gapText gap ++ rest) = (tokenize? rest).map (gap.map Filler.token ++ ·) := by
  induction gap with
  | nil => simp [gapText]
  | cons f gap ih =>
    have first := Filler.first?_render (plain f List.mem_cons_self) (gapText gap ++ rest)
    have behind := ih fun other hother => plain other (List.mem_cons_of_mem _ hother)
    rw [gapText_cons, List.append_assoc, tokenize?_of_first? first, behind, Option.map_map]
    rfl

theorem stops_gapText (plain : IsPlainGap gap) (hne : gap ≠ []) (rest : List Char) :
    Stops (!beginsFiller ·) (gapText gap ++ rest) := by
  obtain ⟨f, gap, rfl⟩ := List.exists_cons_of_ne_nil hne
  obtain ⟨c, more, hrender, hc⟩ := head_render (plain f List.mem_cons_self).1
  rw [gapText_cons, hrender]
  exact stops_cons.2 (by simp [hc])

theorem keptComment?_eq_none {body : List Char} (h : '#' ∉ body) : keptComment? body = none := by
  rw [keptComment?, if_neg (by simpa using h)]

theorem condenseFrom_filler (untagged : f.IsUntagged) (started apart : Bool) (tokens : List Token) :
    condenseFrom started apart (f.token :: tokens) = condenseFrom started true tokens := by
  cases f with
  | blank c => rfl
  | block body =>
    have dropped : keptComment? body = none := keptComment?_eq_none untagged
    rw [Filler.token, condenseFrom, dropped]
  | line body =>
    have number : '#' ∉ body := untagged
    have dropped : keptComment? (body ++ ['\n']) = none := keptComment?_eq_none (by simpa using number)
    rw [Filler.token, condenseFrom, dropped]

/-- A gap leaves nothing but the mark that the next token stands apart. -/
theorem condenseFrom_gap (plain : IsPlainGap gap) (started apart : Bool) (tokens : List Token) :
    condenseFrom started apart (gap.map Filler.token ++ tokens) =
      condenseFrom started (apart || !gap.isEmpty) tokens := by
  induction gap generalizing apart with
  | nil => simp
  | cons f gap ih =>
    have behind := ih (fun other hother => plain other (List.mem_cons_of_mem _ hother)) true
    rw [List.map_cons, List.cons_append, condenseFrom_filler (plain f List.mem_cons_self).2, behind]
    simp

end Gap

/-! ## Layouts -/

/-- A token and what stands behind it. -/
abbrev Cell := Token × List Filler

/-- Tokens in order, with what stands in front of the first one and behind each. -/
structure Layout where
  lead : List Filler
  cells : List Cell

def cellsText (cells : List Cell) : List Char :=
  cells.flatMap fun cell => cell.1.render ++ gapText cell.2

/-- The tokens that are read, with those of the gaps. -/
def cellsTokens (cells : List Cell) : List Token :=
  cells.flatMap fun cell => cell.1 :: cell.2.map Filler.token

theorem cellsText_cons (cell : Cell) (cells : List Cell) :
    cellsText (cell :: cells) = cell.1.render ++ (gapText cell.2 ++ cellsText cells) := by
  rw [cellsText, List.flatMap_cons, List.append_assoc]
  rfl

theorem cellsTokens_cons (cell : Cell) (cells : List Cell) :
    cellsTokens (cell :: cells) = cell.1 :: (cell.2.map Filler.token ++ cellsTokens cells) :=
  List.flatMap_cons

/-- Basic tokens with something between any two of them. -/
structure IsPlainRow (cells : List Cell) : Prop where
  basic : ∀ cell ∈ cells, cell.1.IsBasic
  gaps : ∀ cell ∈ cells, IsPlainGap cell.2
  apart : cells.IsChain fun cell _ => cell.2 ≠ []

instance : DecidablePred IsPlainRow := fun cells =>
  decidable_of_iff
    ((∀ cell ∈ cells, cell.1.IsBasic) ∧ (∀ cell ∈ cells, IsPlainGap cell.2) ∧
      cells.IsChain fun cell _ => cell.2 ≠ [])
    ⟨fun ⟨basic, gaps, apart⟩ => ⟨basic, gaps, apart⟩, fun h => ⟨h.basic, h.gaps, h.apart⟩⟩

namespace Layout

def text (l : Layout) : List Char := gapText l.lead ++ cellsText l.cells

def tokens (l : Layout) : List Token := l.cells.map (·.1)

structure IsPlain (l : Layout) : Prop where
  lead : IsPlainGap l.lead
  row : IsPlainRow l.cells

instance : DecidablePred IsPlain := fun l =>
  decidable_of_iff (IsPlainGap l.lead ∧ IsPlainRow l.cells)
    ⟨fun ⟨lead, row⟩ => ⟨lead, row⟩, fun h => ⟨h.lead, h.row⟩⟩

end Layout

section Layout

variable {cell : Cell} {cells : List Cell} {a b l : Layout}

theorem IsPlainRow.tail (h : IsPlainRow (cell :: cells)) : IsPlainRow cells where
  basic := fun other hother => h.basic other (List.mem_cons_of_mem _ hother)
  gaps := fun other hother => h.gaps other (List.mem_cons_of_mem _ hother)
  apart := h.apart.tail

/-- Behind a token there is a gap or nothing. -/
theorem IsPlainRow.gap (h : IsPlainRow (cell :: cells)) : cell.2 ≠ [] ∨ cell.2 = [] ∧ cells = [] := by
  by_cases hgap : cell.2 = []
  · cases cells with
    | nil => exact .inr ⟨hgap, rfl⟩
    | cons next cells => exact .inl (List.isChain_cons_cons.1 h.apart).1
  · exact .inl hgap

theorem tokenize?_cells (h : IsPlainRow cells) :
    tokenize? (cellsText cells) = some (cellsTokens cells) := by
  induction cells with
  | nil =>
    rw [cellsText, List.flatMap_nil, tokenize?]
    rfl
  | cons cell cells ih =>
    have gap := h.gaps cell List.mem_cons_self
    have stop : Stops (!beginsFiller ·) (gapText cell.2 ++ cellsText cells) := by
      rcases h.gap with hgap | ⟨hgap, rfl⟩
      · exact stops_gapText gap hgap _
      · rw [hgap]
        exact Stops.nil
    have first := first?_of_isBasic (h.basic cell List.mem_cons_self) stop
    have behind := tokenize?_gap (fun f hf => (gap f hf).1) (cellsText cells)
    rw [ih h.tail, Option.map_some] at behind
    rw [cellsText_cons, tokenize?_of_first? first, behind, cellsTokens_cons, Option.map_some]

theorem Token.IsBasic.isSeparator {t : Token} (h : t.IsBasic) : t.isSeparator = false := by
  cases t <;> first | rfl | exact h.elim

/-- The text of a row: its first token, and the others behind a space. -/
theorem condenseFrom_cells_cons (h : IsPlainRow (cell :: cells)) (started apart : Bool) :
    condenseFrom started apart (cellsTokens (cell :: cells)) =
      (if started && apart then [' '] else []) ++ cell.1.render ++
        condenseFrom true true (cellsTokens cells) := by
  have gap := condenseFrom_gap (h.gaps cell List.mem_cons_self) true false (cellsTokens cells)
  have behind : condenseFrom true false (cell.2.map Filler.token ++ cellsTokens cells) =
      condenseFrom true true (cellsTokens cells) := by
    rw [gap]
    rcases h.gap with hgap | ⟨-, rfl⟩
    · rw [List.isEmpty_eq_false_iff.2 hgap]
      rfl
    · rfl
  rw [cellsTokens_cons, condenseFrom_token started apart
    (h.basic cell List.mem_cons_self).isSeparator, behind]

theorem condenseFrom_cells (h : IsPlainRow cells) :
    condenseFrom true true (cellsTokens cells) =
      (cells.map (·.1)).flatMap fun t => ' ' :: t.render := by
  induction cells with
  | nil => rfl
  | cons cell cells ih =>
    rw [condenseFrom_cells_cons h, ih h.tail]
    rfl

theorem head_of_isBasic {t : Token} (h : t.IsBasic) :
    ∃ c more, t.render = c :: more ∧ c ≠ '\uFEFF' := by
  match t, h with
  | .word (c :: text), ⟨start, _⟩ =>
    refine ⟨c, text, rfl, ?_⟩
    rintro rfl
    exact absurd start (by decide +kernel)
  | .number digits, ⟨hne, hdigits⟩ =>
    obtain ⟨c, digits, rfl⟩ := List.exists_cons_of_ne_nil hne
    refine ⟨c, digits, rfl, ?_⟩
    rintro rfl
    exact absurd (List.all_eq_true.1 hdigits _ List.mem_cons_self) (by decide)
  | .string text, _ => exact ⟨'\'', _, rfl, by decide⟩
  | .symbol [c], mark =>
    have hc : isPunctuation c = true := mark
    refine ⟨c, [], rfl, ?_⟩
    rintro rfl
    exact absurd hc (by decide)

theorem withoutMark_text (h : l.IsPlain) : withoutMark l.text = l.text := by
  have noMark : Stops (· == '\uFEFF') l.text := by
    unfold Layout.text
    by_cases hlead : l.lead = []
    · cases hcells : l.cells with
      | nil =>
        rw [hlead]
        exact Stops.nil
      | cons cell cells =>
        have basic : cell.1.IsBasic := h.row.basic cell (hcells ▸ List.mem_cons_self)
        obtain ⟨c, more, hrender, hc⟩ := head_of_isBasic basic
        rw [hlead, cellsText_cons, hrender]
        exact stops_cons.2 (by simpa using hc)
    · exact stops_of_filler (stops_gapText h.lead hlead _) (by decide) (by decide) (by decide)
  unfold withoutMark
  split
  next rest hrest =>
    rw [hrest] at noMark
    exact absurd (stops_cons.1 noMark) (by decide)
  next => rfl

theorem intercalate_space (first : List Char) (others : List (List Char)) :
    [' '].intercalate (first :: others) = first ++ others.flatMap (' ' :: ·) := by
  induction others generalizing first with
  | nil => simp [List.intercalate]
  | cons next others ih =>
    rw [List.intercalate_cons_cons, ih, List.flatMap_cons]
    simp

theorem condense_layout (h : l.IsPlain) :
    condense l.text = [' '].intercalate (l.tokens.map Token.render) := by
  have read : tokenize? l.text = some (l.lead.map Filler.token ++ cellsTokens l.cells) := by
    rw [Layout.text, tokenize?_gap (fun f hf => (h.lead f hf).1), tokenize?_cells h.row]
    rfl
  have row := h.row
  unfold condense
  simp only [withoutMark_text h, read, condenseTokens, condenseFrom_gap h.lead]
  unfold Layout.tokens
  cases hcells : l.cells with
  | nil => rfl
  | cons cell cells =>
    rw [hcells] at row
    rw [condenseFrom_cells_cons row, condenseFrom_cells row.tail, List.map_cons, List.map_cons,
      intercalate_space]
    simp only [List.flatMap_map]
    rfl

/-- **The layout is not read.** Texts with the same tokens are condensed to the same text, whatever
stands between the tokens. -/
theorem condense_of_layouts (ha : a.IsPlain) (hb : b.IsPlain) (same : a.tokens = b.tokens) :
    condense a.text = condense b.text := by
  rw [condense_layout ha, condense_layout hb, same]

/-- A statement on one line, and on several with comments that hold the marks of others. -/
theorem condense_of_layouts_insert :
    let a : Layout :=
      { lead := []
        cells :=
          [(.word "insert".toList, [.blank ' ']), (.word "into".toList, [.blank ' ']),
            (.word "t".toList, [.blank ' ']), (.symbol ['('], [.blank ' ']),
            (.number "12".toList, [.blank ' ']), (.symbol [','], [.blank ' ']),
            (.string "it's -- /*".toList, [.blank ' ']), (.symbol [')'], [.blank ' ']),
            (.symbol [';'], [])] }
    let b : Layout :=
      { lead := [.line " header /*".toList]
        cells :=
          [(.word "insert".toList, [.block " -- ".toList]),
            (.word "into".toList, [.blank '\n', .blank '\t']), (.word "t".toList, [.block []]),
            (.symbol ['('], [.blank '\n']), (.number "12".toList, [.line "-".toList]),
            (.symbol [','], [.blank ' ', .block "' *".toList]),
            (.string "it's -- /*".toList, [.block "*".toList, .line "*/ '".toList]),
            (.symbol [')'], [.blank ' ']), (.symbol [';'], [.blank '\n'])] }
    a.text = "insert into t ( 12 , 'it''s -- /*' ) ;".toList ∧
      b.text = "-- header /*\ninsert/* -- */into\n\tt/**/(\n12---\n, /*' **/".toList ++
        "'it''s -- /*'/***/--*/ '\n) ;\n".toList ∧
      a.IsPlain ∧ b.IsPlain ∧ a.tokens = b.tokens ∧ condense a.text = condense b.text := by
  intro a b
  have plainA : a.IsPlain := by decide +kernel
  have plainB : b.IsPlain := by decide +kernel
  have same : a.tokens = b.tokens := by decide
  refine ⟨?_, ?_, plainA, plainB, same, condense_of_layouts plainA plainB same⟩
  · decide +kernel
  · decide +kernel

end Layout

end ReleaseSchema.Sql
