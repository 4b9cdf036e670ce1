/-
What may stand behind a token without changing it. A text echoes another one
(`Echo`) if it has the same characters up to a space, to its end, or to a token
that is written with another first character. A reader of tokens looks at a few
characters of what follows, and finds there nothing that it would not find in
the text that is echoed: so words, numbers, operators, dollar texts and
placeholders are read again in front of any echo of what followed them.
-/
import Mathlib.Data.Bool.AllAny
import ReleaseSchema.Proofs.Sql.Literal
import ReleaseSchema.Proofs.Text.Search
import ReleaseSchema.Sql.Tokenize

namespace ReleaseSchema.Sql

open Text

/-- The first characters of tokens that are written in another way, with the two characters that are
written: marked literals under their capital letter, `0x` as a marked literal, and inequality. -/
def changes : List (Char × Char × Char) :=
  [('!', '<', '>'), ('0', 'X', '\''), ('x', 'X', '\''), ('X', 'X', '\''), ('n', 'N', '\''),
    ('N', 'N', '\''), ('e', 'E', '\''), ('E', 'E', '\''), ('b', 'B', '\''), ('B', 'B', '\''),
    ('b', 'B', '"'), ('B', 'B', '"'), ('u', 'U', '&'), ('U', 'U', '&')]

/-- The text has the characters of the source up to a place where it ends, a space stands in it, or
it writes a token in another way. -/
inductive Echo : List Char → List Char → Prop
  | done {source : List Char} : Echo source []
  | space {source text : List Char} : Echo source (' ' :: text)
  | changed {first mark next : Char} {source text : List Char}
      (h : (first, mark, next) ∈ changes) : Echo (first :: source) (mark :: next :: text)
  | same {c : Char} {source text : List Char} (h : Echo source text) : Echo (c :: source) (c :: text)

namespace Echo

variable {source text l : List Char}

theorem append (l : List Char) (h : Echo source text) : Echo (l ++ source) (l ++ text) := by
  induction l with
  | nil => exact h
  | cons c l ih => exact .same ih

/-- A run that stops in front of the source stops in front of its echo. -/
theorem stops {p : Char → Bool} (h : Echo source text) (stop : Stops p source)
    (space : p ' ' = false)
    (marks : ∀ change ∈ changes, p change.2.1 = true → p change.1 = true) : Stops p text := by
  cases h with
  | done => exact Stops.nil
  | space => exact stops_cons.2 space
  | changed h =>
    refine stops_cons.2 (Bool.eq_false_iff.2 fun hmark => ?_)
    have hfirst := stops_cons.1 stop
    rw [marks _ h hmark] at hfirst
    cases hfirst
  | same => exact stops_cons.2 (stops_cons.1 stop)

/-- The characters with which an echo may part from its source. -/
def partings : List Char := [' ', '<', 'X', 'N', 'E', 'B', 'U']

theorem mem_partings {change : Char × Char × Char} (h : change ∈ changes) :
    change.2.1 ∈ partings := by
  have all : ∀ change ∈ changes, change.2.1 ∈ partings := by decide
  exact all change h

/-- What an echo begins with, its source begins with. -/
theorem of_prefix (h : Echo source text) (hl : l <+: text) (plain : ∀ c ∈ l, c ∉ partings) :
    l <+: source := by
  induction h generalizing l with
  | done =>
    rw [List.prefix_nil.1 hl]
    exact List.nil_prefix
  | space =>
    cases l with
    | nil => exact List.nil_prefix
    | cons c l =>
      obtain ⟨rfl, -⟩ := List.cons_prefix_cons.1 hl
      exact absurd (by decide) (plain ' ' List.mem_cons_self)
  | changed h =>
    cases l with
    | nil => exact List.nil_prefix
    | cons c l =>
      obtain ⟨rfl, -⟩ := List.cons_prefix_cons.1 hl
      exact absurd (mem_partings h) (plain _ List.mem_cons_self)
  | same _ ih =>
    cases l with
    | nil => exact List.nil_prefix
    | cons c l =>
      obtain ⟨rfl, hrest⟩ := List.cons_prefix_cons.1 hl
      exact List.cons_prefix_cons.2
        ⟨rfl, ih hrest fun c hc => plain c (List.mem_cons_of_mem _ hc)⟩

theorem head_ne {c : Char} (h : Echo source text) (hc : c ∉ partings)
    (hne : source.head? ≠ some c) : text.head? ≠ some c := by
  intro htext
  have begins : [c] <+: text := by
    cases text with
    | nil => cases htext
    | cons x text =>
      cases htext
      exact ⟨text, rfl⟩
  obtain ⟨more, rfl⟩ := h.of_prefix begins (by simpa using hc)
  exact hne rfl

end Echo

/-! ## Marked literals -/

/-- A letter marks a literal when a quote of the right kind follows. -/
theorem marked?_eq_none_iff {c : Char} {rest : List Char} :
    marked? c rest = none ↔
      ¬((c ∈ "bBnNeExX".toList ∧ ['\''] <+: rest) ∨ (c ∈ "bB".toList ∧ ['"'] <+: rest) ∨
        (c ∈ "uU".toList ∧ ['&', '\''] <+: rest)) := by
  have quotes : "bBnNeExX".toList = ['b', 'B', 'n', 'N', 'e', 'E', 'x', 'X'] := by decide
  have doubles : "bB".toList = ['b', 'B'] := by decide
  have ands : "uU".toList = ['u', 'U'] := by decide
  rw [quotes, doubles, ands]
  unfold marked?
  simp only [List.mem_cons, List.not_mem_nil, or_false]
  split
  next inside =>
    simp only [List.cons_prefix_cons, List.nil_prefix]
    grind
  next inside =>
    simp only [List.cons_prefix_cons, List.nil_prefix]
    grind
  next inside =>
    simp only [List.cons_prefix_cons, List.nil_prefix]
    grind
  next hquote hdouble hand =>
    refine iff_of_true rfl ?_
    rintro (⟨-, more, rfl⟩ | ⟨-, more, rfl⟩ | ⟨-, more, rfl⟩)
    · exact hquote _ rfl
    · exact hdouble _ rfl
    · exact hand _ rfl

theorem marked?_echo {c : Char} {rest other : List Char} (h : marked? c rest = none)
    (echo : Echo rest other) : marked? c other = none := by
  rw [marked?_eq_none_iff] at h ⊢
  refine fun hother => h ?_
  rcases hother with ⟨hc, hq⟩ | ⟨hc, hq⟩ | ⟨hc, hq⟩
  · exact .inl ⟨hc, echo.of_prefix hq (List.all_iff_forall_prop.1 (by decide))⟩
  · exact .inr (.inl ⟨hc, echo.of_prefix hq (List.all_iff_forall_prop.1 (by decide))⟩)
  · exact .inr (.inr ⟨hc, echo.of_prefix hq (List.all_iff_forall_prop.1 (by decide))⟩)

/-! ## Words and numbers -/

/-- A reader that cuts a text in two gives the same first part in front of any echo of the second. -/
def Rereads (read : List Char → List Char × List Char) : Prop :=
  ∀ text, (read text).1 ++ (read text).2 = text ∧
    ∀ other, Echo (read text).2 other → read ((read text).1 ++ other) = ((read text).1, other)

section Readers

variable {p : Char → Bool}

theorem rereads_run (space : p ' ' = false)
    (marks : ∀ change ∈ changes, p change.2.1 = true → p change.1 = true) :
    Rereads fun text => (text.takeWhile p, text.dropWhile p) := by
  intro text
  refine ⟨List.takeWhile_append_dropWhile, fun other echo => ?_⟩
  have stop := echo.stops (stops_dropWhile p text) space marks
  have run : ∀ c ∈ text.takeWhile p, p c = true := fun c hc => List.mem_takeWhile_imp hc
  exact Prod.ext (takeWhile_run run stop) (dropWhile_run run stop)

theorem rereads_digits :
    Rereads fun text => (text.takeWhile isAsciiDigit, text.dropWhile isAsciiDigit) :=
  rereads_run (by decide) (by decide)

theorem rereads_word :
    Rereads fun text => (text.takeWhile continuesWord, text.dropWhile continuesWord) :=
  rereads_run (by decide) (by decide)

theorem rereads_optionalChar {c : Char} (hc : c ∉ Echo.partings) : Rereads (optionalChar c) := by
  intro text
  unfold optionalChar
  cases text with
  | nil =>
    refine ⟨rfl, fun other echo => ?_⟩
    cases other with
    | nil => rfl
    | cons x other =>
      have hx : x ≠ c := by
        rintro rfl
        exact echo.head_ne hc (by simp) rfl
      simp only [List.nil_append, if_neg hx]
  | cons x text =>
    by_cases hx : x = c
    · simp [hx]
    · simp only [if_neg hx, List.nil_append]
      refine ⟨trivial, fun other echo => ?_⟩
      cases other with
      | nil => rfl
      | cons y other =>
        have hy : y ≠ c := by
          rintro rfl
          exact echo.head_ne hc (by simpa using hx) rfl
        simp only [if_neg hy]

end Readers

/-! ### Exponents -/

/-- The text begins with an exponent that has a digit. -/
inductive BeginsExponent : List Char → Prop
  | unsigned {e digit : Char} {more : List Char} (he : e = 'e' ∨ e = 'E')
      (hdigit : isAsciiDigit digit = true) : BeginsExponent (e :: digit :: more)
  | signed {e sign digit : Char} {more : List Char} (he : e = 'e' ∨ e = 'E')
      (hsign : sign = '+' ∨ sign = '-') (hdigit : isAsciiDigit digit = true) :
      BeginsExponent (e :: sign :: digit :: more)

theorem exponentOf_unsigned {e digit : Char} (he : e = 'e' ∨ e = 'E')
    (hdigit : isAsciiDigit digit = true) (more : List Char) :
    exponentOf (e :: digit :: more) =
      (e :: digit :: more.takeWhile isAsciiDigit, more.dropWhile isAsciiDigit) := by
  have plain : (digit == '+' || digit == '-') = false := by
    rw [Bool.or_eq_false_iff, beq_eq_false_iff_ne, beq_eq_false_iff_ne]
    constructor <;> rintro rfl <;> exact absurd hdigit (by decide)
  simp [exponentOf, he, plain, hdigit]

theorem exponentOf_signed {e sign digit : Char} (he : e = 'e' ∨ e = 'E')
    (hsign : sign = '+' ∨ sign = '-') (hdigit : isAsciiDigit digit = true) (more : List Char) :
    exponentOf (e :: sign :: digit :: more) =
      (e :: sign :: digit :: more.takeWhile isAsciiDigit, more.dropWhile isAsciiDigit) := by
  have plain : (sign == '+' || sign == '-') = true := by
    rcases hsign with rfl | rfl <;> rfl
  simp [exponentOf, he, plain, hdigit]

theorem exponentOf_of_not {text : List Char} (h : ¬BeginsExponent text) :
    exponentOf text = ([], text) := by
  unfold exponentOf
  split
  · rfl
  next e rest =>
    split
    next he =>
      dsimp only
      split
      · rfl
      next digits =>
        refine absurd ?_ h
        cases rest with
        | nil => simp at digits
        | cons x rest =>
          by_cases hsign : (x == '+' || x == '-') = true
          · simp only [List.take_succ_cons, List.take_zero, List.filter_cons, hsign, if_true,
              List.filter_nil, List.length_singleton, List.drop_succ_cons, List.drop_zero] at digits
            cases rest with
            | nil => simp at digits
            | cons digit rest =>
              have hdigit : isAsciiDigit digit = true := by
                by_contra hdigit
                simp [hdigit] at digits
              refine .signed he ?_ hdigit
              simpa using hsign
          · rw [Bool.not_eq_true] at hsign
            simp only [List.take_succ_cons, List.take_zero, List.filter_cons, hsign,
              Bool.false_eq_true, if_false, List.filter_nil, List.length_nil,
              List.drop_zero] at digits
            have hdigit : isAsciiDigit x = true := by
              by_contra hdigit
              simp [hdigit] at digits
            exact .unsigned he hdigit
    next => rfl

/-- No literal that is written in another way begins with an exponent. -/
theorem BeginsExponent.of_echo {source text : List Char} (h : BeginsExponent text)
    (echo : Echo source text) : BeginsExponent source := by
  have quotes : ∀ change ∈ changes, isAsciiDigit change.2.2 = false ∧ change.2.2 ≠ '+' ∧
      change.2.2 ≠ '-' := by decide
  have plain : ∀ {c : Char}, isAsciiDigit c = true → c ∉ Echo.partings := by
    intro c hdigit hmem
    have all : ∀ c ∈ Echo.partings, isAsciiDigit c = false :=
      List.all_iff_forall_prop.1 (by decide)
    rw [all c hmem] at hdigit
    cases hdigit
  cases h with
  | @unsigned e digit more he hdigit =>
    cases echo with
    | space => simp at he
    | changed h => simp [(quotes _ h).1] at hdigit
    | same echo =>
      have begins : [digit] <+: digit :: more := ⟨more, rfl⟩
      obtain ⟨more', rfl⟩ := echo.of_prefix begins (by simpa using plain hdigit)
      exact .unsigned he hdigit
  | @signed e sign digit more he hsign hdigit =>
    cases echo with
    | space => simp at he
    | changed h => simp [(quotes _ h).2] at hsign
    | same echo =>
      have hplain : sign ∉ Echo.partings := by rcases hsign with rfl | rfl <;> decide
      have begins : [sign, digit] <+: sign :: digit :: more := ⟨more, rfl⟩
      obtain ⟨more', rfl⟩ := echo.of_prefix begins (by simpa using ⟨hplain, plain hdigit⟩)
      exact .signed he hsign hdigit

theorem rereads_exponentOf : Rereads exponentOf := by
  intro text
  by_cases h : BeginsExponent text
  · cases h with
    | @unsigned e digit more he hdigit =>
      rw [exponentOf_unsigned he hdigit]
      obtain ⟨whole, again⟩ := rereads_digits more
      dsimp only at whole again ⊢
      refine ⟨by rw [List.cons_append, List.cons_append, whole], fun other echo => ?_⟩
      rw [List.cons_append, List.cons_append, exponentOf_unsigned he hdigit]
      obtain ⟨htake, hdrop⟩ := Prod.mk.inj (again other echo)
      rw [htake, hdrop]
    | @signed e sign digit more he hsign hdigit =>
      rw [exponentOf_signed he hsign hdigit]
      obtain ⟨whole, again⟩ := rereads_digits more
      dsimp only at whole again ⊢
      refine ⟨by rw [List.cons_append, List.cons_append, List.cons_append, whole],
        fun other echo => ?_⟩
      rw [List.cons_append, List.cons_append, List.cons_append,
        exponentOf_signed he hsign hdigit]
      obtain ⟨htake, hdrop⟩ := Prod.mk.inj (again other echo)
      rw [htake, hdrop]
  · rw [exponentOf_of_not h]
    refine ⟨rfl, fun other echo => ?_⟩
    exact exponentOf_of_not fun hother => h (hother.of_echo echo)

/-! ### Numbers -/

/-- A number that begins with `0x` is a literal of hexadecimal digits. Any other one is written as it
was read, and is read again. -/
theorem numberOf_cases {text after : List Char} {t : Token} (h : numberOf text = (t, after)) :
    (∃ digits, t = .hex digits ∧ text = '0' :: 'x' :: (digits ++ after) ∧
      ∀ c ∈ digits, isHexDigit c = true) ∨
    (t.isSeparator = false ∧ t.render ++ after = text ∧
      ∀ other, Echo after other → numberOf (t.render ++ other) = (t, other)) := by
  obtain ⟨hwhole, againWhole⟩ := rereads_digits text
  dsimp only at hwhole againWhole
  unfold numberOf at h
  dsimp only at h
  split at h
  next hhex =>
    cases h
    left
    obtain ⟨hzero, hx⟩ := hhex
    refine ⟨_, rfl, ?_, fun c hc => List.mem_takeWhile_imp hc⟩
    obtain ⟨rest, hrest⟩ := List.head?_eq_some_iff.1 hx
    rw [hzero, hrest] at hwhole
    rw [hrest, List.tail_cons, List.takeWhile_append_dropWhile, ← hwhole]
    rfl
  next hhex =>
    right
    generalize text.takeWhile isAsciiDigit = whole at h hwhole againWhole hhex
    generalize text.dropWhile isAsciiDigit = rest at h hwhole againWhole hhex
    obtain ⟨hpoint, againPoint⟩ := rereads_optionalChar (c := '.') (by decide) rest
    generalize optionalChar '.' rest = point at h hpoint againPoint
    obtain ⟨point, behind⟩ := point
    dsimp only at h hpoint againPoint
    obtain ⟨hpart, againPart⟩ := rereads_digits behind
    dsimp only at hpart againPart
    generalize behind.takeWhile isAsciiDigit = part at h hpart againPart
    generalize behind.dropWhile isAsciiDigit = rest' at h hpart againPart
    have mantissa : ∀ other, Echo rest' other →
        numberOf (whole ++ (point ++ (part ++ other))) =
          if whole ++ point ++ part = ['.'] then (.symbol (whole ++ point ++ part), other)
          else
            (.number (whole ++ point ++ part ++ (exponentOf other).1 ++
              (optionalChar 'L' (exponentOf other).2).1),
              (optionalChar 'L' (exponentOf other).2).2) := by
      intro other echo
      have echoPart : Echo behind (part ++ other) := hpart ▸ echo.append part
      have echoPoint : Echo rest (point ++ (part ++ other)) := hpoint ▸ echoPart.append point
      obtain ⟨takeWhole, dropWhole⟩ := Prod.mk.inj (againWhole _ echoPoint)
      obtain ⟨takePart, dropPart⟩ := Prod.mk.inj (againPart _ echo)
      have noHex : ¬(whole = ['0'] ∧ (point ++ (part ++ other)).head? = some 'x') := by
        rintro ⟨hzero, hx⟩
        exact echoPoint.head_ne (by decide) (fun hrest => hhex ⟨hzero, hrest⟩) hx
      unfold numberOf
      simp only [takeWhole, dropWhole, if_neg noHex, againPoint _ echoPart, takePart, dropPart]
    split at h
    next hdot =>
      cases h
      refine ⟨rfl, ?_, fun other echo => ?_⟩
      · rw [Token.render, List.append_assoc, List.append_assoc, hpart, hpoint, hwhole]
      · rw [Token.render, List.append_assoc, List.append_assoc, mantissa other echo, if_pos hdot]
    next hdot =>
      obtain ⟨hexponent, againExponent⟩ := rereads_exponentOf rest'
      generalize exponentOf rest' = exponent at h hexponent againExponent
      obtain ⟨exponent, tail⟩ := exponent
      dsimp only at h hexponent againExponent
      obtain ⟨hmark, againMark⟩ := rereads_optionalChar (c := 'L') (by decide) tail
      generalize optionalChar 'L' tail = mark at h hmark againMark
      obtain ⟨mark, behindMark⟩ := mark
      cases h
      dsimp only at hmark againMark
      refine ⟨rfl, ?_, fun other echo => ?_⟩
      · simp only [Token.render, List.append_assoc, hmark, hexponent, hpart, hpoint, hwhole]
      · have echoMark : Echo tail (mark ++ other) := hmark ▸ echo.append mark
        have echoExponent : Echo rest' (exponent ++ (mark ++ other)) :=
          hexponent ▸ echoMark.append exponent
        have read := mantissa _ echoExponent
        rw [if_neg hdot, againExponent _ echoMark] at read
        dsimp only at read
        rw [againMark _ echo] at read
        rw [Token.render]
        simpa only [List.append_assoc] using read

/-! ## Operators -/

/-- The first operator that begins one text begins another, if the other begins with no operator that
the one does not begin with. -/
theorem find?_operators {source text : List Char} {op : String × Bool}
    (h : operators.find? (fun (op, _) => op.toList.isPrefixOf source) = some op)
    (begins : op.1.toList <+: text)
    (within : ∀ op ∈ operators, op.1.toList <+: text → op.1.toList <+: source) :
    operators.find? (fun (op, _) => op.toList.isPrefixOf text) = some op := by
  obtain ⟨-, before, behind, hsplit, hbefore⟩ := List.find?_eq_some_iff_append.1 h
  refine List.find?_eq_some_iff_append.2
    ⟨List.isPrefixOf_iff_prefix.2 begins, before, behind, hsplit, fun other hother => ?_⟩
  have hmem : other ∈ operators := hsplit ▸ List.mem_append_left _ hother
  have hne := hbefore other hother
  rw [Bool.not_eq_true', ← Bool.not_eq_true, List.isPrefixOf_iff_prefix] at hne ⊢
  exact fun hprefix => hne (within other hmem hprefix)

/-- An operator that begins a text in two parts begins the first of them, or goes on into the
second. -/
theorem prefix_or_exists {op l text : List Char} (h : op <+: l ++ text) :
    op <+: l ∨ ∃ c more, op = l ++ c :: more ∧ (c :: more) <+: text := by
  rcases List.prefix_or_prefix_of_prefix h (List.prefix_append l text) with h' | ⟨more, rfl⟩
  · exact .inl h'
  · cases more with
    | nil => exact .inl (by simp)
    | cons c more => exact .inr ⟨c, more, rfl, (List.prefix_append_right_inj l).1 h⟩

theorem mem_tail_of_append {c : Char} {l more : List Char} (hne : l ≠ []) :
    ∀ x ∈ c :: more, x ∈ (l ++ c :: more).tail := by
  intro x hx
  obtain ⟨y, l, rfl⟩ := List.exists_cons_of_ne_nil hne
  exact List.mem_append_right l hx

/-- Behind its first character an operator has operator characters, unless it begins with a colon. -/
theorem isOperatorChar_of_mem_tail {op : String × Bool} (h : op ∈ operators)
    (hcolon : op.1.toList.head? ≠ some ':') {c : Char} (hc : c ∈ op.1.toList.tail) :
    isOperatorChar c = true := by
  have all : ∀ op ∈ operators, op.1.toList.head? ≠ some ':' →
      op.1.toList.tail.all isOperatorChar = true := by decide
  exact List.all_eq_true.1 (all op h hcolon) c hc

/-- An operator goes on with no character at which an echo may part, unless a shorter one takes in
what follows it. -/
theorem not_mem_partings_of_tail {op shorter : String × Bool} (h : op ∈ operators)
    (hshorter : shorter ∈ operators) (begins : shorter.1.toList <+: op.1.toList)
    (hgrows : shorter.2 = false) {c : Char} (hc : c ∈ op.1.toList.tail) : c ∉ Echo.partings := by
  have all : ∀ op ∈ operators, ∀ shorter ∈ operators, shorter.1.toList.isPrefixOf op.1.toList = true →
      shorter.2 = false → (op.1.toList.tail.all fun c => c ∉ Echo.partings) = true := by decide
  exact List.all_iff_forall_prop.1
    (all op h shorter hshorter (List.isPrefixOf_iff_prefix.2 begins) hgrows) c hc

/-- Inequality is written under its first spelling. Any other operator is written as it was read, and
is read again. -/
theorem operator?_cases {source after : List Char} {t : Token}
    (h : operator? source = some (t, after)) :
    (t = .symbol "<>".toList ∧ source = '!' :: '=' :: after) ∨
    (∃ s, s ≠ [] ∧ t = .symbol s ∧ s ++ after = source ∧
      ∀ other, Echo after other → operator? (s ++ other) = some (t, other)) := by
  unfold operator? at h
  split at h
  next op grows hfind =>
    have hmem : (op, grows) ∈ operators := List.mem_of_find?_eq_some hfind
    have hprefix := List.find?_some hfind
    dsimp only at hprefix
    obtain ⟨tail, rfl⟩ := List.isPrefixOf_iff_prefix.1 hprefix
    have hne : op.toList ≠ [] := by
      have all : ∀ op ∈ operators, op.1.toList ≠ [] := by decide
      exact all _ hmem
    have hdrop : ∀ text, (op.toList ++ text).drop op.length = text := fun text => by
      rw [← String.length_toList, List.drop_left]
    dsimp only at h
    rw [hdrop] at h
    split at h
    next hgrows =>
      -- the operator has taken in every operator character that followed it
      cases h
      right
      have chars : ∀ c ∈ op.toList, isOperatorChar c = true := by
        have all : ∀ op ∈ operators, op.2 = true → op.1.toList.all isOperatorChar = true := by decide
        exact List.all_eq_true.1 (all _ hmem hgrows)
      refine ⟨_, List.append_ne_nil_of_left_ne_nil hne _, rfl, ?_, fun other echo => ?_⟩
      · rw [List.append_assoc, List.takeWhile_append_dropWhile]
      have stop : Stops isOperatorChar other :=
        echo.stops (stops_dropWhile isOperatorChar tail) (by decide) (by decide)
      have run : ∀ c ∈ tail.takeWhile isOperatorChar, isOperatorChar c = true :=
        fun c hc => List.mem_takeWhile_imp hc
      have found := @find?_operators _ (op.toList ++ tail.takeWhile isOperatorChar ++ other) _
        hfind ⟨tail.takeWhile isOperatorChar ++ other, by simp⟩ ?_
      · unfold operator?
        simp only [found, hgrows, if_true]
        rw [List.append_assoc, hdrop, takeWhile_run run stop, dropWhile_run run stop]
      intro longer hlonger begins
      rcases prefix_or_exists begins with within | ⟨c, more, hlong, hother⟩
      · exact within.trans ((List.prefix_append_right_inj _).2 (List.takeWhile_prefix _))
      · exfalso
        have hc : c ∈ longer.1.toList.tail := by
          rw [hlong]
          exact mem_tail_of_append (List.append_ne_nil_of_left_ne_nil hne _) c List.mem_cons_self
        have hcolon : longer.1.toList.head? ≠ some ':' := by
          rw [hlong, List.append_assoc]
          obtain ⟨x, l, hl⟩ := List.exists_cons_of_ne_nil hne
          intro hhead
          rw [hl] at hhead chars
          cases hhead
          exact absurd (chars ':' List.mem_cons_self) (by decide)
        have hoperator := isOperatorChar_of_mem_tail hlonger hcolon hc
        obtain ⟨rest, rfl⟩ := hother
        rw [List.cons_append] at stop
        rw [stops_cons.1 stop] at hoperator
        cases hoperator
    next hgrows =>
      by_cases hunequal : op = "!="
      · left
        subst hunequal
        cases h
        exact ⟨rfl, rfl⟩
      · right
        rw [if_neg hunequal] at h
        cases h
        refine ⟨_, hne, rfl, rfl, fun other echo => ?_⟩
        have found := @find?_operators _ (op.toList ++ other) _ hfind ⟨other, rfl⟩ ?_
        · unfold operator?
          simp only [found, hgrows, if_neg hunequal, Bool.false_eq_true, if_false, hdrop]
        intro longer hlonger begins
        rcases prefix_or_exists begins with within | ⟨c, more, hlong, hother⟩
        · exact within.trans (List.prefix_append _ _)
        · have plain : ∀ x ∈ c :: more, x ∉ Echo.partings := by
            intro x hx
            refine not_mem_partings_of_tail hlonger hmem ⟨_, hlong.symm⟩ (by simpa using hgrows) ?_
            rw [hlong]
            exact mem_tail_of_append hne x hx
          rw [hlong]
          exact (List.prefix_append_right_inj _).2 (echo.of_prefix hother plain)
  next => cases h

/-! ## Dollar signs -/

/-- A character of the tag between two dollar signs. -/
def isTagChar (c : Char) : Bool := isAlphanumeric c || c == '_'

theorem dollarOf?_of_dollar {text more : List Char} (h : text.dropWhile isTagChar = '$' :: more) :
    dollarOf? text = (splitAt? ('$' :: (text.takeWhile isTagChar ++ ['$'])) more).map fun found =>
      (.dollar (text.takeWhile isTagChar) found.1, found.2) := by
  unfold isTagChar at h ⊢
  simp only [dollarOf?, h]

theorem dollarOf?_of_not {text : List Char} (h : ∀ more, text.dropWhile isTagChar ≠ '$' :: more) :
    dollarOf? text = some (.placeholder (text.takeWhile isTagChar), text.dropWhile isTagChar) := by
  unfold dollarOf?
  dsimp only
  split
  next more hmore => exact absurd hmore (h more)
  next => rfl

/-- A dollar text or a placeholder is written as it was read, and is read again. -/
theorem dollarOf?_cases {rest after : List Char} {t : Token}
    (h : dollarOf? rest = some (t, after)) :
    t.isSeparator = false ∧ ∃ inside, t.render = '$' :: inside ∧ inside ++ after = rest ∧
      ∀ other, Echo after other → dollarOf? (inside ++ other) = some (t, other) := by
  have dollar : isTagChar '$' = false := by decide +kernel
  have whole : rest.takeWhile isTagChar ++ rest.dropWhile isTagChar = rest :=
    List.takeWhile_append_dropWhile
  have stop := stops_dropWhile isTagChar rest
  have run : ∀ c ∈ rest.takeWhile isTagChar, isTagChar c = true :=
    fun c hc => List.mem_takeWhile_imp hc
  by_cases hmore : ∃ more, rest.dropWhile isTagChar = '$' :: more
  · obtain ⟨more, hmore⟩ := hmore
    rw [dollarOf?_of_dollar hmore] at h
    rw [hmore] at whole
    generalize rest.takeWhile isTagChar = tag at h whole run
    obtain ⟨⟨body, tail⟩, hsplit, hpair⟩ := Option.map_eq_some_iff.1 h
    cases hpair
    obtain ⟨rfl, again⟩ := exists_of_splitAt? (by simp) hsplit
    refine ⟨rfl, tag ++ '$' :: (body ++ '$' :: (tag ++ ['$'])), rfl, ?_, fun other _ => ?_⟩
    · rw [← whole]
      simp
    · have stopped : Stops isTagChar ('$' :: (body ++ ('$' :: (tag ++ ['$']) ++ other))) :=
        stops_cons.2 dollar
      have split : tag ++ '$' :: (body ++ '$' :: (tag ++ ['$'])) ++ other =
          tag ++ '$' :: (body ++ ('$' :: (tag ++ ['$']) ++ other)) := by simp
      rw [split, dollarOf?_of_dollar (dropWhile_run run stopped), takeWhile_run run stopped,
        again other]
      rfl
  · have noDollar : ∀ more, rest.dropWhile isTagChar ≠ '$' :: more :=
      fun more hbegins => hmore ⟨more, hbegins⟩
    rw [dollarOf?_of_not noDollar] at h
    cases h
    refine ⟨rfl, _, rfl, whole, fun other echo => ?_⟩
    have marks : ∀ change ∈ changes, isTagChar change.2.1 = true → isTagChar change.1 = true := by
      decide +kernel
    have stopped := echo.stops stop (by decide +kernel) marks
    rw [dollarOf?_of_not, takeWhile_run run stopped, dropWhile_run run stopped]
    intro more hbegins
    rw [dropWhile_run run stopped] at hbegins
    subst hbegins
    refine echo.head_ne (by decide) (fun hhead => ?_) rfl
    obtain ⟨left, hleft⟩ := List.head?_eq_some_iff.1 hhead
    exact noDollar left hleft

end ReleaseSchema.Sql
