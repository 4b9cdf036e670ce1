/-
Condensed SQL texts have the tokens of the texts they were made from
(`condense_tokens`), blanks and comments apart, if each token is read as itself
where it is written (`Token.IsFaithful`) and no two tokens that touch run
together (`Token.joins`).
-/
import Mathlib.Data.List.Chain
import ReleaseSchema.Proofs.Sql.Echo
import ReleaseSchema.Sql.Condense

namespace ReleaseSchema.Sql

open Text

theorem exists_of_tokenize? {c : Char} {rest : List Char} {t : Token} {tokens : List Token}
    (h : tokenize? (c :: rest) = some (t :: tokens)) :
    ∃ after, Token.read? c rest = some (t, after) ∧ tokenize? after = some tokens := by
  rw [tokenize?] at h
  split at h
  next first after hread =>
    obtain ⟨behind, hbehind, hcons⟩ := Option.map_eq_some_iff.1 h
    obtain ⟨rfl, rfl⟩ := List.cons.inj hcons
    exact ⟨after, hread, hbehind⟩
  next => cases h

namespace Token

/-! ## Tokens that are read as they are written -/

/-- The token is read as itself where it is written. Quotes are doubled in plain and national strings
only, and no backslash is written for another one; a line comment is written as a block comment. -/
def IsFaithful : Token → Prop
  | .quotedName name => '"' ∉ name
  | .national text => '\\' ∉ text
  | .escape text | .unicode text | .hex text => '\'' ∉ text ∧ '\\' ∉ text
  | .bytes quote text => quote ∉ text
  | .lineComment body => '#' ∈ body → commentLevel? 0 body = some 0
  | _ => True

instance : DecidablePred IsFaithful
  | .quotedName name => inferInstanceAs (Decidable ('"' ∉ name))
  | .national text => inferInstanceAs (Decidable ('\\' ∉ text))
  | .escape text | .unicode text | .hex text =>
    inferInstanceAs (Decidable ('\'' ∉ text ∧ '\\' ∉ text))
  | .bytes quote text => inferInstanceAs (Decidable (quote ∉ text))
  | .lineComment body => inferInstanceAs (Decidable ('#' ∈ body → commentLevel? 0 body = some 0))
  | .blank | .blockComment _ | .word _ | .number _ | .string _ | .dollar _ _ | .placeholder _
  | .symbol _ => isTrue trivial

/-- Whether a token runs together with one that is written behind it at once: a question mark takes
in a character, an inequality takes in operator characters, and a literal that was a number takes in
a string. -/
def joins : Token → Token → Bool
  | .symbol ['?'], next => !next.isSeparator
  | .symbol ['<', '>'], .symbol (c :: _) => isOperatorChar c
  | .hex _, .string _ => true
  | _, _ => false

/-- The text does not go on with the token, beyond what its reader looks at anyway. -/
def EndsBefore : Token → List Char → Prop
  | .symbol text, rest => text = ['<', '>'] → Stops isOperatorChar rest
  | .hex _, rest => Stops (· == '\'') rest
  | _, _ => True

/-- The first token of a text, and what follows it. -/
def first? : List Char → Option (Token × List Char)
  | [] => none
  | c :: rest => read? c rest

/-- Written in front of a text, the token echoes the source, and is read again. -/
structure IsReadAgain (t : Token) (source text : List Char) : Prop where
  echo : Echo source (t.render ++ text)
  read : first? (t.render ++ text) = some (t, text)

variable {c : Char} {rest after other : List Char} {t : Token}

/-- A token that was written in the source as it is rendered. -/
theorem IsReadAgain.of_exact {inside : List Char} (hrender : t.render = c :: inside)
    (hrest : inside ++ after = rest) (echo : Echo after other)
    (again : read? c (inside ++ other) = some (t, other)) : t.IsReadAgain (c :: rest) other := by
  subst hrest
  constructor
  · rw [hrender]
    exact echo.append (c :: inside)
  · rw [hrender]
    exact again

theorem read?_of_marked? {found : Option (Token × List Char)} (h : marked? c rest = some found) :
    read? c rest = found := by
  unfold read?
  rw [h]

section Marked

variable {text : List Char}

theorem first?_bytes {quote : Char} (hquote : quote = '\'' ∨ quote = '"') (plain : quote ∉ text)
    (stop : Stops (· == quote) other) :
    first? ((Token.bytes quote text).render ++ other) = some (.bytes quote text, other) := by
  have read := @quotedFrom?_doubled quote [] other text stop
  rw [doubled_of_not_mem plain] at read
  change read? 'B' (quote :: (text ++ [quote] ++ other)) = _
  rw [List.append_assoc, List.singleton_append]
  rcases hquote with rfl | rfl
  · refine read?_of_marked? (congrArg some ?_)
    rw [read]
    rfl
  · refine read?_of_marked? (congrArg some ?_)
    rw [read]
    rfl

theorem first?_national (plain : '\\' ∉ text) (stop : Stops (· == '\'') other) :
    first? ((Token.national text).render ++ other) = some (.national text, other) := by
  change read? 'N' ('\'' :: (doubled '\'' text ++ ['\''] ++ other)) = _
  refine read?_of_marked? (congrArg some ?_)
  rw [List.append_assoc, List.singleton_append, readsLiteral_backslashedFrom?.doubled plain stop]
  rfl

theorem first?_escape (plain : '\'' ∉ text ∧ '\\' ∉ text) (stop : Stops (· == '\'') other) :
    first? ((Token.escape text).render ++ other) = some (.escape text, other) := by
  change read? 'E' ('\'' :: (text ++ ['\''] ++ other)) = _
  refine read?_of_marked? (congrArg some ?_)
  rw [List.append_assoc, List.singleton_append, readsLiteral_escapedFrom?.plain plain stop]
  rfl

theorem first?_hex (plain : '\'' ∉ text ∧ '\\' ∉ text) (stop : Stops (· == '\'') other) :
    first? ((Token.hex text).render ++ other) = some (.hex text, other) := by
  change read? 'X' ('\'' :: (text ++ ['\''] ++ other)) = _
  refine read?_of_marked? (congrArg some ?_)
  rw [List.append_assoc, List.singleton_append, readsLiteral_backslashedFrom?.plain plain stop]
  rfl

theorem first?_unicode (plain : '\'' ∉ text ∧ '\\' ∉ text) (stop : Stops (· == '\'') other) :
    first? ((Token.unicode text).render ++ other) = some (.unicode text, other) := by
  change read? 'U' ('&' :: '\'' :: (text ++ ['\''] ++ other)) = _
  refine read?_of_marked? (congrArg some ?_)
  rw [List.append_assoc, List.singleton_append, readsLiteral_unicodeFrom?.plain plain stop]
  rfl

theorem isReadAgain_of_marked? (h : marked? c rest = some (some (t, after)))
    (faithful : t.IsFaithful) (echo : Echo after other) : t.IsReadAgain (c :: rest) other := by
  have stops : Stops (· == '\'') after → Stops (· == '\'') other :=
    fun stop => echo.stops stop (by decide) (by decide)
  unfold marked? at h
  split at h
  next inside =>
    split at h
    next hc =>
      obtain ⟨⟨text, behind⟩, hread, hpair⟩ := Option.map_eq_some_iff.1 (Option.some.inj h)
      cases hpair
      obtain ⟨_, rfl, -, stop⟩ := exists_of_quotedFrom? hread
      exact ⟨.changed (by rcases hc with rfl | rfl <;> decide),
        first?_bytes (.inl rfl) faithful (stops stop)⟩
    split at h
    next hc =>
      obtain ⟨⟨text, behind⟩, hread, hpair⟩ := Option.map_eq_some_iff.1 (Option.some.inj h)
      cases hpair
      exact ⟨.changed (by rcases hc with rfl | rfl <;> decide),
        first?_national faithful (stops (stops_of_backslashedFrom? hread))⟩
    split at h
    next hc =>
      obtain ⟨⟨text, behind⟩, hread, hpair⟩ := Option.map_eq_some_iff.1 (Option.some.inj h)
      cases hpair
      exact ⟨.changed (by rcases hc with rfl | rfl <;> decide),
        first?_escape faithful (stops (stops_of_escapedFrom? hread))⟩
    split at h
    next hc =>
      obtain ⟨⟨text, behind⟩, hread, hpair⟩ := Option.map_eq_some_iff.1 (Option.some.inj h)
      cases hpair
      exact ⟨.changed (by rcases hc with rfl | rfl <;> decide),
        first?_hex faithful (stops (stops_of_backslashedFrom? hread))⟩
    next => cases h
  next inside =>
    split at h
    next hc =>
      obtain ⟨⟨text, behind⟩, hread, hpair⟩ := Option.map_eq_some_iff.1 (Option.some.inj h)
      cases hpair
      obtain ⟨_, rfl, -, stop⟩ := exists_of_quotedFrom? hread
      exact ⟨.changed (by rcases hc with rfl | rfl <;> decide),
        first?_bytes (.inr rfl) faithful (echo.stops stop (by decide) (by decide))⟩
    next => cases h
  next inside =>
    split at h
    next hc =>
      obtain ⟨⟨text, behind⟩, hread, hpair⟩ := Option.map_eq_some_iff.1 (Option.some.inj h)
      cases hpair
      exact ⟨.changed (by rcases hc with rfl | rfl <;> decide),
        first?_unicode faithful (stops (stops_of_unicodeFrom? hread))⟩
    next => cases h
  next => cases h

end Marked

/-! ### Quoted tokens and question marks -/

theorem marked?_eq_none (h : c ∉ "bBnNeExXuU".toList) (rest : List Char) : marked? c rest = none := by
  have letters : "bBnNeExX".toList ⊆ "bBnNeExXuU".toList ∧ "bB".toList ⊆ "bBnNeExXuU".toList ∧
      "uU".toList ⊆ "bBnNeExXuU".toList := by decide
  rw [marked?_eq_none_iff]
  rintro (⟨hc, -⟩ | ⟨hc, -⟩ | ⟨hc, -⟩)
  · exact h (letters.1 hc)
  · exact h (letters.2.1 hc)
  · exact h (letters.2.2 hc)

theorem read?_single (rest : List Char) :
    read? '\'' rest = (quotedFrom? '\'' [] rest).map fun (s, after) => (.string s, after) := by
  rw [read?, marked?_eq_none (by decide)]
  rfl

theorem read?_double (rest : List Char) :
    read? '"' rest = (quotedFrom? '"' [] rest).map fun (s, after) => (.quotedName s, after) := by
  rw [read?, marked?_eq_none (by decide)]
  rfl

theorem read?_question (rest : List Char) :
    read? '?' rest =
      if rest.head? = some '|' ∨ rest.head? = some '&' then
        some (.symbol ('?' :: rest.take 1), rest.drop 1)
      else some (.symbol ['?'], rest.drop 1) := by
  rw [read?, marked?_eq_none (by decide)]
  rfl

theorem read?_line (rest : List Char) :
    read? '-' ('-' :: rest) = some (.lineComment (lineCommentOf rest).1, (lineCommentOf rest).2) := by
  rw [read?, marked?_eq_none (by decide)]
  rfl

theorem read?_block (rest : List Char) :
    read? '/' ('*' :: rest) =
      (commentFrom? 0 [] rest).map fun (body, after) => (.blockComment body, after) := by
  rw [read?, marked?_eq_none (by decide)]
  rfl

theorem isReadAgain_of_single (h : read? '\'' rest = some (t, after)) (echo : Echo after other) :
    t.IsReadAgain ('\'' :: rest) other := by
  rw [read?_single] at h
  obtain ⟨⟨text, behind⟩, hread, hpair⟩ := Option.map_eq_some_iff.1 h
  cases hpair
  obtain ⟨_, rfl, rfl, stop⟩ := exists_of_quotedFrom? hread
  refine .of_exact rfl (List.append_assoc ..) echo ?_
  rw [read?_single, List.append_assoc, List.singleton_append,
    quotedFrom?_doubled _ (echo.stops stop (by decide) (by decide))]
  rfl

theorem isReadAgain_of_double (h : read? '"' rest = some (t, after)) (faithful : t.IsFaithful)
    (echo : Echo after other) : t.IsReadAgain ('"' :: rest) other := by
  rw [read?_double] at h
  obtain ⟨⟨name, behind⟩, hread, hpair⟩ := Option.map_eq_some_iff.1 h
  cases hpair
  obtain ⟨_, rfl, rfl, stop⟩ := exists_of_quotedFrom? hread
  have plain : doubled '"' name = name := doubled_of_not_mem faithful
  have again := @quotedFrom?_doubled '"' [] other name (echo.stops stop (by decide) (by decide))
  rw [plain] at again
  refine .of_exact rfl ?_ echo ?_
  · rw [plain, List.append_assoc]
    rfl
  · rw [read?_double, List.append_assoc]
    exact congrArg (Option.map _) again

/-- A question mark is read again with the bar or the ampersand behind it. -/
theorem isReadAgain_of_question (h : read? '?' rest = some (t, after))
    (question : t ≠ .symbol ['?']) (echo : Echo after other) :
    t.IsReadAgain ('?' :: rest) other := by
  rw [read?_question] at h
  split at h
  next hbar =>
    cases h
    refine .of_exact rfl (List.take_append_drop 1 rest) echo ?_
    cases rest with
    | nil => simp at hbar
    | cons x rest =>
      rw [read?_question]
      exact if_pos hbar
  next =>
    cases h
    exact absurd rfl question

/-! ### Tokens without quotes and digits -/

/-- The reader of what begins with no quote, digit, point, comment or question mark. -/
def plain? (c : Char) (rest : List Char) : Option (Token × List Char) :=
  match operator? (c :: rest) with
  | some found => some found
  | none =>
    if startsWord c then some (wordOf c rest)
    else if c = '$' then dollarOf? rest
    else if isBlank c then some (.blank, rest)
    else some (.symbol [c], rest)

theorem read?_eq_plain? (unmarked : marked? c rest = none) (single : c ≠ '\'') (double : c ≠ '"')
    (number : ¬(isAsciiDigit c || c == '.') = true) (line : ¬(c = '-' ∧ rest.head? = some '-'))
    (block : ¬(c = '/' ∧ rest.head? = some '*')) (question : c ≠ '?') :
    read? c rest = plain? c rest := by
  unfold read?
  rw [unmarked]
  simp only [if_neg single, if_neg double, if_neg number, if_neg line, if_neg block,
    if_neg question]
  rfl

theorem operator?_of_no_prefix {text : List Char} (h : ∀ op ∈ operators, ¬op.1.toList <+: text) :
    operator? text = none := by
  unfold operator?
  split
  next op grows hfind =>
    have begins := List.find?_some hfind
    exact absurd (List.isPrefixOf_iff_prefix.1 begins) (h _ (List.mem_of_find?_eq_some hfind))
  next => rfl

/-- Whether an operator begins with a character does not depend on what follows it. -/
theorem operator?_eq_none (h : operator? (c :: rest) = none) (other : List Char) :
    operator? (c :: other) = none := by
  have short : ∀ op ∈ operators, op.1.toList ≠ [] ∧
      ∃ single ∈ operators, single.1.toList = op.1.toList.take 1 := by decide
  have absent : ∀ op ∈ operators, ¬op.1.toList <+: c :: rest := by
    intro op hop hprefix
    unfold operator? at h
    split at h
    · dsimp only at h
      split at h <;> cases h
    next hfind =>
      exact List.find?_eq_none.1 hfind op hop (List.isPrefixOf_iff_prefix.2 hprefix)
  refine operator?_of_no_prefix fun op hop hprefix => ?_
  obtain ⟨hne, single, hsingle, hchars⟩ := short op hop
  obtain ⟨x, tail, htail⟩ := List.exists_cons_of_ne_nil hne
  rw [htail] at hprefix
  obtain ⟨rfl, -⟩ := List.cons_prefix_cons.1 hprefix
  exact absent single hsingle ⟨rest, by rw [hchars, htail]; rfl⟩

/-- A character that begins no literal, number, comment or question mark. -/
theorem first?_eq_plain? (unmarked : marked? c rest = none) (digit : isAsciiDigit c = false)
    (sign : c ∉ "'\".-/?".toList) : first? (c :: rest) = plain? c rest := by
  have signs : "'\".-/?".toList = ['\'', '"', '.', '-', '/', '?'] := by decide
  simp only [signs, List.mem_cons, List.not_mem_nil, or_false, not_or] at sign
  obtain ⟨single, double, point, line, block, question⟩ := sign
  refine read?_eq_plain? unmarked single double ?_ ?_ ?_ question
  · simp [digit, point]
  · exact fun h => line h.1
  · exact fun h => block h.1

theorem first?_blank (h : isBlank c = true) (rest : List Char) :
    first? (c :: rest) = some (.blank, rest) := by
  obtain ⟨mark, digit, sign, noOperator, word, dollar⟩ :=
    of_isBlank h (P := fun c => c ∉ "bBnNeExXuU".toList ∧ isAsciiDigit c = false ∧
      c ∉ "'\".-/?".toList ∧ operator? [c] = none ∧ startsWord c = false ∧ c ≠ '$')
      (by decide +kernel)
  rw [first?_eq_plain? (marked?_eq_none mark rest) digit sign, plain?,
    operator?_eq_none noOperator rest]
  simp only [word, Bool.false_eq_true, if_false, if_neg dollar, if_pos h]

theorem first?_space (rest : List Char) : first? (' ' :: rest) = some (.blank, rest) :=
  first?_blank (by decide) rest

/-- A blank, an inequality under its second spelling, or a token that is written as it was read and
is read again. -/
theorem plain?_cases (h : plain? c rest = some (t, after)) :
    t = .blank ∨ (t = .symbol "<>".toList ∧ c :: rest = '!' :: '=' :: after) ∨
    t.isSeparator = false ∧ ∃ inside, t.render = c :: inside ∧ inside ++ after = rest ∧
      ∀ other, Echo after other → plain? c (inside ++ other) = some (t, other) := by
  unfold plain? at h
  split at h
  next found hoperator =>
    cases h
    rcases operator?_cases hoperator with ⟨rfl, hsource⟩ | ⟨s, hs, rfl, hsource, again⟩
    · exact .inr (.inl ⟨rfl, hsource⟩)
    · right; right
      obtain ⟨x, inside, rfl⟩ := List.exists_cons_of_ne_nil hs
      obtain ⟨rfl, rfl⟩ := List.cons.inj hsource
      refine ⟨rfl, inside, rfl, rfl, fun other echo => ?_⟩
      have read := again other echo
      rw [List.cons_append] at read
      rw [plain?, read]
  next hoperator =>
    split at h
    next hword =>
      right; right
      cases h
      obtain ⟨whole, again⟩ := rereads_word rest
      refine ⟨rfl, _, rfl, whole, fun other echo => ?_⟩
      obtain ⟨htake, hdrop⟩ := Prod.mk.inj (again other echo)
      rw [plain?, operator?_eq_none hoperator]
      simp only [if_pos hword, wordOf]
      rw [htake, hdrop]
    next hword =>
      split at h
      next hdollar =>
        right; right
        subst hdollar
        obtain ⟨significant, inside, hrender, whole, again⟩ := dollarOf?_cases h
        refine ⟨significant, inside, hrender, whole, fun other echo => ?_⟩
        rw [plain?, operator?_eq_none hoperator]
        simp only [if_neg hword, if_true, again other echo]
      next hdollar =>
        split at h
        next hblank =>
          cases h
          exact .inl rfl
        next hblank =>
          right; right
          cases h
          refine ⟨rfl, [], rfl, rfl, fun other _ => ?_⟩
          rw [plain?, operator?_eq_none hoperator]
          simp only [if_neg hword, if_neg hdollar, if_neg hblank, List.nil_append]

theorem read?_unequal (stop : Stops isOperatorChar other) :
    read? '<' ('>' :: other) = some (.symbol "<>".toList, other) := by
  have unequal : operator? ('<' :: '>' :: other) =
      some (.symbol ("<>".toList ++ other.takeWhile isOperatorChar),
        other.dropWhile isOperatorChar) := rfl
  rw [stop.takeWhile, stop.dropWhile, List.append_nil] at unequal
  rw [read?_eq_plain? rfl (by decide) (by decide) (by decide) (by simp) (by simp) (by decide),
    plain?, unequal]

/-- A significant token that is faithful is read again, unless it is a question mark alone. -/
theorem isReadAgain_of_read? (h : read? c rest = some (t, after)) (significant : t.isSeparator = false)
    (faithful : t.IsFaithful) (question : c = '?' → t ≠ .symbol ['?']) (echo : Echo after other)
    (ends : t.EndsBefore other) : t.IsReadAgain (c :: rest) other := by
  by_cases single : c = '\''
  · subst single
    exact isReadAgain_of_single h echo
  by_cases double : c = '"'
  · subst double
    exact isReadAgain_of_double h faithful echo
  by_cases hquestion : c = '?'
  · subst hquestion
    exact isReadAgain_of_question h (question rfl) echo
  have shorter := length_read h
  unfold read? at h
  split at h
  next literal hmarked => exact isReadAgain_of_marked? (hmarked.trans (congrArg some h)) faithful echo
  next unmarked =>
  have still : ∀ inside, inside ++ after = rest → marked? c (inside ++ other) = none :=
    fun inside hrest => marked?_echo unmarked (hrest ▸ echo.append inside)
  rw [if_neg single, if_neg double, if_neg hquestion] at h
  split at h
  next number =>
    rcases numberOf_cases (Option.some.inj h) with
      ⟨digits, rfl, hsource, -⟩ | ⟨-, whole, again⟩
    · obtain ⟨rfl, rfl⟩ := List.cons.inj hsource
      exact ⟨.changed (by decide), first?_hex faithful ends⟩
    · cases hrender : t.render with
      | nil =>
        rw [hrender, List.nil_append] at whole
        rw [whole, List.length_cons] at shorter
        omega
      | cons x inside =>
        rw [hrender, List.cons_append] at whole
        obtain ⟨rfl, hrest⟩ := List.cons.inj whole
        refine .of_exact hrender hrest echo ?_
        have reread := again other echo
        rw [hrender, List.cons_append] at reread
        unfold read?
        rw [still _ hrest, if_neg single, if_neg double, if_pos number, reread]
  next number =>
  split at h
  next =>
    cases h
    cases significant
  next line =>
  split at h
  next =>
    obtain ⟨_, -, hpair⟩ := Option.map_eq_some_iff.1 h
    cases hpair
    cases significant
  next block =>
    have hplain : plain? c rest = some (t, after) := h
    rcases plain?_cases hplain with rfl | ⟨rfl, hsource⟩ | ⟨-, inside, hrender, whole, again⟩
    · cases significant
    · obtain ⟨rfl, rfl⟩ := List.cons.inj hsource
      exact ⟨.changed (by decide), read?_unequal (ends rfl)⟩
    · have echoRest : Echo rest (inside ++ other) := whole ▸ echo.append inside
      refine .of_exact hrender whole echo ?_
      rw [read?_eq_plain? (still inside whole) single double number ?_ ?_ hquestion,
        again other echo]
      · rintro ⟨hc, hhead⟩
        exact echoRest.head_ne (by decide) (fun hrest => line ⟨hc, hrest⟩) hhead
      · rintro ⟨hc, hhead⟩
        exact echoRest.head_ne (by decide) (fun hrest => block ⟨hc, hrest⟩) hhead

/-! ### Tokens that touch -/

/-- The text is empty or begins with a space. -/
def IsApart (text : List Char) : Prop := text = [] ∨ ∃ more, text = ' ' :: more

theorem IsApart.echo (h : IsApart other) (source : List Char) : Echo source other := by
  rcases h with rfl | ⟨more, rfl⟩
  · exact .done
  · exact .space

theorem IsApart.stops {p : Char → Bool} (h : IsApart other) (space : p ' ' = false) :
    Stops p other := by
  rcases h with rfl | ⟨more, rfl⟩
  · exact Stops.nil
  · exact stops_cons.2 space

/-- A significant token that begins with an operator character is a symbol. -/
theorem exists_symbol_of_read? (h : read? c rest = some (t, after))
    (hc : isOperatorChar c = true) (significant : t.isSeparator = false) :
    ∃ x more, t = .symbol (x :: more) ∧ isOperatorChar x = true := by
  have chars : ∀ c, isOperatorChar c = true → c ∉ "bBnNeExXuU".toList ∧ c ≠ '\'' ∧ c ≠ '"' ∧
      ¬(isAsciiDigit c || c == '.') = true ∧ startsWord c = false ∧ c ≠ '$' ∧ isBlank c = false := by
    have all : ∀ c ∈ ['+', '-', '*', '/', '<', '>', '=', '~', '!', '@', '#', '%', '^', '&', '|',
        '\x60', '?'], c ∉ "bBnNeExXuU".toList ∧ c ≠ '\'' ∧ c ≠ '"' ∧
        ¬(isAsciiDigit c || c == '.') = true ∧ startsWord c = false ∧ c ≠ '$' ∧
        isBlank c = false := List.all_iff_forall_prop.1 (by decide)
    exact fun c hc => all c (List.contains_iff_mem.1 hc)
  obtain ⟨hmark, single, double, number, word, dollar, blank⟩ := chars c hc
  by_cases hquestion : c = '?'
  · subst hquestion
    rw [read?_question] at h
    split at h <;> cases h
    · exact ⟨_, _, rfl, hc⟩
    · exact ⟨_, _, rfl, hc⟩
  by_cases line : c = '-' ∧ rest.head? = some '-'
  · obtain ⟨rfl, hhead⟩ := line
    obtain ⟨rest, rfl⟩ := List.head?_eq_some_iff.1 hhead
    rw [read?_line] at h
    cases h
    cases significant
  by_cases block : c = '/' ∧ rest.head? = some '*'
  · obtain ⟨rfl, hhead⟩ := block
    obtain ⟨rest, rfl⟩ := List.head?_eq_some_iff.1 hhead
    rw [read?_block] at h
    obtain ⟨_, -, hpair⟩ := Option.map_eq_some_iff.1 h
    cases hpair
    cases significant
  rw [read?_eq_plain? (marked?_eq_none hmark rest) single double number line block hquestion] at h
  unfold plain? at h
  split at h
  next found hoperator =>
    cases h
    rcases operator?_cases hoperator with ⟨rfl, -⟩ | ⟨s, hs, rfl, hsource, -⟩
    · exact ⟨'<', ['>'], rfl, by decide⟩
    · obtain ⟨x, more, rfl⟩ := List.exists_cons_of_ne_nil hs
      obtain ⟨rfl, -⟩ := List.cons.inj hsource
      exact ⟨x, more, rfl, hc⟩
  next =>
    simp only [word, if_neg dollar, blank, Bool.false_eq_true, if_false] at h
    cases h
    exact ⟨c, [], rfl, hc⟩

theorem isSeparator_of_map {read : Option (List Char × List Char)} {make : List Char → Token}
    (h : read.map (fun (s, rest) => (make s, rest)) = some (t, after))
    (significant : ∀ s, (make s).isSeparator = false) : t.isSeparator = false := by
  obtain ⟨⟨s, _⟩, -, hpair⟩ := Option.map_eq_some_iff.1 h
  cases hpair
  exact significant s

theorem isSeparator_of_marked? (h : marked? c rest = some (some (t, after))) :
    t.isSeparator = false := by
  unfold marked? at h
  split at h
  next inside =>
    split at h
    · exact isSeparator_of_map (Option.some.inj h) fun _ => rfl
    split at h
    · exact isSeparator_of_map (Option.some.inj h) fun _ => rfl
    split at h
    · exact isSeparator_of_map (Option.some.inj h) fun _ => rfl
    split at h
    · exact isSeparator_of_map (Option.some.inj h) fun _ => rfl
    · cases h
  next inside =>
    split at h
    · exact isSeparator_of_map (Option.some.inj h) fun _ => rfl
    · cases h
  next inside =>
    split at h
    · exact isSeparator_of_map (Option.some.inj h) fun _ => rfl
    · cases h
  next => cases h

theorem commentLevel?_of_read? {body : List Char} (h : read? c rest = some (.blockComment body, after)) :
    commentLevel? 0 body = some 0 := by
  unfold read? at h
  split at h
  next literal hmarked => cases isSeparator_of_marked? (hmarked.trans (congrArg some h))
  split at h
  · obtain ⟨_, -, hpair⟩ := Option.map_eq_some_iff.1 h
    cases hpair
  split at h
  · obtain ⟨_, -, hpair⟩ := Option.map_eq_some_iff.1 h
    cases hpair
  split at h
  · rcases numberOf_cases (Option.some.inj h) with ⟨_, hnumber, -⟩ | ⟨hnumber, -⟩
    · cases hnumber
    · cases hnumber
  split at h
  · cases h
  split at h
  · obtain ⟨⟨inside, behind⟩, hread, hpair⟩ := Option.map_eq_some_iff.1 h
    cases hpair
    obtain ⟨_, rfl, -, hlevel⟩ := exists_of_commentFrom? hread
    exact hlevel
  split at h
  · split at h <;> cases h
  rcases plain?_cases h with hblank | ⟨hunequal, -⟩ | ⟨hsignificant, -⟩
  · cases hblank
  · cases hunequal
  · cases hsignificant

theorem endsBefore_of_isApart (t : Token) (h : IsApart other) : t.EndsBefore other := by
  cases t with
  | symbol text => exact fun _ => h.stops (by decide)
  | hex text => exact h.stops (by decide)
  | _ => trivial

/-- A token ends before the text of what may follow it. -/
theorem endsBefore_of_joins {next : Token} {tokens : List Token} (apart : t.joins next = false)
    (follows : tokenize? after = some (next :: tokens)) (echo : Echo after other)
    (separated : next.isSeparator = true → IsApart other) : t.EndsBefore other := by
  by_cases hseparator : next.isSeparator = true
  · exact endsBefore_of_isApart t (separated hseparator)
  rw [Bool.not_eq_true] at hseparator
  -- what the text begins with, the next token was read from
  cases after with
  | nil => simp [tokenize?] at follows
  | cons c rest =>
    obtain ⟨behind, hread, -⟩ := exists_of_tokenize? follows
    cases t with
    | symbol text =>
      rintro rfl
      by_cases hc : isOperatorChar c = true
      · obtain ⟨x, more, rfl, hx⟩ := exists_symbol_of_read? hread hc hseparator
        rw [joins, hx] at apart
        cases apart
      · rw [Bool.not_eq_true] at hc
        exact echo.stops (stops_cons.2 hc) (by decide) (by decide)
    | hex text =>
      by_cases hc : c = '\''
      · subst hc
        rw [read?_single] at hread
        obtain ⟨_, -, hpair⟩ := Option.map_eq_some_iff.1 hread
        cases hpair
        cases apart
      · have stop : Stops (· == '\'') (c :: rest) := stops_cons.2 (by simpa using hc)
        exact echo.stops stop (by decide) (by decide)
    | _ => trivial

end Token

/-! ## Condensed texts -/

open Token

/-- The tokens of the text that mean something. -/
def ReadsAs (text : List Char) (significant : List Token) : Prop :=
  ∃ tokens, tokenize? text = some tokens ∧ tokens.filter (!·.isSeparator) = significant

section Condensed

variable {c : Char} {text rest after body : List Char} {t next : Token}
  {tokens significant : List Token}

theorem tokenize?_of_first? (h : first? text = some (t, rest)) :
    tokenize? text = (tokenize? rest).map (t :: ·) := by
  cases text with
  | nil => cases h
  | cons c text =>
    have read : read? c text = some (t, rest) := h
    rw [tokenize?]
    split
    next first behind hread =>
      rw [read] at hread
      cases hread
      rfl
    next hread =>
      rw [read] at hread
      cases hread

namespace ReadsAs

theorem nil : ReadsAs [] [] := ⟨[], by rw [tokenize?], rfl⟩

theorem cons (h : first? text = some (t, rest)) (hrest : ReadsAs rest significant)
    (ht : t.isSeparator = false) : ReadsAs text (t :: significant) := by
  obtain ⟨tokens, htokens, rfl⟩ := hrest
  refine ⟨t :: tokens, ?_, ?_⟩
  · rw [tokenize?_of_first? h, htokens]
    rfl
  · rw [List.filter_cons, ht]
    rfl

theorem skip (h : first? text = some (t, rest)) (hrest : ReadsAs rest significant)
    (ht : t.isSeparator = true) : ReadsAs text significant := by
  obtain ⟨tokens, htokens, rfl⟩ := hrest
  refine ⟨t :: tokens, ?_, ?_⟩
  · rw [tokenize?_of_first? h, htokens]
    rfl
  · rw [List.filter_cons, ht]
    rfl

theorem space (h : ReadsAs text significant) : ReadsAs (' ' :: text) significant :=
  h.skip (first?_space text) rfl

theorem of_space (h : ReadsAs (' ' :: text) significant) : ReadsAs text significant := by
  obtain ⟨tokens, htokens, rfl⟩ := h
  rw [tokenize?_of_first? (first?_space text)] at htokens
  obtain ⟨tokens, hrest, rfl⟩ := Option.map_eq_some_iff.1 htokens
  exact ⟨tokens, hrest, rfl⟩

/-- A question mark takes in the space behind it. -/
theorem question (h : ReadsAs text significant) (apart : IsApart text) :
    ReadsAs ('?' :: text) (.symbol ['?'] :: significant) := by
  rcases apart with rfl | ⟨more, rfl⟩
  · exact h.cons (read?_question []) rfl
  · exact h.of_space.cons (read?_question (' ' :: more)) rfl

theorem keptComment {kept : List Char} (h : ReadsAs text significant)
    (hkept : keptComment? body = some kept) (paired : commentLevel? 0 body = some 0) :
    ReadsAs (kept ++ text) significant := by
  unfold keptComment? at hkept
  split at hkept
  next =>
    cases hkept
    have level : commentLevel? 0 (' ' :: collapseBlanks (trim body)) = some 0 := by
      rw [commentLevel?_blank (by decide), collapseBlanks, commentLevel?_collapse,
        commentLevel?_trim, paired]
    refine h.skip (t := .blockComment (' ' :: collapseBlanks (trim body) ++ [' '])) ?_ rfl
    have read := @commentFrom?_append 0 [] _ level text
    change read? '/' ('*' :: (' ' :: collapseBlanks (trim body) ++ " */".toList ++ text)) = _
    rw [read?_block, read]
    rfl
  next => cases hkept

end ReadsAs

theorem condenseFrom_token (started apart : Bool) (ht : t.isSeparator = false)
    (tokens : List Token) :
    condenseFrom started apart (t :: tokens) =
      (if started && apart then [' '] else []) ++ t.render ++ condenseFrom true false tokens := by
  cases t with
  | blank => cases ht
  | lineComment body => cases ht
  | blockComment body => cases ht
  | _ => rfl

/-- Text of a run of tokens behind a comment. -/
def condenseComment (started : Bool) (body : List Char) (tokens : List Token) : List Char :=
  match keptComment? body with
  | some kept => (if started then [' '] else []) ++ kept ++ condenseFrom true true tokens
  | none => condenseFrom started true tokens

theorem isApart_condenseFrom (tokens : List Token) : IsApart (condenseFrom true true tokens) := by
  have comment : ∀ body tokens, IsApart (condenseFrom true true tokens) →
      IsApart (condenseComment true body tokens) := by
    intro body tokens ih
    unfold condenseComment
    split
    · exact .inr ⟨_, rfl⟩
    · exact ih
  induction tokens with
  | nil => exact .inl rfl
  | cons t tokens ih =>
    cases t with
    | blank => exact ih
    | lineComment body => exact comment body tokens ih
    | blockComment body => exact comment body tokens ih
    | _ => exact .inr ⟨_, rfl⟩

/-- A separator is written as a space, if as anything, behind other text. -/
theorem isApart_of_isSeparator (ht : t.isSeparator = true) (apart : Bool) (tokens : List Token) :
    IsApart (condenseFrom true apart (t :: tokens)) := by
  cases t with
  | blank => exact isApart_condenseFrom tokens
  | lineComment body => exact isApart_condenseFrom (.lineComment body :: tokens)
  | blockComment body => exact isApart_condenseFrom (.blockComment body :: tokens)
  | _ => cases ht

/-- The text of tokens is read as they were, wherever it is written. -/
def ReadsBack (tokens : List Token) : Prop :=
  ∀ started apart, ReadsAs (condenseFrom started apart tokens) (tokens.filter (!·.isSeparator))

theorem readsAs_condenseComment (h : ReadsBack tokens)
    (paired : '#' ∈ body → commentLevel? 0 body = some 0) (started : Bool) :
    ReadsAs (condenseComment started body tokens) (tokens.filter (!·.isSeparator)) := by
  unfold condenseComment
  split
  next kept hkept =>
    have number : '#' ∈ body := by
      by_contra number
      simp [keptComment?, number] at hkept
    have written := (h true true).keptComment hkept (paired number)
    cases started with
    | true =>
      rw [if_pos rfl, List.append_assoc]
      exact written.space
    | false => exact written
  next => exact h started true

/-- A significant token in front of tokens that are read as they were. -/
theorem readsAs_cons (hread : read? c rest = some (t, after)) (ht : t.isSeparator = false)
    (faithful : t.IsFaithful) (apart : (t :: tokens).IsChain fun t next => t.joins next = false)
    (follows : tokenize? after = some tokens) (echo : Echo after (condenseFrom true false tokens))
    (again : ReadsBack tokens) :
    Echo (c :: rest) (t.render ++ condenseFrom true false tokens) ∧
      ReadsAs (t.render ++ condenseFrom true false tokens)
        (t :: tokens.filter (!·.isSeparator)) := by
  by_cases question : c = '?' ∧ t = .symbol ['?']
  · obtain ⟨rfl, rfl⟩ := question
    have behind : IsApart (condenseFrom true false tokens) := by
      cases tokens with
      | nil => exact .inl rfl
      | cons next tokens =>
        have hnext : (!next.isSeparator) = false := (List.isChain_cons_cons.1 apart).1
        exact isApart_of_isSeparator (by simpa using hnext) false tokens
    exact ⟨.same (behind.echo _), (again true false).question behind⟩
  have ends : t.EndsBefore (condenseFrom true false tokens) := by
    cases tokens with
    | nil => exact endsBefore_of_isApart t (.inl rfl)
    | cons next tokens =>
      exact endsBefore_of_joins (List.isChain_cons_cons.1 apart).1 follows echo fun hnext =>
        isApart_of_isSeparator hnext false tokens
  have written := isReadAgain_of_read? hread ht faithful (fun hc ht => question ⟨hc, ht⟩) echo ends
  exact ⟨written.echo, (again true false).cons written.read ht⟩

/-- What the tokens of a text are condensed to echoes the text behind a token, and is read as they
were. -/
theorem echo_and_readsBack (h : tokenize? text = some tokens)
    (faithful : ∀ t ∈ tokens, t.IsFaithful)
    (apart : tokens.IsChain fun t next => t.joins next = false) :
    Echo text (condenseFrom true false tokens) ∧ ReadsBack tokens := by
  induction tokens generalizing text with
  | nil => exact ⟨.done, fun _ _ => ReadsAs.nil⟩
  | cons t tokens ih =>
    cases text with
    | nil => simp [tokenize?] at h
    | cons c rest =>
    obtain ⟨after, hread, follows⟩ := exists_of_tokenize? h
    obtain ⟨echo, again⟩ := ih follows (fun t ht => faithful t (List.mem_cons_of_mem _ ht)) apart.tail
    have ht := faithful t List.mem_cons_self
    by_cases hseparator : t.isSeparator = true
    · refine ⟨(isApart_of_isSeparator hseparator false tokens).echo _, fun started behind => ?_⟩
      rw [List.filter_cons, hseparator]
      cases t with
      | blank => exact again started true
      | lineComment body => exact readsAs_condenseComment again ht started
      | blockComment body =>
        exact readsAs_condenseComment again (fun _ => commentLevel?_of_read? hread) started
      | _ => cases hseparator
    · rw [Bool.not_eq_true] at hseparator
      obtain ⟨echoToken, reads⟩ := readsAs_cons hread hseparator ht apart follows echo again
      refine ⟨?_, fun started behind => ?_⟩
      · rw [condenseFrom_token true false hseparator]
        exact echoToken
      · rw [condenseFrom_token started behind hseparator, List.append_assoc, List.filter_cons,
          hseparator]
        cases started && behind with
        | true => exact reads.space
        | false => exact reads

end Condensed

/-- **Condensed texts have the tokens of their sources.** Blanks and comments apart, a text is condensed
to one that is cut into the same tokens: no literal, name or symbol is altered, and no comment that is
kept is read as anything else. -/
theorem condense_tokens {text : List Char} {tokens : List Token}
    (h : tokenize? (withoutMark text) = some tokens) (faithful : ∀ t ∈ tokens, t.IsFaithful)
    (apart : tokens.IsChain fun t next => t.joins next = false) :
    ∃ again, tokenize? (condense text) = some again ∧
      again.filter (!·.isSeparator) = tokens.filter (!·.isSeparator) := by
  have reads := (echo_and_readsBack h faithful apart).2 false false
  unfold condense
  simp only [h]
  exact reads

/-- A query with a tag in a line comment, another comment, and tokens that are written in another
way. -/
theorem condense_tokens_tagged_query :
    ∃ again, tokenize? (condense
        "select 'it''s', \"Id\" -- #name id\nfrom t where a != 0x1F /* any */;".toList) =
          some again ∧
      again.filter (!·.isSeparator) =
        [.word "select".toList, .string "it's".toList, .symbol [','], .quotedName "Id".toList,
          .word "from".toList, .word "t".toList, .word "where".toList, .word "a".toList,
          .symbol "<>".toList, .hex "1F".toList, .symbol [';']] :=
  @condense_tokens "select 'it''s', \"Id\" -- #name id\nfrom t where a != 0x1F /* any */;".toList
    [.word "select".toList, .blank, .string "it's".toList, .symbol [','], .blank,
      .quotedName "Id".toList, .blank, .lineComment " #name id\n".toList, .word "from".toList,
      .blank, .word "t".toList, .blank, .word "where".toList, .blank, .word "a".toList, .blank,
      .symbol "<>".toList, .blank, .hex "1F".toList, .blank, .blockComment " any ".toList,
      .symbol [';']]
    (by decide +kernel) (by decide) (by decide)

/-- A quote behind a backslash is written as a bare quote, which ends the literal there. -/
theorem condense_escaped_quote :
    tokenize? "select E'it\\'s'".toList =
        some [.word "select".toList, .blank, .escape "it's".toList] ∧
      condense "select E'it\\'s'".toList = "select E'it's'".toList ∧
      tokenize? (condense "select E'it\\'s'".toList) = none := by
  refine ⟨?_, ?_, ?_⟩ <;> decide +kernel

end ReleaseSchema.Sql
