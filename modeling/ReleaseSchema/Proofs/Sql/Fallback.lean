/-
A text that is condensed by its tokens and one that is condensed by its comment
marks and blanks alone are the same, as long as the text is made of letters,
punctuation marks, blanks and comments (`condenseTokens_eq_condenseRoughly`).

Both are compared with the tokens of the pieces that the text is written in,
one for each letter. The tokenizer takes the letters of a word together, which
makes no difference when they are written (`CondensesTo.letter`). The fallback
writes a text for each comment and squeezes the blanks, which keeps the blanks
of that text as they are (`SqueezesTo.comment`).
-/
import ReleaseSchema.Proofs.Sql.Comment
import ReleaseSchema.Proofs.Sql.Layout

namespace ReleaseSchema.Sql

open Text Token

/-! ## Scripts -/

/-- What a script is written in. -/
inductive Piece where
  | code (c : Char)
  | filler (f : Filler)
  deriving DecidableEq, Repr

namespace Piece

def render : Piece → List Char
  | code c => [c]
  | filler f => f.render

/-- The token of the piece alone. -/
def token : Piece → Token
  | code c => .symbol [c]
  | filler f => f.token

/-- A letter, an underscore, a punctuation mark or what may stand between tokens. -/
def IsPlain : Piece → Prop
  | code c => startsWord c = true ∨ isPunctuation c = true
  | filler f => f.IsPlain

instance : DecidablePred IsPlain
  | code c => inferInstanceAs (Decidable (startsWord c = true ∨ isPunctuation c = true))
  | filler f => inferInstanceAs (Decidable f.IsPlain)

end Piece

/-- A text in pieces. A line comment without a line end may stand behind them. -/
structure Script where
  pieces : List Piece
  ending : Option (List Char)

namespace Script

def endingText : Option (List Char) → List Char
  | some body => '-' :: '-' :: body
  | none => []

def endingTokens : Option (List Char) → List Token
  | some body => [.lineComment body]
  | none => []

def text (s : Script) : List Char := s.pieces.flatMap Piece.render ++ endingText s.ending

/-- The tokens of the pieces. -/
def tokens (s : Script) : List Token := s.pieces.map Piece.token ++ endingTokens s.ending

structure IsPlain (s : Script) : Prop where
  pieces : ∀ p ∈ s.pieces, p.IsPlain
  ending : ∀ body ∈ s.ending, '\n' ∉ body ∧ '\r' ∉ body

instance : DecidablePred IsPlain := fun s =>
  decidable_of_iff ((∀ p ∈ s.pieces, p.IsPlain) ∧ ∀ body ∈ s.ending, '\n' ∉ body ∧ '\r' ∉ body)
    ⟨fun ⟨pieces, ending⟩ => ⟨pieces, ending⟩, fun h => ⟨h.pieces, h.ending⟩⟩

theorem text_cons (p : Piece) (pieces : List Piece) (ending : Option (List Char)) :
    text ⟨p :: pieces, ending⟩ = p.render ++ text ⟨pieces, ending⟩ := by
  rw [text, text, List.flatMap_cons, List.append_assoc]

theorem IsPlain.tail {p : Piece} {pieces : List Piece} {ending : Option (List Char)}
    (h : IsPlain ⟨p :: pieces, ending⟩) : IsPlain ⟨pieces, ending⟩ where
  pieces := fun other hother => h.pieces other (List.mem_cons_of_mem _ hother)
  ending := h.ending

end Script

/-! ## By tokens -/

/-- The text has tokens, and they are condensed like the given ones. -/
def CondensesTo (text : List Char) (tokens : List Token) : Prop :=
  ∃ read, tokenize? text = some read ∧
    ∀ started apart, condenseFrom started apart read = condenseFrom started apart tokens

section Tokens

variable {c : Char} {t : Token} {text rest : List Char} {read tokens : List Token}

theorem condenseFrom_cons
    (same : ∀ started apart, condenseFrom started apart read = condenseFrom started apart tokens)
    (t : Token) (started apart : Bool) :
    condenseFrom started apart (t :: read) = condenseFrom started apart (t :: tokens) := by
  cases t <;> simp only [condenseFrom, same]

theorem CondensesTo.cons (h : CondensesTo rest tokens) (hread : first? text = some (t, rest)) :
    CondensesTo text (t :: tokens) := by
  obtain ⟨read, hrest, same⟩ := h
  refine ⟨t :: read, ?_, condenseFrom_cons same t⟩
  rw [tokenize?_of_first? hread, hrest]
  rfl

/-- A letter and the word behind it are read as one word. -/
theorem CondensesTo.letter (h : CondensesTo rest tokens) (hc : startsWord c = true)
    (unmarked : marked? c rest = none)
    (next : ∀ d more, rest = d :: more → continuesWord d = true →
      first? rest = some (wordOf d more)) :
    CondensesTo (c :: rest) (.symbol [c] :: tokens) := by
  have first := first?_word hc unmarked
  by_cases stop : Stops continuesWord rest
  · rw [wordOf, stop.takeWhile, stop.dropWhile] at first
    obtain ⟨read, htokens, same⟩ := h.cons first
    exact ⟨read, htokens, same⟩
  obtain ⟨read, hrest, same⟩ := h
  obtain ⟨d, more, rfl, hd⟩ : ∃ d more, rest = d :: more ∧ continuesWord d = true := by
    cases rest with
    | nil => exact absurd Stops.nil stop
    | cons d more => exact ⟨d, more, rfl, by simpa [stops_cons] using stop⟩
  have word := next d more rfl hd
  rw [tokenize?_of_first? word] at hrest
  obtain ⟨behind, hbehind, rfl⟩ := Option.map_eq_some_iff.1 hrest
  rw [wordOf, List.takeWhile_cons_of_pos hd, List.dropWhile_cons_of_pos hd] at first
  refine ⟨.word (c :: d :: more.takeWhile continuesWord) :: behind, ?_, fun started apart => ?_⟩
  · rw [tokenize?_of_first? first]
    exact congrArg (Option.map _) hbehind
  · -- the letters are written in one go, and nothing stands between them
    have again : d :: more.takeWhile continuesWord ++ condenseFrom true false behind =
        condenseFrom true false tokens := same true false
    rw [condenseFrom_token started apart rfl, condenseFrom_token started apart rfl, ← again]
    simp [Token.render]

theorem continuesWord_of_startsWord (h : startsWord c = true) : continuesWord c = true := by
  simp only [startsWord, Bool.or_eq_true] at h
  rcases h with letter | underscore
  · simp [continuesWord, letter]
  · simp [continuesWord, underscore]

/-- A script begins with a letter in front of another script, or with what goes on with no word and
no mark. -/
theorem head_text {s : Script} (h : s.IsPlain) (htext : s.text = c :: rest) :
    (startsWord c = true ∧ ∃ behind : Script, behind.IsPlain ∧ behind.text = rest) ∨
      continuesWord c = false ∧ followsMark c = false := by
  obtain ⟨pieces, ending⟩ := s
  cases pieces with
  | nil =>
    cases ending with
    | none => cases htext
    | some body =>
      obtain ⟨rfl, -⟩ := List.cons.inj htext
      right
      decide
  | cons p pieces =>
    rw [Script.text_cons] at htext
    cases p with
    | code d =>
      have hd : startsWord d = true ∨ isPunctuation d = true := h.pieces _ List.mem_cons_self
      obtain ⟨rfl, hrest⟩ := List.cons.inj htext
      refine hd.imp (fun letter => ⟨letter, _, h.tail, hrest⟩) fun punctuation => ?_
      simp only [isPunctuation, Bool.or_eq_true, beq_iff_eq] at punctuation
      rcases punctuation with ((rfl | rfl) | rfl) | rfl <;> decide
    | filler f =>
      have plain : f.IsPlain := h.pieces _ List.mem_cons_self
      obtain ⟨d, more, hrender, hd⟩ := head_render plain
      have hrender : Piece.render (.filler f) = d :: more := hrender
      rw [hrender] at htext
      obtain ⟨rfl, -⟩ := List.cons.inj htext
      exact .inr ⟨of_beginsFiller hd (by decide +kernel) (by decide) (by decide),
        of_beginsFiller hd (by decide) (by decide) (by decide)⟩

theorem stops_followsMark {s : Script} (h : s.IsPlain) : Stops followsMark s.text := by
  cases htext : s.text with
  | nil => exact Stops.nil
  | cons c rest =>
    rcases head_text h htext with ⟨letter, -⟩ | ⟨-, noMark⟩
    · exact stops_cons.2 (followsMark_of_continuesWord (continuesWord_of_startsWord letter))
    · exact stops_cons.2 noMark

theorem first?_of_continuesWord {s : Script} (h : s.IsPlain) (htext : s.text = c :: rest)
    (hc : continuesWord c = true) : first? s.text = some (wordOf c rest) := by
  rcases head_text h htext with ⟨letter, behind, plain, rfl⟩ | ⟨stop, -⟩
  · rw [htext]
    exact first?_word letter (marked?_of_stops (stops_followsMark plain) c)
  · rw [stop] at hc
    cases hc

theorem first?_ending {body : List Char} (h : '\n' ∉ body ∧ '\r' ∉ body) :
    first? ('-' :: '-' :: body) = some (.lineComment body, []) := by
  rw [first?, read?_line, lineCommentOf, List.takeWhile_eq_self_iff.2 (line_run h),
    List.dropWhile_eq_nil_iff.2 (line_run h)]
  simp

theorem condensesTo_text {s : Script} (h : s.IsPlain) : CondensesTo s.text s.tokens := by
  obtain ⟨pieces, ending⟩ := s
  induction pieces with
  | nil =>
    have nothing : CondensesTo [] [] := ⟨[], by rw [tokenize?], fun _ _ => rfl⟩
    cases ending with
    | none => exact nothing
    | some body => exact nothing.cons (first?_ending (h.ending body rfl))
  | cons p pieces ih =>
    have behind := ih h.tail
    rw [Script.text_cons]
    cases p with
    | code c =>
      have hc : startsWord c = true ∨ isPunctuation c = true := h.pieces _ List.mem_cons_self
      rcases hc with letter | punctuation
      · refine behind.letter letter (marked?_of_stops (stops_followsMark h.tail) c) ?_
        exact fun d more hrest hd => first?_of_continuesWord h.tail hrest hd
      · exact behind.cons (first?_punctuation punctuation _)
    | filler f =>
      have plain : f.IsPlain := h.pieces _ List.mem_cons_self
      exact behind.cons (Filler.first?_render plain _)

/-! ## By comment marks -/

end Tokens

/-- The text is squeezed to what the given tokens are condensed to. -/
def SqueezesTo (text : List Char) (tokens : List Token) : Prop :=
  ∀ started apart, squeezeFrom started apart text = condenseFrom started apart tokens

section Marks

variable {c : Char} {text rest body kept after : List Char} {tokens : List Token}

theorem roughComment?_eq_none (slash : c ≠ '/') (dash : c ≠ '-') (rest : List Char) :
    roughComment? (c :: rest) = none := by
  unfold roughComment?
  split
  next h => exact absurd (List.cons.inj h).1 slash
  next h => exact absurd (List.cons.inj h).1 dash
  next => rfl

theorem replaceComments_cons (slash : c ≠ '/') (dash : c ≠ '-') (rest : List Char) :
    replaceComments (c :: rest) = c :: replaceComments rest := by
  have noComment := roughComment?_eq_none slash dash rest
  rw [replaceComments]
  split
  next h =>
    rw [noComment] at h
    cases h
  next => rfl

theorem replaceComments_comment (h : roughComment? text = some (body, after)) :
    replaceComments text = roughlyKept body ++ replaceComments after := by
  cases text with
  | nil => cases h
  | cons c rest =>
    rw [replaceComments]
    split
    next found left hfound =>
      rw [h] at hfound
      cases hfound
      rfl
    next hnone =>
      rw [h] at hnone
      cases hnone

theorem SqueezesTo.blank (h : SqueezesTo text tokens) (hc : isBlank c = true) :
    SqueezesTo (c :: text) (.blank :: tokens) :=
  fun started _ => (squeezeFrom_blank hc).trans (h started true)

theorem SqueezesTo.code (h : SqueezesTo text tokens) (hc : isBlank c = false) :
    SqueezesTo (c :: text) (.symbol [c] :: tokens) := by
  intro started apart
  rw [squeezeFrom_nonblank hc, h true false, condenseFrom_token started apart rfl, Token.render,
    List.append_assoc, List.singleton_append]

/-- The text of a comment keeps its blanks. -/
theorem squeezeFrom_kept (h : keptComment? body = some kept) (started apart : Bool)
    (text : List Char) :
    squeezeFrom started apart (' ' :: (kept ++ [' ']) ++ text) =
      (if started then [' '] else []) ++ kept ++ squeezeFrom true true text := by
  obtain ⟨notBlank, rfl⟩ := of_keptComment? h
  have inside := squeezeFrom_collapsed true (stops_reverse_trim body) (fun _ => notBlank)
    ('*' :: '/' :: ' ' :: text)
  rw [collapseFrom_of_stops (stops_trim body), ← collapseBlanks] at inside
  have written : ' ' :: ("/* ".toList ++ collapseBlanks (trim body) ++ " */".toList ++ [' ']) ++ text =
      ' ' :: '/' :: '*' :: ' ' ::
        (collapseBlanks (trim body) ++ ' ' :: '*' :: '/' :: ' ' :: text) := by simp
  have space : isBlank ' ' = true := by decide
  have star : isBlank '*' = false := by decide
  have slash : isBlank '/' = false := by decide
  rw [written]
  simp only [squeezeFrom_blank space, squeezeFrom_nonblank slash, squeezeFrom_nonblank star, inside]
  simp

theorem SqueezesTo.comment (h : SqueezesTo text tokens) (body : List Char) :
    SqueezesTo (roughlyKept body ++ text) (.blockComment body :: tokens) := by
  intro started apart
  cases hkept : keptComment? body with
  | none =>
    simp only [roughlyKept, condenseFrom, hkept]
    exact (squeezeFrom_blank (by decide)).trans (h started true)
  | some kept =>
    simp only [roughlyKept, condenseFrom, hkept, squeezeFrom_kept hkept, h true true]

/-- The line end behind a line comment is a blank of the comment, or one that follows it. -/
theorem keptComment?_concat (body : List Char) : keptComment? (body ++ ['\n']) = keptComment? body := by
  simp [keptComment?, trim_concat_blank (show isBlank '\n' = true by decide)]

theorem SqueezesTo.line (h : SqueezesTo text tokens) (body : List Char) :
    SqueezesTo (roughlyKept body ++ '\n' :: text) (.lineComment (body ++ ['\n']) :: tokens) := by
  intro started apart
  rw [(h.blank (c := '\n') (by decide)).comment body started apart]
  simp only [condenseFrom, keptComment?_concat]

theorem beginsFiller_of_code (h : startsWord c = true ∨ isPunctuation c = true) :
    beginsFiller c = false := by
  rw [← Bool.not_eq_true]
  intro hfiller
  rcases h with letter | punctuation
  · rw [of_beginsFiller (p := startsWord) hfiller (by decide +kernel) (by decide) (by decide)] at letter
    cases letter
  · rw [of_beginsFiller (p := isPunctuation) hfiller (by decide) (by decide) (by decide)] at punctuation
    cases punctuation

theorem roughComment?_line (noLine : '\n' ∉ body) (stop : Stops (· != '\n') rest) :
    roughComment? ('-' :: '-' :: (body ++ rest)) = some (body, rest) := by
  have run : ∀ c ∈ body, (c != '\n') = true := fun c hc => bne_iff_ne.2 fun h => noLine (h ▸ hc)
  rw [roughComment?, takeWhile_run run stop, dropWhile_run run stop]

theorem squeezesTo_filler {f : Filler} (plain : f.IsPlain)
    (h : SqueezesTo (replaceComments rest) tokens) :
    SqueezesTo (replaceComments (f.render ++ rest)) (f.token :: tokens) := by
  cases f with
  | blank c =>
    have hc : isBlank c = true := plain
    have slash : c ≠ '/' := by
      rintro rfl
      exact absurd hc (by decide)
    have dash : c ≠ '-' := by
      rintro rfl
      exact absurd hc (by decide)
    change SqueezesTo (replaceComments (c :: rest)) _
    rw [replaceComments_cons slash dash]
    exact h.blank hc
  | block body =>
    have found : roughComment? ('/' :: '*' :: (body ++ (['*', '/'] ++ rest))) = some (body, rest) :=
      splitAt?_of_closes plain.1 (List.cons_ne_nil _ _) rest
    change SqueezesTo (replaceComments ('/' :: '*' :: (body ++ ['*', '/'] ++ rest))) _
    rw [List.append_assoc, replaceComments_comment found]
    exact h.comment body
  | line body =>
    have stop : Stops (· != '\n') ('\n' :: rest) := stops_cons.2 (by decide)
    have found := roughComment?_line plain.1 stop
    change SqueezesTo (replaceComments ('-' :: '-' :: (body ++ ['\n'] ++ rest))) _
    rw [List.append_assoc, List.singleton_append, replaceComments_comment found,
      replaceComments_cons (by decide) (by decide)]
    exact h.line body

theorem squeezesTo_text {s : Script} (h : s.IsPlain) : SqueezesTo (replaceComments s.text) s.tokens := by
  obtain ⟨pieces, ending⟩ := s
  induction pieces with
  | nil =>
    have nothing : SqueezesTo (replaceComments []) [] := by
      intro started apart
      rw [replaceComments]
      rfl
    cases ending with
    | none => exact nothing
    | some body =>
      have found := roughComment?_line (h.ending body rfl).1 (Stops.nil (p := (· != '\n')))
      rw [List.append_nil] at found
      change SqueezesTo (replaceComments ('-' :: '-' :: body)) [.lineComment body]
      rw [replaceComments_comment found]
      exact nothing.comment body
  | cons p pieces ih =>
    have behind := ih h.tail
    rw [Script.text_cons]
    cases p with
    | code c =>
      have hc : startsWord c = true ∨ isPunctuation c = true := h.pieces _ List.mem_cons_self
      have noFiller := beginsFiller_of_code hc
      simp only [beginsFiller, Bool.or_eq_false_iff, beq_eq_false_iff_ne] at noFiller
      obtain ⟨⟨blank, slash⟩, dash⟩ := noFiller
      change SqueezesTo (replaceComments (c :: _)) _
      rw [replaceComments_cons slash dash]
      exact behind.code blank
    | filler f =>
      have plain : f.IsPlain := h.pieces _ List.mem_cons_self
      exact squeezesTo_filler plain behind

end Marks

/-- **Condensing without tokens.** A text of letters, punctuation marks, blanks and comments has tokens,
and what they are condensed to is what the comment marks and blanks alone give. -/
theorem condenseTokens_eq_condenseRoughly {s : Script} (h : s.IsPlain) :
    ∃ tokens, tokenize? s.text = some tokens ∧ condenseTokens tokens = condenseRoughly s.text := by
  obtain ⟨tokens, read, same⟩ := condensesTo_text h
  refine ⟨tokens, read, ?_⟩
  calc condenseTokens tokens
      = condenseFrom false false s.tokens := same false false
    _ = squeezeFrom false false (replaceComments s.text) := (squeezesTo_text h false false).symm
    _ = condenseRoughly s.text := (trim_collapseBlanks _).symm

/-- Comments with tags and without, each with marks of the other kind in it, and one at the end. -/
theorem condenseTokens_eq_condenseRoughly_table :
    let s : Script :=
      { pieces :=
          .filler (.line " /* header".toList) :: "table".toList.map .code ++
            .filler (.block "#tag\n -- *".toList) :: "t_a(".toList.map .code ++
            [.filler (.block []), .code 'x', .filler (.blank ' '), .filler (.blank '\n'),
              .filler (.line "#y ".toList), .code ',', .code ')', .filler (.blank '\t')]
        ending := some "-  #sort  */".toList }
    s.text = "-- /* header\ntable/*#tag\n -- **/t_a(/**/x \n--#y \n,)\t---  #sort  */".toList ∧
      s.IsPlain ∧
      ∃ tokens, tokenize? s.text = some tokens ∧ condenseTokens tokens = condenseRoughly s.text := by
  intro s
  have plain : s.IsPlain := by decide +kernel
  exact ⟨by decide +kernel, plain, condenseTokens_eq_condenseRoughly plain⟩

end ReleaseSchema.Sql
