/-
Two ways to find the comments of a text. The nesting knows literals and quoted names
and finds no comment in them (`stretches`); blanking looks for marks alone and cuts the
text wherever it finds a pair (`blankedStretches`).

In a text that ends outside comments both find the same comments if and only if no
literal holds an opening mark with a closing one anywhere behind it
(`blankedStretches_eq_iff`). Inside a comment they agree in any case: it ends at the
first closing mark (`pass_comment`).
-/
import ReleaseSchema.Proofs.Sql.Comment
import ReleaseSchema.Proofs.Sql.Items
import ReleaseSchema.Proofs.Sql.Stretch

namespace ReleaseSchema.Sql

open Text

/-! ## Blanking -/

/-- The stretches of a text by the comments that are blanked. `read` is the text of the stretch under
way, backwards; code ends with the opening mark and a comment with the closing one. -/
def blankedStretchesFrom (read text : List Char) : List Stretch :=
  match text with
  | [] => [⟨false, read.reverse⟩]
  | '/' :: '*' :: rest =>
    match _h : splitAt? ['*', '/'] rest with
    | some (body, after) =>
      ⟨false, read.reverse ++ ['/', '*']⟩ :: ⟨true, body ++ ['*', '/']⟩ ::
        blankedStretchesFrom [] after
    | none => blankedStretchesFrom ('/' :: read) ('*' :: rest)
  | c :: rest => blankedStretchesFrom (c :: read) rest
termination_by text.length
decreasing_by
  · exact Nat.lt_succ_of_le (Nat.le_succ_of_le (length_splitAt _h))
  · exact Nat.lt_succ_self _
  · exact Nat.lt_succ_self _

def blankedStretches (text : List Char) : List Stretch := blankedStretchesFrom [] text

/-- A text of stretches with a space for each comment. Code and comments take turns. -/
def blanked : List Stretch → List Char
  | [] => []
  | [last] => last.text
  | code :: _ :: more => code.text.dropLast.dropLast ++ ' ' :: blanked more

/-- The stretches of blanking are what blanking makes a text of. -/
theorem blanked_blankedStretches (text : List Char) :
    blanked (blankedStretches text) = blankComments text := by
  suffices ∀ read, blanked (blankedStretchesFrom read text) = read.reverse ++ blankComments text from
    this []
  intro read
  fun_induction blankedStretchesFrom read text with
  | case1 read => simp [blanked, blankComments]
  | case2 read rest body after hsplit ih =>
    have mark : (read.reverse ++ ['/', '*']).dropLast.dropLast = read.reverse := by
      rw [List.append_cons, List.dropLast_concat, List.dropLast_concat]
    rw [blanked, ih, mark, blankComments_comment hsplit]
    rfl
  | case3 read rest hsplit ih =>
    rw [ih, blankComments_open hsplit]
    simp
  | case4 read c rest noMark ih =>
    have begins : ∀ inside, '/' :: '*' :: inside ≠ c :: rest := by
      rintro inside heq
      obtain ⟨rfl, rfl⟩ := List.cons.inj heq
      exact noMark inside rfl rfl
    rw [ih, blankComments_cons begins]
    simp

theorem flatten_blankedStretches (text : List Char) :
    ((blankedStretches text).map (·.text)).flatten = text := by
  suffices ∀ read, ((blankedStretchesFrom read text).map (·.text)).flatten = read.reverse ++ text from
    this []
  intro read
  fun_induction blankedStretchesFrom read text with
  | case1 read => simp
  | case2 read rest body after hsplit ih =>
    obtain ⟨-, rfl⟩ := (splitAt?_eq_some_iff (by simp)).1 hsplit
    simp [ih]
  | case3 read rest _ ih => simp [ih]
  | case4 read c rest _ ih => simp [ih]

/-! ## Literals -/

namespace Nesting

/-- Inside a string literal or a quoted name. -/
def isLiteral (s : Nesting) : Bool :=
  match s.inside with
  | .single | .double => true
  | _ => false

/-- From `s` on, no literal of the text holds an opening mark with a closing mark anywhere behind it. -/
def HidesNoComment (s : Nesting) (text : List Char) : Prop :=
  ∀ front inside, text = front ++ '/' :: '*' :: inside → (s.after front).isLiteral = true →
    ¬['*', '/'] <:+: inside

theorem hidesNoComment_nil (s : Nesting) : s.HidesNoComment [] := by
  intro front inside heq
  simp at heq

theorem HidesNoComment.of_cons {s : Nesting} {c : Char} {text : List Char}
    (h : s.HidesNoComment (c :: text)) : (s.step c).HidesNoComment text :=
  fun front inside heq => h (c :: front) inside (by rw [heq, List.cons_append])

/-- A character may be left out that is in no literal, or where no comment begins. -/
theorem hidesNoComment_cons {s : Nesting} {c : Char} {text : List Char}
    (h : s.isLiteral = true → ∀ inside, c :: text = '/' :: '*' :: inside → ¬['*', '/'] <:+: inside) :
    s.HidesNoComment (c :: text) ↔ (s.step c).HidesNoComment text := by
  refine ⟨.of_cons, fun hides front inside heq literal => ?_⟩
  cases front with
  | nil => exact h literal inside heq
  | cons d front =>
    obtain ⟨rfl, rfl⟩ := List.cons.inj heq
    exact hides front inside rfl literal

instance decidableHidesNoComment : ∀ (s : Nesting) (text : List Char), Decidable (s.HidesNoComment text)
  | s, [] => isTrue s.hidesNoComment_nil
  | s, c :: text =>
    have := decidableHidesNoComment (s.step c) text
    decidable_of_iff
      (¬(s.isLiteral = true ∧ ['/', '*'] <+: c :: text ∧ ['*', '/'] <:+: text.tail) ∧
        (s.step c).HidesNoComment text) <| by
      constructor
      · rintro ⟨here, behind⟩
        refine (hidesNoComment_cons fun literal inside heq closes => here ⟨literal, ?_, ?_⟩).2 behind
        · exact ⟨inside, heq.symm⟩
        · rwa [(List.cons.inj heq).2]
      · rintro hides
        refine ⟨?_, hides.of_cons⟩
        rintro ⟨literal, ⟨inside, heq⟩, closes⟩
        rw [← (List.cons.inj heq).2] at closes
        exact hides [] inside heq.symm literal closes

/-- Inside a comment, and no closing mark is half passed. -/
structure InComment (s : Nesting) (text : List Char) : Prop where
  isComment : s.isComment = true
  whole : s.inside = .star → text.head? ≠ some '/'

section Steps

variable {s : Nesting} {c : Char} {text body after : List Char}

theorem hidesNoComment_cons_of_isComment (h : s.isComment = true) :
    s.HidesNoComment (c :: text) ↔ (s.step c).HidesNoComment text := by
  refine hidesNoComment_cons fun literal => ?_
  obtain ⟨depth, inside⟩ := s
  cases inside with
  | code | slash | comment | star => cases literal
  | single | double => cases h

theorem isComment_step_of_isLiteral (h : s.isLiteral = true) : (s.step c).isComment = false := by
  obtain ⟨depth, inside⟩ := s
  cases inside with
  | single | double =>
    simp only [step]
    split <;> rfl
  | code | slash | comment | star => cases h

theorem step_of_isLiteral (h : s.isLiteral = true) (single : c ≠ '\'') (double : c ≠ '"') :
    s.step c = s := by
  obtain ⟨depth, inside⟩ := s
  cases inside with
  | single => exact if_neg single
  | double => exact if_neg double
  | code | slash | comment | star => cases h

/-- Outside comments and literals an opening mark begins a comment. -/
theorem step_opening (outside : s.isComment = false) (hs : s.isLiteral = false) :
    s.step '/' = ⟨s.depth, .slash⟩ ∧ (s.step '/').step '*' = ⟨s.depth, .comment⟩ := by
  obtain ⟨depth, inside⟩ := s
  cases inside with
  | code | slash => exact ⟨rfl, rfl⟩
  | single | double => cases hs
  | comment | star => cases outside

/-- Outside comments nothing but the star of an opening mark begins one. -/
theorem isComment_step (outside : s.isComment = false) (hc : s.inside = .slash → c ≠ '*') :
    (s.step c).isComment = false := by
  obtain ⟨depth, inside⟩ := s
  cases inside with
  | code => exact isComment_stepCode _ _
  | slash =>
    rw [step, if_neg (hc rfl)]
    exact isComment_stepCode _ _
  | single | double => exact isComment_step_of_isLiteral rfl
  | comment | star => cases outside

theorem eq_slash_of_step (h : (s.step c).inside = .slash) : c = '/' := by
  have code : ∀ s : Nesting, (s.stepCode c).inside = .slash → c = '/' := by
    intro s
    unfold stepCode
    split_ifs with hc
    · exact fun _ => hc
    all_goals nofun
  obtain ⟨depth, inside⟩ := s
  cases inside with
  | code => exact code _ h
  | slash =>
    simp only [step] at h
    split at h
    · cases h
    · exact code _ h
  | single | double | comment =>
    simp only [step] at h
    split at h <;> cases h
  | star =>
    simp only [step] at h
    split_ifs at h

/-- A comment goes on over a character with which no closing mark begins. -/
theorem InComment.step (h : s.InComment (c :: text)) (notHere : ¬['*', '/'] <+: c :: text) :
    (s.step c).InComment text ∧ (s.step c).depth = s.depth := by
  have star : c = '*' → text.head? ≠ some '/' := by
    rintro rfl hslash
    obtain ⟨more, rfl⟩ := List.head?_eq_some_iff.1 hslash
    exact notHere ⟨more, rfl⟩
  obtain ⟨depth, inside⟩ := s
  cases inside with
  | comment =>
    simp only [Nesting.step]
    split
    next hc => exact ⟨⟨rfl, fun _ => star hc⟩, rfl⟩
    next => exact ⟨⟨rfl, by simp⟩, rfl⟩
  | star =>
    have slash : c ≠ '/' := fun hc => h.whole rfl (congrArg some hc)
    simp only [Nesting.step, if_neg slash]
    split
    next hc => exact ⟨⟨rfl, fun _ => star hc⟩, rfl⟩
    next => exact ⟨⟨rfl, by simp⟩, rfl⟩
  | code | slash | single | double => cases h.isComment

theorem InComment.step_closing (h : s.InComment text) :
    s.step '*' = ⟨s.depth, .star⟩ ∧ (s.step '*').step '/' = ⟨s.depth, .code⟩ := by
  obtain ⟨depth, inside⟩ := s
  cases inside with
  | comment | star => exact ⟨rfl, rfl⟩
  | code | slash | single | double => cases h.isComment

theorem InComment.isComment_after (h : s.InComment text) (unclosed : ¬['*', '/'] <:+: text) :
    (s.after text).isComment = true := by
  induction text generalizing s with
  | nil => exact h.isComment
  | cons c text ih =>
    rw [List.infix_cons_iff, not_or] at unclosed
    exact ih (h.step unclosed.1).1 unclosed.2

end Steps

end Nesting

open Nesting

section Comments

variable {s : Nesting} {read text body after : List Char}

/-- An opening mark that is in no literal ends a stretch. -/
theorem pass_opening (outside : s.isComment = false) (literal : s.isLiteral = false) :
    s.after ['/', '*'] = ⟨s.depth, .comment⟩ ∧
      stretchesFrom s read ('/' :: '*' :: text) =
        ⟨false, read.reverse ++ ['/', '*']⟩ :: stretchesFrom ⟨s.depth, .comment⟩ [] text ∧
      (s.HidesNoComment ('/' :: '*' :: text) ↔ HidesNoComment ⟨s.depth, .comment⟩ text) := by
  obtain ⟨slash, star⟩ := step_opening outside literal
  rw [slash] at star
  refine ⟨?_, ?_, ?_⟩
  · rw [after_cons, slash, after_cons, star, after_nil]
  · simp only [stretchesFrom, slash, star, outside]
    simp [isComment]
  · rw [hidesNoComment_cons (by simp [literal]), slash, hidesNoComment_cons (by simp [isLiteral]), star]

/-- A comment is passed up to its first closing mark, and is one stretch with it. -/
theorem pass_comment (h : s.InComment (body ++ (['*', '/'] ++ after)))
    (closes : Closes ['*', '/'] body) :
    s.after (body ++ ['*', '/']) = ⟨s.depth, .code⟩ ∧
      (∀ read, stretchesFrom s read (body ++ (['*', '/'] ++ after)) =
        ⟨true, read.reverse ++ (body ++ ['*', '/'])⟩ :: stretchesFrom ⟨s.depth, .code⟩ [] after) ∧
      (s.HidesNoComment (body ++ (['*', '/'] ++ after)) ↔
        HidesNoComment ⟨s.depth, .code⟩ after) := by
  induction body generalizing s with
  | nil =>
    obtain ⟨star, slash⟩ := h.step_closing
    rw [star] at slash
    have inside := h.isComment
    refine ⟨?_, fun read => ?_, ?_⟩
    · rw [List.nil_append, after_cons, after_cons, star, slash, after_nil]
    · simp only [List.nil_append, List.cons_append, stretchesFrom, star, slash, inside]
      simp [isComment]
    · rw [List.nil_append, List.cons_append, List.cons_append, List.nil_append,
        hidesNoComment_cons_of_isComment inside, star, hidesNoComment_cons_of_isComment rfl, slash]
  | cons c body ih =>
    obtain ⟨notHere, closes⟩ := closes_cons.1 closes
    have goesOn : ¬['*', '/'] <+: c :: (body ++ (['*', '/'] ++ after)) := by
      -- a closing mark here would end before the one behind the body does
      intro here
      refine notHere (List.prefix_of_prefix_length_le here ⟨after, by simp⟩ ?_)
      simp
    obtain ⟨next, depth⟩ := h.step goesOn
    obtain ⟨closed, stretch, hides⟩ := ih next closes
    rw [depth] at closed stretch hides
    refine ⟨closed, fun read => ?_, (hidesNoComment_cons_of_isComment h.isComment).trans hides⟩
    rw [List.cons_append, stretchesFrom, if_pos (next.isComment.trans h.isComment.symm), stretch]
    simp

theorem exists_first_stretch (s : Nesting) (read text : List Char) :
    ∃ more others, stretchesFrom s read text = ⟨s.isComment, read.reverse ++ more⟩ :: others := by
  fun_induction stretchesFrom s read text with
  | case1 s read => exact ⟨[], [], by rw [List.append_nil]⟩
  | case2 s read c rest same ih =>
    obtain ⟨more, others, heq⟩ := ih
    exact ⟨c :: more, others, by simp [heq, same]⟩
  | case3 s read c rest _ _ => exact ⟨[c], _, by rw [List.reverse_cons]⟩

/-- In a literal no stretch ends with an opening mark. -/
theorem stretchesFrom_ne_of_isLiteral {inside : List Char} (literal : s.isLiteral = true)
    (outside : s.isComment = false) (hne : inside ≠ []) (others : List Stretch) :
    ⟨false, read.reverse ++ ['/', '*']⟩ :: others ≠ stretchesFrom s read ('/' :: '*' :: inside) := by
  obtain ⟨c, inside, rfl⟩ := List.exists_cons_of_ne_nil hne
  have slash : s.step '/' = s := step_of_isLiteral literal (by decide) (by decide)
  have star : s.step '*' = s := step_of_isLiteral literal (by decide) (by decide)
  have next : (s.step c).isComment = s.isComment :=
    (isComment_step_of_isLiteral literal).trans outside.symm
  obtain ⟨more, rest, first⟩ := exists_first_stretch (s.step c) (c :: '*' :: '/' :: read) inside
  rw [stretchesFrom, slash, if_pos rfl, stretchesFrom, star, if_pos rfl, stretchesFrom, if_pos next,
    first]
  intro heq
  have texts := congrArg (fun stretch => stretch.text.length) (List.cons.inj heq).1
  simp only [List.length_append, List.length_reverse, List.length_cons, List.length_nil] at texts
  omega

/-- Where no opening mark is half passed and the text ends outside comments, blanking finds the comments
that the nesting finds if and only if no literal hides one. -/
theorem blankedStretchesFrom_eq_iff (outside : s.isComment = false)
    (whole : s.inside = .slash → text.head? ≠ some '*') (closed : (s.after text).isComment = false) :
    blankedStretchesFrom read text = stretchesFrom s read text ↔ s.HidesNoComment text := by
  fun_induction blankedStretchesFrom read text generalizing s with
  | case1 read => exact iff_of_true (by rw [stretchesFrom, outside]) s.hidesNoComment_nil
  | case2 read rest body after hsplit ih =>
    obtain ⟨closes, rfl⟩ := (splitAt?_eq_some_iff (by simp)).1 hsplit
    cases literal : s.isLiteral with
    | true =>
      refine iff_of_false (stretchesFrom_ne_of_isLiteral literal outside (by simp) _) fun hides => ?_
      exact hides [] _ rfl literal ⟨body, after, by simp⟩
    | false =>
      have inside : InComment ⟨s.depth, .comment⟩ (body ++ (['*', '/'] ++ after)) := ⟨rfl, nofun⟩
      obtain ⟨opened, first, hides⟩ :=
        @pass_opening s read (body ++ (['*', '/'] ++ after)) outside literal
      obtain ⟨behind, stretch, hides'⟩ := pass_comment inside closes
      have settled : s.after ('/' :: '*' :: (body ++ (['*', '/'] ++ after))) =
          Nesting.after ⟨s.depth, .code⟩ after := by
        rw [show '/' :: '*' :: (body ++ (['*', '/'] ++ after)) =
            ['/', '*'] ++ ((body ++ ['*', '/']) ++ after) by simp,
          after_append, opened, after_append, behind]
      rw [settled] at closed
      rw [first, stretch, hides, hides', ← ih rfl (by simp) closed, List.cons.injEq, List.cons.injEq]
      simp
  | case3 read rest hsplit ih =>
    have unclosed : ¬['*', '/'] <:+: rest := by
      rw [← isSome_splitAt?, hsplit]
      exact Bool.false_ne_true
    cases literal : s.isLiteral with
    | true =>
      have slash : s.step '/' = s := step_of_isLiteral literal (by decide) (by decide)
      rw [after_cons, slash] at closed
      rw [stretchesFrom, slash, if_pos rfl, hidesNoComment_cons, slash]
      · refine ih outside (fun half => ?_) closed
        rw [isLiteral, half] at literal
        cases literal
      · rintro - inside heq
        obtain ⟨-, heq⟩ := List.cons.inj heq
        rwa [← (List.cons.inj heq).2]
    | false =>
      have inside : InComment ⟨s.depth, .comment⟩ rest := ⟨rfl, nofun⟩
      rw [after_cons, after_cons, (step_opening outside literal).2,
        inside.isComment_after unclosed] at closed
      cases closed
  | case4 read c rest noMark ih =>
    have next : (s.step c).isComment = false :=
      isComment_step outside fun half hc => whole half (congrArg some hc)
    rw [stretchesFrom, if_pos (next.trans outside.symm), hidesNoComment_cons]
    · refine ih next (fun half hstar => ?_) closed
      obtain ⟨behind, rfl⟩ := List.head?_eq_some_iff.1 hstar
      exact noMark behind (eq_slash_of_step half) rfl
    · rintro - inside heq
      obtain ⟨rfl, rfl⟩ := List.cons.inj heq
      exact absurd rfl (noMark inside rfl)

theorem blankedStretches_eq_iff (closed : (Nesting.after {} text).isComment = false) :
    blankedStretches text = stretches text ↔ HidesNoComment {} text :=
  blankedStretchesFrom_eq_iff rfl (by simp) closed

theorem IsNested.isComment_after (h : IsNested text) : (Nesting.after {} text).isComment = false := by
  have unquoted := h.settled.2
  generalize Nesting.after {} text = s at unquoted
  obtain ⟨depth, inside⟩ := s
  cases inside with
  | code | slash | single | double => rfl
  | comment | star => cases unquoted

end Comments

end ReleaseSchema.Sql
