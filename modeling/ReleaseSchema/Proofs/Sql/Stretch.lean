/-
A text cut where its comments begin and end. The nesting tells what is in a
comment, so a comment mark in a literal or in a quoted name begins none. Put
together the stretches are the text (`flatten_stretches`).

The opening mark of a comment ends the code in front of it and the closing mark
ends the comment, so every stretch but the last ends with a character that no tag
goes on over, and the tags of a text are those of its stretches (`scan_eq`).
-/
import ReleaseSchema.Proofs.Tag
import ReleaseSchema.Sql.Nesting

namespace ReleaseSchema.Sql

open Text

/-- Inside a comment. -/
def Nesting.isComment (s : Nesting) : Bool :=
  match s.inside with
  | .comment | .star => true
  | _ => false

/-- Code goes on as code, or begins a literal. -/
theorem Nesting.isComment_stepCode (s : Nesting) (c : Char) : (s.stepCode c).isComment = false := by
  unfold Nesting.stepCode
  split_ifs <;> rfl

/-- A part of a text that is all in one comment, or all outside comments. -/
structure Stretch where
  inComment : Bool
  text : List Char
  deriving DecidableEq, Repr

/-- The stretches of a text. `s` is the nesting behind the stretch under way and `read` its text,
backwards. -/
def stretchesFrom (s : Nesting) (read : List Char) : List Char → List Stretch
  | [] => [⟨s.isComment, read.reverse⟩]
  | c :: rest =>
    if (s.step c).isComment = s.isComment then stretchesFrom (s.step c) (c :: read) rest
    else ⟨s.isComment, (c :: read).reverse⟩ :: stretchesFrom (s.step c) [] rest

def stretches (text : List Char) : List Stretch := stretchesFrom {} [] text

/-- The comments of a text, without their opening marks. -/
def comments (text : List Char) : List (List Char) :=
  ((stretches text).filter (·.inComment)).map (·.text)

/-- What is outside the comments of a text, with their opening marks. -/
def codes (text : List Char) : List (List Char) :=
  ((stretches text).filter (!·.inComment)).map (·.text)

section Cut

variable {s : Nesting} {read text : List Char}

theorem flatten_stretchesFrom (s : Nesting) (read text : List Char) :
    ((stretchesFrom s read text).map (·.text)).flatten = read.reverse ++ text := by
  fun_induction stretchesFrom s read text with
  | case1 s read => simp
  | case2 s read c rest _ ih => rw [ih, List.reverse_cons, List.append_assoc, List.singleton_append]
  | case3 s read c rest _ ih =>
    rw [List.map_cons, List.flatten_cons, ih, List.reverse_nil, List.nil_append, List.reverse_cons,
      List.append_assoc, List.singleton_append]

theorem flatten_stretches (text : List Char) : ((stretches text).map (·.text)).flatten = text :=
  flatten_stretchesFrom {} [] text

/-- A comment is entered behind the star of its opening mark and left behind the slash of its closing
mark. -/
theorem mark_of_isComment_step {c : Char} (h : (s.step c).isComment ≠ s.isComment) :
    c = '*' ∨ c = '/' := by
  obtain ⟨depth, inside⟩ := s
  cases inside with
  | code => exact absurd (Nesting.isComment_stepCode _ _) h
  | slash =>
    by_contra hc
    rw [not_or] at hc
    rw [Nesting.step, if_neg hc.1, Nesting.isComment_stepCode] at h
    exact h rfl
  | single | double =>
    simp only [Nesting.step] at h
    split at h <;> exact absurd rfl h
  | comment =>
    simp only [Nesting.step] at h
    split at h <;> exact absurd rfl h
  | star =>
    by_contra hc
    rw [not_or] at hc
    simp only [Nesting.step, if_neg hc.2, if_neg hc.1] at h
    exact h rfl

/-- Every stretch but the last ends with half a comment mark. -/
theorem ends_stretchesFrom (s : Nesting) (read text : List Char) :
    ∀ part ∈ ((stretchesFrom s read text).map (·.text)).dropLast,
      ∃ front x, part = front ++ [x] ∧ Tag.StandsApart x := by
  fun_induction stretchesFrom s read text with
  | case1 s read => simp
  | case2 s read c rest _ ih => exact ih
  | case3 s read c rest changes ih =>
    intro part hpart
    have apart : Tag.StandsApart c := by
      rcases mark_of_isComment_step changes with rfl | rfl <;> decide
    rw [List.map_cons] at hpart
    cases hmore : (stretchesFrom (s.step c) [] rest).map (·.text) with
    | nil => simp [hmore] at hpart
    | cons next more =>
      rw [hmore, List.dropLast_cons_cons] at hpart
      rcases List.mem_cons.1 hpart with rfl | hpart
      · exact ⟨read.reverse, c, List.reverse_cons, apart⟩
      · exact ih part (hmore ▸ hpart)

/-- The tags of a text are those of its comments and of what is outside them, when no value goes on
over the end of a stretch. -/
theorem scan_eq (h : Tag.EachStaysWithin ((stretches text).map (·.text))) :
    Tag.scan text = (stretches text).flatMap fun stretch => Tag.scan stretch.text := by
  have parts := Tag.scan_flatten h (ends_stretchesFrom {} [] text)
  rwa [flatten_stretches, List.flatMap_map] at parts

end Cut

end ReleaseSchema.Sql
