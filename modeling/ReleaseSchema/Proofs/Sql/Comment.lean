/-
What is left of a text when its block comments are blanked. A text whose
comments are closed is blanked by itself, whatever follows it
(`blankComments_append`). A text without a comment is left as it is
(`blankComments_of_not_holds`), and every other one is shorter then
(`length_blankComments_lt`).

A comment that is kept stands on one line between its marks
(`of_keptComment?`), and so it is closed (`closesComments_of_suffix`).
-/
import ReleaseSchema.Proofs.Text.Search
import ReleaseSchema.Proofs.Text.Trim
import ReleaseSchema.Sql.Comment
import ReleaseSchema.Sql.Condense

namespace ReleaseSchema.Sql

open Text

/-- Every opening mark of the text has a closing mark behind it. -/
def ClosesComments (text : List Char) : Prop :=
  ∀ inside, '/' :: '*' :: inside <:+ text → ['*', '/'] <:+: inside

/-- An opening mark of the text has a closing mark behind it. -/
def HoldsComment (text : List Char) : Prop :=
  ∃ inside, '/' :: '*' :: inside <:+ text ∧ ['*', '/'] <:+: inside

section Marks

variable {text inside : List Char}

theorem closesComments_of_no_mark (h : ¬"/*".toList <:+: text) : ClosesComments text :=
  fun inside hinside => absurd ((List.prefix_append "/*".toList inside).isInfix.trans hinside.isInfix) h

/-- A text that ends with a closing mark, and not with the opening one half in it, closes its
comments. -/
theorem closesComments_of_suffix (h : " */".toList <:+ text) : ClosesComments text := by
  intro inside hinside
  have close : ['*', '/'] <:+ text := (List.suffix_cons ' ' ['*', '/']).trans h
  by_cases long : 2 ≤ inside.length
  · have behind : inside <:+ text := (List.suffix_append ['/', '*'] inside).trans hinside
    exact (List.suffix_of_suffix_length_le close behind long).isInfix
  · have ends : '/' :: '*' :: inside <:+ [' ', '*', '/'] := by
      refine List.suffix_of_suffix_length_le hinside h ?_
      simp only [List.length_cons, List.length_nil]
      omega
    match inside, long with
    | [], _ => exact absurd ends (by decide)
    | [x], _ => simpa using ends.eq_of_length rfl
    | _ :: _ :: _, long => simp at long

theorem ClosesComments.of_suffix {sub : List Char} (h : ClosesComments text) (hsub : sub <:+ text) :
    ClosesComments sub := fun inside hinside => h inside (hinside.trans hsub)

/-- Where no comment begins, a text holds one behind its first character or not at all. -/
theorem HoldsComment.of_cons {c : Char} (h : HoldsComment (c :: text))
    (notHere : ∀ inside, '/' :: '*' :: inside = c :: text → ¬['*', '/'] <:+: inside) :
    HoldsComment text := by
  obtain ⟨inside, begins, closes⟩ := h
  rcases List.suffix_cons_iff.1 begins with here | behind
  · exact absurd closes (notHere inside here)
  · exact ⟨inside, behind, closes⟩

theorem HoldsComment.cons {c : Char} (h : HoldsComment text) : HoldsComment (c :: text) :=
  h.imp fun _ ⟨begins, closes⟩ => ⟨begins.trans (List.suffix_cons c text), closes⟩

end Marks

section Blank

variable {text inside body after : List Char}

theorem blankComments_comment (h : splitAt? ['*', '/'] inside = some (body, after)) :
    blankComments ('/' :: '*' :: inside) = ' ' :: blankComments after := by
  rw [blankComments]
  split
  next found =>
    rw [h] at found
    cases found
    rfl
  next found =>
    rw [h] at found
    cases found

theorem blankComments_open (h : splitAt? ['*', '/'] inside = none) :
    blankComments ('/' :: '*' :: inside) = '/' :: blankComments ('*' :: inside) := by
  rw [blankComments]
  split
  next found =>
    rw [h] at found
    cases found
  next => rfl

theorem blankComments_cons {c : Char} (h : ∀ inside, '/' :: '*' :: inside ≠ c :: text) :
    blankComments (c :: text) = c :: blankComments text := by
  rw [blankComments]
  rintro rest rfl rfl
  exact h rest rfl

/-- What follows a text whose comments are closed is blanked by itself. -/
theorem blankComments_append {a : List Char} (h : ClosesComments a) (text : List Char) :
    blankComments (a ++ ' ' :: text) = blankComments a ++ ' ' :: blankComments text := by
  fun_induction blankComments a with
  | case1 => exact blankComments_cons (by simp)
  | case2 inside body after hsplit ih =>
    obtain ⟨rfl, again⟩ := exists_of_splitAt? (by simp) hsplit
    have behind : after <:+ '/' :: '*' :: (body ++ (['*', '/'] ++ after)) :=
      ⟨'/' :: '*' :: (body ++ ['*', '/']), by simp⟩
    have written : '/' :: '*' :: (body ++ (['*', '/'] ++ after)) ++ ' ' :: text =
        '/' :: '*' :: (body ++ (['*', '/'] ++ (after ++ ' ' :: text))) := by simp
    rw [written, blankComments_comment (again _), ih (h.of_suffix behind), List.cons_append]
  | case3 inside hsplit ih =>
    have closed := isSome_splitAt?.2 (h inside (List.suffix_refl _))
    rw [hsplit] at closed
    cases closed
  | case4 c rest noMark ih =>
    have begins : ∀ inside, '/' :: '*' :: inside ≠ c :: (rest ++ ' ' :: text) := by
      intro inside heq
      obtain ⟨hslash, hstar⟩ := List.cons.inj heq
      cases rest with
      | nil => exact absurd (List.cons.inj hstar).1 (by decide)
      | cons d rest => exact noMark rest hslash.symm ((List.cons.inj hstar).1 ▸ rfl)
    rw [List.cons_append, blankComments_cons begins, ih (h.of_suffix (List.suffix_cons c rest)),
      List.cons_append]

theorem blankComments_of_not_holds (h : ¬HoldsComment text) : blankComments text = text := by
  fun_induction blankComments text with
  | case1 => rfl
  | case2 inside body after hsplit =>
    exact absurd ⟨inside, List.suffix_refl _, isSome_splitAt?.1 (hsplit ▸ rfl)⟩ h
  | case3 inside _ ih => rw [ih fun holds => h holds.cons]
  | case4 c rest _ ih => rw [ih fun holds => h holds.cons]

theorem length_blankComments_le (text : List Char) : (blankComments text).length ≤ text.length := by
  fun_induction blankComments text with
  | case1 => exact Nat.le_refl _
  | case2 inside body after hsplit ih =>
    have shorter := length_splitAt hsplit
    simp only [List.length_cons]
    omega
  | case3 inside _ ih => exact Nat.succ_le_succ ih
  | case4 c rest _ ih => exact Nat.succ_le_succ ih

theorem length_blankComments_lt (h : HoldsComment text) :
    (blankComments text).length < text.length := by
  fun_induction blankComments text with
  | case1 =>
    obtain ⟨inside, begins, -⟩ := h
    exact absurd begins (by simp)
  | case2 inside body after hsplit ih =>
    have shorter := length_splitAt hsplit
    have rest := length_blankComments_le after
    simp only [List.length_cons]
    omega
  | case3 inside hsplit ih =>
    refine Nat.succ_lt_succ (ih (h.of_cons ?_))
    intro other heq closes
    rw [(List.cons.inj (List.cons.inj heq).2).2, ← isSome_splitAt?, hsplit] at closes
    cases closes
  | case4 c rest noMark ih =>
    refine Nat.succ_lt_succ (ih (h.of_cons ?_))
    intro inside heq
    obtain ⟨rfl, rfl⟩ := List.cons.inj heq
    exact absurd rfl (noMark inside rfl)

/-- Without a closing mark behind it, an opening mark begins no comment, and none begins behind it. -/
theorem not_holdsComment_of_open (h : ¬['*', '/'] <:+: inside) :
    ¬HoldsComment ('/' :: '*' :: inside) := by
  rintro ⟨other, begins, closes⟩
  have behind : other <:+ inside := by
    refine List.suffix_of_suffix_length_le ((List.suffix_append ['/', '*'] other).trans begins)
      (List.suffix_append ['/', '*'] inside) ?_
    simpa using begins.length_le
  exact h (closes.trans behind.isInfix)

theorem head?_blankComments {x : Char} (hx : x ≠ ' ')
    (h : (blankComments text).head? = some x) : text.head? = some x := by
  rw [blankComments.eq_def] at h
  split at h
  · cases h
  · split at h
    · exact absurd (Option.some.inj h).symm hx
    · exact h
  · exact h

theorem not_holdsComment_blankComments (text : List Char) : ¬HoldsComment (blankComments text) := by
  fun_induction blankComments text with
  | case1 => exact fun ⟨inside, begins, _⟩ => absurd begins (by simp)
  | case2 inside body after hsplit ih =>
    exact fun holds => ih (holds.of_cons fun _ heq => absurd (List.cons.inj heq).1 (by decide))
  | case3 inside hsplit ih =>
    have unclosed : ¬['*', '/'] <:+: inside := by
      rw [← isSome_splitAt?, hsplit]
      exact Bool.false_ne_true
    have none := not_holdsComment_of_open unclosed
    rwa [blankComments_of_not_holds (mt HoldsComment.cons none)]
  | case4 c rest noMark ih =>
    refine fun holds => ih (holds.of_cons fun inside heq => ?_)
    obtain ⟨rfl, hstar⟩ := List.cons.inj heq
    have first := head?_blankComments (by decide) (congrArg List.head? hstar.symm)
    obtain ⟨behind, rfl⟩ := List.head?_eq_some_iff.1 first
    exact absurd rfl (noMark behind rfl)

theorem blankComments_eq_self_iff : blankComments text = text ↔ ¬HoldsComment text :=
  ⟨fun same holds => absurd (congrArg List.length same) (Nat.ne_of_lt (length_blankComments_lt holds)),
    blankComments_of_not_holds⟩

instance (text : List Char) : Decidable (HoldsComment text) :=
  decidable_of_iff (¬blankComments text = text) <| by rw [blankComments_eq_self_iff, Classical.not_not]

theorem length_withoutComments_lt (h : HoldsComment text) :
    (withoutComments text).length < text.length :=
  (infix_trim _).length_le.trans_lt (length_blankComments_lt h)

/-- A character that is neither a blank nor half a comment mark stays the first one. -/
theorem withoutComments_cons {c : Char} (blank : isBlank c = false) (mark : c ≠ '/')
    (text : List Char) : withoutComments (c :: text) = c :: trimEnd (blankComments text) := by
  have noMark : ∀ inside, '/' :: '*' :: inside ≠ c :: text := fun inside heq =>
    mark (List.cons.inj heq).1.symm
  have start : Stops isBlank (c :: blankComments text) := stops_cons.2 blank
  have finish : Stops isBlank [c].reverse := stops_cons.2 blank
  rw [withoutComments, blankComments_cons noMark, trim, trimStart, start.dropWhile]
  exact trimEnd_append_of_stops finish (blankComments text)

end Blank

/-! ## Kept comments -/

section Kept

variable {body kept : List Char}

/-- What is kept of a comment is its text between marks, which is not blank. -/
theorem of_keptComment? (h : keptComment? body = some kept) :
    trim body ≠ [] ∧ kept = "/* ".toList ++ collapseBlanks (trim body) ++ " */".toList := by
  rw [keptComment?] at h
  split at h
  next number =>
    cases h
    refine ⟨fun hblank => ?_, rfl⟩
    have blank := all_isBlank_of_trim hblank '#' (List.contains_iff_mem.1 number)
    exact absurd blank (by decide)
  next => cases h

/-- A comment as the condensed text has it. -/
def IsKept (comment : List Char) : Prop := ∃ body, keptComment? body = some comment

theorem IsKept.closes (h : IsKept kept) : " */".toList <:+ kept := by
  obtain ⟨body, hbody⟩ := h
  obtain ⟨-, rfl⟩ := of_keptComment? hbody
  exact List.suffix_append _ _

theorem IsKept.exists_eq (h : IsKept kept) : ∃ inside, kept = '/' :: inside := by
  obtain ⟨body, hbody⟩ := h
  obtain ⟨-, rfl⟩ := of_keptComment? hbody
  exact ⟨_, rfl⟩

theorem IsKept.onLine (h : IsKept kept) : '\n' ∉ kept := by
  obtain ⟨body, hbody⟩ := h
  obtain ⟨-, rfl⟩ := of_keptComment? hbody
  have marks : '\n' ∉ "/* ".toList ∧ '\n' ∉ " */".toList := by decide
  rw [List.mem_append, List.mem_append, not_or, not_or]
  refine ⟨⟨marks.1, fun hmem => ?_⟩, marks.2⟩
  exact absurd (eq_space_of_mem_collapseFrom hmem (by decide)) (by decide)

/-- A text with a kept comment in it, cut at the slash of the comment. -/
theorem IsKept.exists_cut (h : IsKept kept) (front back : List Char) :
    ∃ behind, kept ++ ' ' :: back = '/' :: behind ∧
      front ++ ' ' :: (kept ++ ' ' :: back) = (front ++ [' ']) ++ '/' :: behind := by
  obtain ⟨inside, rfl⟩ := h.exists_eq
  exact ⟨inside ++ ' ' :: back, by simp, by simp⟩

end Kept

end ReleaseSchema.Sql
