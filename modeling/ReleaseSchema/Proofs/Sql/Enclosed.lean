/-
Texts in parentheses. The reader that looks for the closing parenthesis finds
a nested text and the parenthesis behind it, if there is one (`enclosed?_eq_some_iff`).

The reader stops at the first closing parenthesis that brings the depth back to
zero. One level down that is the first place at which the text in front would
have closed more than it opened, which is why what was passed has not
(`exists_of_enclosedFrom?`).
-/
import ReleaseSchema.Proofs.Sql.Items

namespace ReleaseSchema.Sql

open Text

namespace Nesting

theorem depth_stepCode (s : Nesting) (c : Char) :
    s.depth ≤ (s.stepCode c).depth ∨ c = ')' ∧ (s.stepCode c).depth = s.depth - 1 := by
  unfold stepCode
  split
  · exact .inl (Int.le_refl _)
  split
  · exact .inl (Int.le_refl _)
  split
  · exact .inl (Int.le_refl _)
  split
  · exact .inl (Int.le_add_one (Int.le_refl _))
  split
  next close => exact .inr ⟨close, rfl⟩
  next => exact .inl (Int.le_refl _)

/-- Only a closing parenthesis outside quotes and comments takes from the depth. -/
theorem depth_step (s : Nesting) (c : Char) :
    s.depth ≤ (s.step c).depth ∨ c = ')' ∧ s.isQuoted = false := by
  obtain ⟨depth, inside⟩ := s
  cases inside with
  | code => exact (depth_stepCode _ c).imp id fun close => ⟨close.1, rfl⟩
  | slash =>
    simp only [step]
    split
    · exact .inl (Int.le_refl _)
    · exact (depth_stepCode _ c).imp id fun close => ⟨close.1, rfl⟩
  | single | double | comment =>
    simp only [step]
    split <;> exact .inl (Int.le_refl _)
  | star =>
    simp only [step]
    split
    · exact .inl (Int.le_refl _)
    · split <;> exact .inl (Int.le_refl _)

theorem isQuoted_step_close (s : Nesting) : (s.step ')').isQuoted = s.isQuoted := by
  obtain ⟨depth, inside⟩ := s
  cases inside <;> rfl

theorem isQuoted_raised (s : Nesting) : s.raised.isQuoted = s.isQuoted := rfl

end Nesting

open Nesting

/-- What is found up to the closing parenthesis, one level down, opens and closes the same. -/
theorem exists_of_enclosedFrom? {s : Nesting} {before text inner tail : List Char}
    (hs : 0 ≤ s.depth) (h : enclosedFrom? s.raised before text = some (inner, tail)) :
    ∃ passed, inner = before.reverse ++ passed ∧ text = passed ++ ')' :: tail ∧
      s.StaysInside passed ∧ (s.after passed).IsSettled := by
  induction text generalizing s before with
  | nil => cases h
  | cons c text ih =>
    rw [enclosedFrom?] at h
    split at h
    next closes =>
      obtain ⟨rfl, hdepth, hquoted⟩ := closes
      cases h
      have unquoted : s.isQuoted = false := by
        rwa [Bool.not_eq_true, isQuoted_step_close, isQuoted_raised] at hquoted
      have settled : s.IsSettled := by
        rw [step_raised, raised_depth, step_close unquoted] at hdepth
        exact ⟨by simpa using hdepth, unquoted⟩
      exact ⟨[], by simp, rfl, hs, settled⟩
    next goesOn =>
      have stays : 0 ≤ (s.step c).depth := by
        rcases depth_step s c with kept | ⟨rfl, unquoted⟩
        · exact Int.le_trans hs kept
        · -- the depth is not zero here, or the parenthesis would have closed
          have close : s.step ')' = ⟨s.depth - 1, .code⟩ := step_close unquoted
          rw [close]
          have notYet : s.depth ≠ 0 := by
            intro hzero
            refine goesOn ⟨rfl, ?_, ?_⟩
            · rw [step_raised, raised_depth, close, hzero]
              rfl
            · rw [isQuoted_step_close, isQuoted_raised, unquoted]
              exact Bool.false_ne_true
          show 0 ≤ s.depth - 1
          omega
      rw [step_raised] at h
      obtain ⟨passed, hinner, rfl, inside, settled⟩ := ih stays h
      exact ⟨c :: passed, by simp [hinner], rfl, ⟨hs, inside⟩, settled⟩

theorem enclosed?_eq_some_iff {text inner tail : List Char} :
    enclosed? text = some (inner, tail) ↔
      text = '(' :: (inner ++ ')' :: tail) ∧ IsNested inner := by
  constructor
  · intro h
    unfold enclosed? at h
    split at h
    next rest =>
      obtain ⟨passed, rfl, rfl, inside, settled⟩ :=
        exists_of_enclosedFrom? (s := {}) (Int.le_refl 0) h
      exact ⟨rfl, inside, settled⟩
    · cases h
  · rintro ⟨rfl, nested⟩
    exact enclosed?_of_isNested nested tail

end ReleaseSchema.Sql
