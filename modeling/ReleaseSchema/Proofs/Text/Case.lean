/-
Letter case. Texts with the same letters are equally long
(`length_eq_of_sameLetters`). No case mapping drops a character
(`lower_eq_nil_iff`, `capitalized_eq_nil_iff`), and the camel case of a name drops
nothing but the underscores between its words. So the camel case is empty where the
name has nothing but underscores, and nowhere else (`camelCase_eq_nil_iff`).
-/
import ReleaseSchema.Text.Case

namespace ReleaseSchema.Text

open Unicode

/-! ## Letter case -/

/-- A character that is no small letter is the small form of itself alone. -/
theorem eq_of_toLower {c x : Char} (hx : x.toNat < 97 ∨ 122 < x.toNat) (h : c.toLower = x) :
    c = x := by
  unfold Char.toLower at h
  split at h
  next hupper =>
    have hval : (c.val + ('a'.val - 'A'.val)).toNat = x.toNat := congrArg Char.toNat h
    have hlow : 65 ≤ c.val.toNat := hupper.1
    have hhigh : c.val.toNat ≤ 90 := hupper.2
    have hshift : ('a'.val - 'A'.val).toNat = 32 := rfl
    rw [UInt32.toNat_add, hshift] at hval
    omega
  next => exact h

theorem length_eq_of_sameLetters {a b : List Char} (h : sameLetters a b = true) :
    a.length = b.length := by
  have := congrArg List.length (sameLetters_iff.1 h)
  simpa [lowerAscii] using this

/-- A text begins like another one when its first part has the same letters. -/
theorem startsLike_iff {text start : List Char} :
    startsLike text start = true ↔
      ∃ front rest, text = front ++ rest ∧ sameLetters front start = true := by
  simp only [startsLike, List.isPrefixOf_iff_prefix, sameLetters_iff]
  constructor
  · rintro ⟨more, hmore⟩
    obtain ⟨front, rest, rfl, hfront, -⟩ := List.map_eq_append_iff.1 hmore.symm
    exact ⟨front, rest, rfl, hfront⟩
  · rintro ⟨front, rest, rfl, hfront⟩
    rw [← hfront, lowerAscii, lowerAscii, List.map_append]
    exact List.prefix_append _ _

theorem mapChar_ne_nil {special : List (Nat × List Nat)} (h : ∀ row ∈ special, row.2 ≠ [])
    (rows : List CaseRow) (c : Char) : mapChar special rows c ≠ [] := by
  unfold mapChar
  split
  next image hlookup =>
    obtain ⟨before, after, rfl, -⟩ := List.lookup_eq_some_iff.1 hlookup
    have := h (c.toNat, image) (by simp)
    simpa using this
  next => exact List.cons_ne_nil _ _

theorem lowerChar_ne_nil (c : Char) : lowerChar c ≠ [] := by
  unfold lowerChar
  split
  · exact List.cons_ne_nil _ _
  · exact mapChar_ne_nil (by decide) _ _

theorem upperChar_ne_nil (c : Char) : upperChar c ≠ [] := by
  unfold upperChar
  split
  · exact List.cons_ne_nil _ _
  · exact mapChar_ne_nil (by decide +kernel) _ _

theorem lower_eq_nil_iff {text : List Char} : lower text = [] ↔ text = [] := by
  cases text with
  | nil => exact iff_of_true rfl rfl
  | cons c rest =>
    refine iff_of_false (fun hnil => ?_) (List.cons_ne_nil _ _)
    have image := (List.append_eq_nil_iff.1 hnil).1
    split at image
    · split at image <;> exact absurd image (List.cons_ne_nil _ _)
    · exact lowerChar_ne_nil c image

theorem capitalized_eq_nil_iff {text : List Char} : capitalized text = [] ↔ text = [] := by
  cases text with
  | nil => exact iff_of_true rfl rfl
  | cons c rest =>
    refine iff_of_false (fun hnil => ?_) (List.cons_ne_nil _ _)
    exact upperChar_ne_nil c (List.append_eq_nil_iff.1 hnil).1

/-! ## Camel case -/

/-- No character but underscores. -/
def IsUnderscores (text : List Char) : Prop := ∀ c ∈ text, c = '_'

instance (text : List Char) : Decidable (IsUnderscores text) :=
  List.decidableBAll (· = '_') text

section Words

variable {before : Option Char} {word text : List Char}

/-- Underscores behind one another all separate words. -/
theorem eq_nil_of_mem_snakeWordsFrom (hbefore : before.any drawsNext = false)
    (h : IsUnderscores text) : ∀ found ∈ snakeWordsFrom before [] text, found = [] := by
  induction text generalizing before with
  | nil => simp [snakeWordsFrom]
  | cons c rest ih =>
    obtain ⟨rfl, others⟩ := List.forall_mem_cons.1 h
    have next : rest.head?.any joinsCluster = false := by
      cases rest with
      | nil => rfl
      | cons d rest =>
        obtain ⟨rfl, -⟩ := List.forall_mem_cons.1 others
        exact show joinsCluster '_' = false by decide +kernel
    rw [snakeWordsFrom, if_pos (by simp [hbefore, next])]
    exact List.forall_mem_cons.2 ⟨rfl, ih (by decide +kernel) others⟩

/-- Every character that separates no words is in one. -/
theorem isUnderscores_of_snakeWordsFrom (h : ∀ found ∈ snakeWordsFrom before word text, found = []) :
    word = [] ∧ IsUnderscores text := by
  fun_induction snakeWordsFrom before word text with
  | case1 before word =>
    have none := List.forall_mem_singleton.1 h
    exact ⟨List.reverse_eq_nil_iff.1 none, by simp [IsUnderscores]⟩
  | case2 before word c rest separates ih =>
    obtain ⟨none, others⟩ := List.forall_mem_cons.1 h
    have underscore : c = '_' := by simp_all
    exact ⟨List.reverse_eq_nil_iff.1 none, List.forall_mem_cons.2 ⟨underscore, (ih others).2⟩⟩
  | case3 before word c rest _ ih => exact absurd (ih h).1 (List.cons_ne_nil _ _)

theorem isUnderscores_lowerAscii : IsUnderscores (lowerAscii text) ↔ IsUnderscores text := by
  have letter : ∀ c : Char, c.toLower = '_' ↔ c = '_' := fun c =>
    ⟨eq_of_toLower (.inl (by decide)), by rintro rfl; rfl⟩
  simp only [IsUnderscores, lowerAscii, List.forall_mem_map, letter]

end Words

/-- The camel case of a name is empty when there is nothing between its underscores. -/
theorem camelCase_eq_nil_iff {name : List Char} : camelCase name = [] ↔ IsUnderscores name := by
  have words : camelCase name = [] ↔ ∀ word ∈ snakeWords (lowerAscii name), word = [] := by
    unfold camelCase
    cases snakeWords (lowerAscii name) with
    | nil => simp
    | cons first others =>
      simp only [List.append_eq_nil_iff, List.flatten_eq_nil_iff, List.forall_mem_map,
        List.forall_mem_cons, lower_eq_nil_iff, capitalized_eq_nil_iff]
  rw [words, ← isUnderscores_lowerAscii]
  exact ⟨fun h => (isUnderscores_of_snakeWordsFrom h).2, eq_nil_of_mem_snakeWordsFrom rfl⟩

end ReleaseSchema.Text
