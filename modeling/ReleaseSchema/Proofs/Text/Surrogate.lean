/-
Texts as 16-bit codes. No character is half of a surrogate pair (`not_surrogate`), so
the characters of a text are read back from its code points (`charsOfCodes?_toNat`) and
from its 16-bit codes, in which a character beyond the first 0x10000 is a pair
(`charsOfCodes?_units`).
-/
import ReleaseSchema.Text.Surrogate

namespace ReleaseSchema.Text

theorem not_surrogate (c : Char) :
    isHighSurrogate c.toNat = false ∧ isLowSurrogate c.toNat = false := by
  have hvalid : c.toNat < 0xD800 ∨ 0xDFFF < c.toNat ∧ c.toNat < 0x110000 := c.valid
  simp only [isHighSurrogate, isLowSurrogate, Bool.and_eq_false_iff, decide_eq_false_iff_not]
  omega

theorem charsOfCodes?_cons (c : Char) (codes : List Nat) :
    charsOfCodes? (c.toNat :: codes) = (charsOfCodes? codes).map (c :: ·) := by
  obtain ⟨hhigh, hlow⟩ := not_surrogate c
  cases codes with
  | nil => simp [charsOfCodes?, hhigh, hlow]
  | cons next codes => simp [charsOfCodes?, hhigh, hlow]

theorem charsOfCodes?_toNat (text : List Char) :
    charsOfCodes? (text.map Char.toNat) = some text := by
  induction text with
  | nil => rfl
  | cons c text ih => rw [List.map_cons, charsOfCodes?_cons, ih, Option.map_some]

/-! ## 16-bit codes -/

/-- The 16-bit codes of a character: its number, or the two halves of one that is too large. -/
def units (c : Char) : List Nat :=
  if c.toNat < 0x10000 then [c.toNat]
  else [0xD800 + (c.toNat - 0x10000) / 0x400, 0xDC00 + (c.toNat - 0x10000) % 0x400]

theorem units_lt {c : Char} {code : Nat} (h : code ∈ units c) : code < 0x10000 := by
  have hvalid : c.toNat < 0xD800 ∨ 0xDFFF < c.toNat ∧ c.toNat < 0x110000 := c.valid
  unfold units at h
  split at h
  next small => rwa [List.mem_singleton.1 h]
  next =>
    rcases List.mem_cons.1 h with rfl | h
    · omega
    · rw [List.mem_singleton.1 h]
      omega

/-- The halves of a character are put together again. -/
theorem joinSurrogates_units {c : Char} (h : 0x10000 ≤ c.toNat) :
    joinSurrogates (0xD800 + (c.toNat - 0x10000) / 0x400) (0xDC00 + (c.toNat - 0x10000) % 0x400) =
      c := by
  have whole : 0x10000 + (0xD800 + (c.toNat - 0x10000) / 0x400 - 0xD800) * 0x400 +
      (0xDC00 + (c.toNat - 0x10000) % 0x400 - 0xDC00) = c.toNat := by omega
  rw [joinSurrogates, whole, Char.ofNat_toNat]

theorem charsOfCodes?_units_append (c : Char) (codes : List Nat) :
    charsOfCodes? (units c ++ codes) = (charsOfCodes? codes).map (c :: ·) := by
  unfold units
  split
  next => exact charsOfCodes?_cons c codes
  next large =>
    have hvalid : c.toNat < 0xD800 ∨ 0xDFFF < c.toNat ∧ c.toNat < 0x110000 := c.valid
    have hhigh : isHighSurrogate (0xD800 + (c.toNat - 0x10000) / 0x400) = true := by
      simp only [isHighSurrogate, Bool.and_eq_true, decide_eq_true_eq]
      omega
    have hlow : isLowSurrogate (0xDC00 + (c.toNat - 0x10000) % 0x400) = true := by
      simp only [isLowSurrogate, Bool.and_eq_true, decide_eq_true_eq]
      omega
    simp only [List.cons_append, List.nil_append, charsOfCodes?, hhigh, hlow, if_true,
      joinSurrogates_units (Nat.not_lt.1 large)]

theorem charsOfCodes?_units (text : List Char) : charsOfCodes? (text.flatMap units) = some text := by
  induction text with
  | nil => rfl
  | cons c text ih => rw [List.flatMap_cons, charsOfCodes?_units_append, ih, Option.map_some]

end ReleaseSchema.Text
