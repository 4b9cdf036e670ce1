/-
Strings between quotes: what is written for a string is read as that string,
whatever its characters and whatever follows (`string?_quoted`).
-/
import ReleaseSchema.Json.Printer
import ReleaseSchema.Json.Reader
import ReleaseSchema.Proofs.Text.Surrogate

namespace ReleaseSchema.Json

open Text

/-! ## Escapes -/

theorem hexCode?_control : ∀ n < 32,
    hexCode? '0' '0' (hexDigit (n / 16)) (hexDigit (n % 16)) = some n := by
  decide

theorem codesFrom?_escaped (codes : List Nat) (c : Char) (more : List Char) :
    codesFrom? codes (escaped c ++ more) = codesFrom? (c.toNat :: codes) more := by
  unfold escaped
  -- the seven escapes of one letter
  iterate 7
    split
    next h =>
      subst h
      rfl
  split
  next h =>
    have hcode : c.toNat < 32 := h
    simp only [List.cons_append, List.nil_append, codesFrom?, hexCode?_control c.toNat hcode]
  next hquote hslash _ _ _ _ _ hcontrol =>
    rw [List.singleton_append, codesFrom?.eq_def]
    split
    next heq => cases heq
    next heq => exact absurd (List.cons.inj heq).1 hquote
    next heq => exact absurd (List.cons.inj heq).1 hslash
    next heq => exact absurd (List.cons.inj heq).1 hslash
    next heq =>
      obtain ⟨rfl, rfl⟩ := List.cons.inj heq
      rw [if_neg hcontrol]

theorem codesFrom?_quoted (codes : List Nat) (text more : List Char) :
    codesFrom? codes (text.flatMap escaped ++ '"' :: more) =
      some (codes.reverse ++ text.map Char.toNat, more) := by
  induction text generalizing codes with
  | nil => simp [codesFrom?]
  | cons c text ih =>
    rw [List.flatMap_cons, List.append_assoc, codesFrom?_escaped, ih]
    simp

theorem string?_quoted (s : String) (more : List Char) :
    string? (s.toList.flatMap escaped ++ '"' :: more) = some (some s, more) := by
  rw [string?, codesFrom?_quoted]
  simp [charsOfCodes?_toNat]

end ReleaseSchema.Json
