/-
How far version keys can be trusted. With components below nine thousand a key
says all that the numbers of its version say: a lower version has a lower key,
equal numbers have one key however many zeros are written before them, and
`current` is above (`keysFollow_of_le`). Nine thousand itself takes a fifth digit,
so no greater bound will do (`keysFollow_iff`).
-/
import ReleaseSchema.Proofs.Release.VersionKey

namespace ReleaseSchema.Version

open Text

/-- A name of four components with dots between them, each written in ASCII digits, with leading zeros
or without, and below a bound. -/
structure IsDotted (bound : Nat) (name : String) : Prop where
  four : (components name.toList).length = 4
  written : ∀ component ∈ components name.toList, component ≠ []
  below : ComponentsBelow bound name

/-- The keys of dotted versions with components below a bound say how their numbers compare from left
to right, and `current` is above them. -/
structure KeysFollow (bound : Nat) : Prop where
  lower : ∀ a b, IsDotted bound a → IsDotted bound b →
    numbers a < numbers b → sortKey a < sortKey b
  equal : ∀ a b, IsDotted bound a → IsDotted bound b →
    numbers a = numbers b → sortKey a = sortKey b
  current : ∀ a, IsDotted bound a → sortKey a < sortKey current

instance (bound : Nat) (name : String) : Decidable (IsDotted bound name) :=
  decidable_of_iff ((components name.toList).length = 4 ∧
      (∀ component ∈ components name.toList, component ≠ []) ∧ ComponentsBelow bound name)
    ⟨fun h => ⟨h.1, h.2.1, h.2.2⟩, fun h => ⟨h.four, h.written, h.below⟩⟩

section Dotted

variable {bound : Nat} {name : String}

theorem IsDotted.mono {bound' : Nat} (h : IsDotted bound name) (hle : bound ≤ bound') :
    IsDotted bound' name where
  four := h.four
  written := h.written
  below component hmem :=
    ⟨(h.below component hmem).1, Nat.lt_of_lt_of_le (h.below component hmem).2 hle⟩

theorem IsDotted.ne_current (h : IsDotted bound name) : name ≠ current := by
  rintro rfl
  have four := h.four
  revert four
  decide

theorem IsDotted.isAcceptable (h : IsDotted bound name) : isAcceptable name = true := by
  have decimal : ∀ component ∈ components name.toList,
      (!component.isEmpty && component.all isDecimal) = true := by
    intro component hmem
    have digits := List.all_eq_true.1 (h.below component hmem).1
    rw [Bool.and_eq_true, Bool.not_eq_true', List.isEmpty_eq_false_iff, List.all_eq_true]
    exact ⟨h.written component hmem, fun c hc => isDecimal_of_isAsciiDigit (digits c hc)⟩
  rw [Version.isAcceptable, h.four, List.all_eq_true.2 decimal]
  simp

/-- With components below nine thousand the key strings the numbers together, and stays below that of
`current`. -/
theorem IsDotted.sortKey (h : IsDotted 9000 name) :
    Version.sortKey name = strung 0 (numbers name) ∧
      Version.sortKey name < Version.sortKey current := by
  have key := sortKey_eq_strung h.isAcceptable h.ne_current h.below
  obtain ⟨a, b, c, d, hnumbers⟩ := numbers_of_isAcceptable h.isAcceptable h.ne_current
  have small := strung_four_lt (hnumbers ▸ numbers_lt_of_below h.below)
  have greatest : 10000000000000000 < Version.sortKey current := by decide
  rw [key, hnumbers]
  exact ⟨rfl, small.trans greatest⟩

end Dotted

theorem keysFollow_of_le {bound : Nat} (hbound : bound ≤ 9000) : KeysFollow bound where
  lower a b ha hb hlt := by
    have ha := ha.mono hbound
    have hb := hb.mono hbound
    have length : (numbers a).length = (numbers b).length := by
      rw [numbers, numbers, List.length_map, List.length_map, ha.four, hb.four]
    rw [ha.sortKey.1, hb.sortKey.1,
      strung_lt_iff length (numbers_lt_of_below ha.below) (numbers_lt_of_below hb.below)]
    exact .inr ⟨rfl, hlt⟩
  equal a b ha hb heq := by
    rw [(ha.mono hbound).sortKey.1, (hb.mono hbound).sortKey.1, heq]
  current a ha := (ha.mono hbound).sortKey.2

/-- The key of 0.0.0.9000 has a digit more than that of 0.0.1.0. -/
theorem sortKey_of_nine_thousand :
    IsDotted 9001 "0.0.0.9000" ∧ IsDotted 9001 "0.0.1.0" ∧
      numbers "0.0.0.9000" < numbers "0.0.1.0" ∧ sortKey "0.0.1.0" < sortKey "0.0.0.9000" := by
  decide +kernel

/-- **The range of version keys.** Keys follow the numbers of the versions as long as components stay
below a bound if and only if the bound is at most nine thousand. -/
theorem keysFollow_iff (bound : Nat) : KeysFollow bound ↔ bound ≤ 9000 := by
  refine ⟨fun follows => ?_, keysFollow_of_le⟩
  by_contra hbound
  obtain ⟨ha, hb, lower, above⟩ := sortKey_of_nine_thousand
  have hle : 9001 ≤ bound := by omega
  have below := follows.lower _ _ (ha.mono hle) (hb.mono hle) lower
  omega

/-- Zeros before a number make no difference. -/
example : sortKey "01.0009.00.8999" = sortKey "1.9.0.8999" := by decide +kernel

end ReleaseSchema.Version
