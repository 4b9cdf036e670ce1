/-
What a version key says of a version. The digits of the four components are
strung together, each component raised by a thousand, so as long as components
stay below nine thousand every one of them takes four digits and the keys
compare like the components, from left to right (`sortKey_le_iff`). No key is
above that of `current`.
-/
import Mathlib.Data.List.Lex
import ReleaseSchema.Proofs.Traverse
import ReleaseSchema.Release.Version

namespace ReleaseSchema.Version

open Text

/-- The numbers between the dots of a name. -/
def numbers (name : String) : List Nat := (components name.toList).map ofDigits

/-- Every component is written in ASCII digits and stays below a bound. -/
def ComponentsBelow (bound : Nat) (name : String) : Prop :=
  ∀ component ∈ components name.toList,
    component.all isAsciiDigit = true ∧ ofDigits component < bound

instance (bound : Nat) (name : String) : Decidable (ComponentsBelow bound name) :=
  inferInstanceAs (Decidable (∀ component ∈ components name.toList, _ ∧ _))

/-- The order of versions: released ones by their numbers from left to right, `current` last. -/
def NotAfter (a b : String) : Prop := b = current ∨ a ≠ current ∧ numbers a ≤ numbers b

instance (a b : String) : Decidable (NotAfter a b) :=
  inferInstanceAs (Decidable (_ ∨ _ ∧ _))

theorem NotAfter.refl (a : String) : NotAfter a a := by
  by_cases h : a = current
  · exact .inl h
  · exact .inr ⟨h, le_refl _⟩

/-! ## Digits -/

theorem ofDigits_eq (digits : List Char) : ofDigits digits = Nat.ofDigitChars 10 digits 0 := rfl

/-- A number between one thousand and ten thousand pushes what was read before it up by four
places. -/
theorem ofDigitChars_toDigits_four {n : Nat} (h : 1000 ≤ n) (h' : n < 10000) (before : Nat) :
    Nat.ofDigitChars 10 (Nat.toDigits 10 n) before = 10000 * before + n := by
  have hle : (Nat.toDigits 10 n).length ≤ 4 :=
    (Nat.length_toDigits_le_iff (by omega) (by omega)).2 h'
  have hge : ¬(Nat.toDigits 10 n).length ≤ 3 := by
    rw [Nat.length_toDigits_le_iff (by omega) (by omega)]
    omega
  have hlength : (Nat.toDigits 10 n).length = 4 := by omega
  rw [Nat.ofDigitChars_eq_ofDigitChars_zero, hlength, Nat.ofDigitChars_ten_toDigits]

/-- Numbers strung together four places apart, each raised by a thousand. -/
def strung (before : Nat) (numbers : List Nat) : Nat :=
  numbers.foldl (fun before n => 10000 * before + (n + 1000)) before

theorem ofDigitChars_flatMap {ns : List Nat} (h : ∀ n ∈ ns, n < 9000) (before : Nat) :
    Nat.ofDigitChars 10 ((ns.map (· + 1000)).flatMap (Nat.toDigits 10)) before =
      strung before ns := by
  induction ns generalizing before with
  | nil => simp [strung]
  | cons n rest ih =>
    have hn := h n List.mem_cons_self
    rw [List.map_cons, List.flatMap_cons, Nat.ofDigitChars_append,
      ofDigitChars_toDigits_four (by omega) (by omega),
      ih fun m hm => h m (List.mem_cons_of_mem _ hm)]
    rfl

/-- Strung numbers compare like what stood before them, and then from left to right. -/
theorem strung_lt_iff {xs ys : List Nat} (hlength : xs.length = ys.length)
    (hx : ∀ x ∈ xs, x < 9000) (hy : ∀ y ∈ ys, y < 9000) (i j : Nat) :
    strung i xs < strung j ys ↔ i < j ∨ i = j ∧ xs < ys := by
  induction xs generalizing ys i j with
  | nil =>
    cases ys with
    | nil => simp [strung]
    | cons y ys => simp at hlength
  | cons x xs ih =>
    cases ys with
    | nil => simp at hlength
    | cons y ys =>
      have hstep := ih (by simpa using hlength) (fun z hz => hx z (List.mem_cons_of_mem _ hz))
        (fun z hz => hy z (List.mem_cons_of_mem _ hz)) (10000 * i + (x + 1000))
        (10000 * j + (y + 1000))
      have hx := hx x List.mem_cons_self
      have hy := hy y List.mem_cons_self
      simp only [strung, List.foldl_cons] at hstep ⊢
      rw [hstep, List.cons_lt_cons_iff]
      constructor
      · rintro (hlt | ⟨heq, hrest⟩)
        · by_cases hij : i = j
          · exact .inr ⟨hij, .inl (by omega)⟩
          · exact .inl (by omega)
        · exact .inr ⟨by omega, .inr ⟨by omega, hrest⟩⟩
      · rintro (hlt | ⟨rfl, hlt | ⟨rfl, hrest⟩⟩)
        · exact .inl (by omega)
        · exact .inl (by omega)
        · exact .inr ⟨rfl, hrest⟩

theorem strung_four_lt {a b c d : Nat} (h : ∀ n ∈ [a, b, c, d], n < 9000) :
    strung 0 [a, b, c, d] < 10000000000000000 := by
  simp only [List.mem_cons, List.not_mem_nil, or_false, forall_eq_or_imp, forall_eq] at h
  simp only [strung, List.foldl_cons, List.foldl_nil]
  omega

/-! ## Keys -/

theorem number?_of_digits {digits : List Char} (hne : digits ≠ [])
    (hdigits : ∀ c ∈ digits, isAsciiDigit c = true) (hbound : ofDigits digits < keyBound) :
    number? digits = some (ofDigits digits) := by
  have hall : digits.all isAsciiDigit = true := List.all_eq_true.2 hdigits
  cases digits with
  | nil => exact absurd rfl hne
  | cons c rest =>
    have hplus : c ≠ '+' := by
      rintro rfl
      exact absurd (hdigits '+' List.mem_cons_self) (by decide)
    simp [number?, hplus, hall, hbound]

theorem number?_lt_bound {text : List Char} {n : Nat} (h : number? text = some n) :
    n < keyBound := by
  unfold number? at h
  extract_lets digits at h
  split at h
  · cases h
  next hok =>
    cases h
    simp only [Bool.or_eq_true, decide_eq_true_eq, not_or, Nat.not_le] at hok
    exact hok.2

theorem sortKey_le_bound (name : String) : sortKey name ≤ keyBound - 1 := by
  unfold sortKey
  split
  · exact Nat.le_refl _
  · split
    next numbers _ =>
      cases h : number? (numbers.flatMap (Nat.toDigits 10)) with
      | none => exact Nat.zero_le _
      | some n => exact Nat.le_sub_one_of_lt (number?_lt_bound h)
    · exact Nat.zero_le _

theorem raised?_of_below {component : List Char} (hne : component ≠ [])
    (h : component.all isAsciiDigit = true ∧ ofDigits component < 9000) :
    raised? component = some (ofDigits component + 1000) := by
  have hbound : 10000 < keyBound := by decide
  have hnumber := number?_of_digits hne (List.all_eq_true.1 h.1) (by omega)
  have hraised : ofDigits component + 1000 < keyBound := by omega
  simp [raised?, hnumber, hraised]

theorem components_of_isAcceptable {name : String} (h : isAcceptable name = true)
    (hreleased : name ≠ current) :
    (components name.toList).length = 4 ∧ ∀ component ∈ components name.toList, component ≠ [] := by
  simp only [isAcceptable, Bool.or_eq_true, beq_iff_eq, hreleased, false_or, Bool.and_eq_true,
    List.all_eq_true] at h
  refine ⟨h.1, fun component hmem => ?_⟩
  rintro rfl
  simpa using h.2 [] hmem

theorem numbers_of_isAcceptable {name : String} (h : isAcceptable name = true)
    (hreleased : name ≠ current) : ∃ a b c d, numbers name = [a, b, c, d] := by
  have hlength : (numbers name).length = 4 := by
    rw [numbers, List.length_map]
    exact (components_of_isAcceptable h hreleased).1
  match hnumbers : numbers name, hlength with
  | [a, b, c, d], _ => exact ⟨a, b, c, d, rfl⟩

theorem numbers_lt_of_below {name : String} {bound : Nat} (h : ComponentsBelow bound name) :
    ∀ n ∈ numbers name, n < bound := by
  intro n hn
  simp only [numbers, List.mem_map] at hn
  obtain ⟨component, hmem, rfl⟩ := hn
  exact (h component hmem).2

/-- The key of a released version with components below nine thousand. -/
theorem sortKey_eq_strung {name : String} (h : isAcceptable name = true)
    (hreleased : name ≠ current) (hbelow : ComponentsBelow 9000 name) :
    sortKey name = strung 0 (numbers name) := by
  obtain ⟨a, b, c, d, hnumbers⟩ := numbers_of_isAcceptable h hreleased
  have hlt := numbers_lt_of_below hbelow
  have hraised : (components name.toList).mapM raised? =
      some ((numbers name).map (· + 1000)) := by
    rw [Traverse.mapM_eq_some_map (g := fun component => ofDigits component + 1000)
      fun component hmem => raised?_of_below ((components_of_isAcceptable h hreleased).2 _ hmem)
        (hbelow component hmem)]
    simp [numbers, Function.comp_def]
  have hvalue : ofDigits (((numbers name).map (· + 1000)).flatMap (Nat.toDigits 10)) =
      strung 0 (numbers name) := by
    rw [ofDigits_eq, ofDigitChars_flatMap hlt]
  have hbound : strung 0 (numbers name) < keyBound := by
    have h16 : 10000000000000000 < keyBound := by decide
    have := strung_four_lt (hnumbers ▸ hlt)
    rw [hnumbers]
    exact Nat.lt_trans this h16
  have hnumber : number? (((numbers name).map (· + 1000)).flatMap (Nat.toDigits 10)) =
      some (strung 0 (numbers name)) := by
    rw [number?_of_digits ?_ ?_ (by rw [hvalue]; exact hbound), hvalue]
    · simp [hnumbers]
    · intro digit hdigit
      simp only [List.mem_flatMap] at hdigit
      obtain ⟨n, -, hn⟩ := hdigit
      exact Nat.isDigit_of_mem_toDigits (by omega) (by omega) hn
  simp [sortKey, hreleased, hraised, hnumber]

/-- **Keys compare like versions** as long as components stay below nine thousand. -/
theorem sortKey_le_iff {a b : String} (ha : isAcceptable a = true) (hb : isAcceptable b = true)
    (hka : a = current ∨ ComponentsBelow 9000 a) (hkb : b = current ∨ ComponentsBelow 9000 b) :
    sortKey a ≤ sortKey b ↔ NotAfter a b := by
  by_cases hbc : b = current
  · subst hbc
    simp only [NotAfter, true_or, iff_true]
    exact sortKey_le_bound a
  · have hkb := hkb.resolve_left hbc
    obtain ⟨x, y, z, w, hnumbers⟩ := numbers_of_isAcceptable hb hbc
    have hltb := numbers_lt_of_below hkb
    rw [sortKey_eq_strung hb hbc hkb]
    by_cases hac : a = current
    · subst hac
      have h16 : 10000000000000000 < keyBound - 1 := by decide
      have hsmall := strung_four_lt (hnumbers ▸ hltb)
      simp only [NotAfter, hbc, ne_eq, not_true_eq_false, false_and, or_self, iff_false, sortKey,
        if_true, Nat.not_le]
      rw [hnumbers]
      exact Nat.lt_trans hsmall h16
    · have hka := hka.resolve_left hac
      obtain ⟨x', y', z', w', hnumbers'⟩ := numbers_of_isAcceptable ha hac
      rw [sortKey_eq_strung ha hac hka, ← Nat.not_lt, strung_lt_iff (by simp [hnumbers, hnumbers'])
        hltb (numbers_lt_of_below hka)]
      simp [NotAfter, hac, hbc]

end ReleaseSchema.Version
