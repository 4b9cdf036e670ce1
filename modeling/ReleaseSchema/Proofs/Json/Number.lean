/-
Number literals: the grammar that the reader of numbers keeps to (`IsNumber`).
What it reads is such a literal (`isNumber_of_number?`), and such a literal is
read whole where it is written, unless what follows continues it
(`number?_append`).
-/
import ReleaseSchema.Json.Reader
import ReleaseSchema.Proofs.Text.Stops

namespace ReleaseSchema.Json

open Text (Stops stops_cons takeWhile_run)

/-! ## Grammar -/

def IsDigits (ds : List Char) : Prop := ds ≠ [] ∧ ∀ c ∈ ds, c.isDigit = true

/-- Digits with no needless zero in front. -/
def IsWhole (ds : List Char) : Prop := IsDigits ds ∧ ¬(ds.head? = some '0' ∧ ds.length ≠ 1)

inductive IsFraction : List Char → Prop
  | absent : IsFraction []
  | present {ds : List Char} (h : IsDigits ds) : IsFraction ('.' :: ds)

inductive IsExponent : List Char → Prop
  | absent : IsExponent []
  | present {e : Char} {sign ds : List Char} (he : e = 'e' ∨ e = 'E')
      (hsign : sign = [] ∨ sign = ['+'] ∨ sign = ['-']) (h : IsDigits ds) :
      IsExponent (e :: (sign ++ ds))

inductive IsNumber : List Char → Prop
  | mk {sign whole part power : List Char} (hsign : sign = [] ∨ sign = ['-'])
      (hwhole : IsWhole whole) (hpart : IsFraction part) (hpower : IsExponent power) :
      IsNumber (sign ++ whole ++ part ++ power)

/-- A character that would continue a number. -/
def isNumberChar (c : Char) : Bool := c.isDigit || c == '.' || c == 'e' || c == 'E'

/-! ## What is read is a literal -/

section Sound

variable {text l rest : List Char}

theorem isDigits_of_digits? (h : digits? text = some (l, rest)) : IsDigits l := by
  unfold digits? at h
  split at h
  · cases h
  next hne =>
    simp only [Option.some.injEq, Prod.mk.injEq] at h
    obtain ⟨rfl, -⟩ := h
    refine ⟨by simpa using hne, fun c hc => ?_⟩
    exact List.mem_takeWhile_imp hc

theorem isWhole_of_integer? (h : integer? text = some (l, rest)) : IsWhole l := by
  simp only [integer?, Option.bind_eq_bind, Option.bind_eq_some_iff] at h
  obtain ⟨⟨ds, after⟩, hds, h⟩ := h
  simp only at h
  split at h
  · cases h
  next hzero =>
    cases h
    exact ⟨isDigits_of_digits? hds, hzero⟩

theorem isFraction_of_fraction? (h : fraction? text = some (l, rest)) : IsFraction l := by
  unfold fraction? at h
  split at h
  · obtain ⟨⟨ds, after⟩, hds, h⟩ := Option.map_eq_some_iff.1 h
    cases h
    exact .present (isDigits_of_digits? hds)
  · cases h
    exact .absent

theorem isExponent_of_exponent? (h : exponent? text = some (l, rest)) : IsExponent l := by
  unfold exponent? at h
  split at h
  · cases h
    exact .absent
  next e after =>
    split at h
    next he =>
      split at h
      · obtain ⟨⟨ds, _⟩, hds, h⟩ := Option.map_eq_some_iff.1 h
        cases h
        exact @IsExponent.present _ ['+'] _ he (by simp) (isDigits_of_digits? hds)
      · obtain ⟨⟨ds, _⟩, hds, h⟩ := Option.map_eq_some_iff.1 h
        cases h
        exact @IsExponent.present _ ['-'] _ he (by simp) (isDigits_of_digits? hds)
      · obtain ⟨⟨ds, _⟩, hds, h⟩ := Option.map_eq_some_iff.1 h
        cases h
        exact @IsExponent.present _ [] _ he (by simp) (isDigits_of_digits? hds)
    next =>
      cases h
      exact .absent

theorem isNumber_of_number? (h : number? text = some (l, rest)) : IsNumber l := by
  simp only [number?, Option.bind_eq_bind, Option.bind_eq_some_iff, Option.pure_def,
    Option.some.injEq, Prod.mk.injEq] at h
  obtain ⟨⟨whole, afterWhole⟩, hwhole, ⟨part, afterPart⟩, hpart, ⟨power, afterPower⟩, hpower,
    rfl, -⟩ := h
  refine .mk ?_ (isWhole_of_integer? hwhole) (isFraction_of_fraction? hpart)
    (isExponent_of_exponent? hpower)
  split <;> simp

end Sound

/-! ## A literal is read whole -/

section Complete

variable {l rest : List Char}

theorem IsDigits.exists_cons (h : IsDigits l) :
    ∃ d ds, l = d :: ds ∧ d ≠ '+' ∧ d ≠ '-' := by
  cases l with
  | nil => exact absurd rfl h.1
  | cons d ds =>
    have hd : d.isDigit = true := h.2 d List.mem_cons_self
    refine ⟨d, ds, rfl, ?_, ?_⟩
    · rintro rfl
      revert hd
      decide
    · rintro rfl
      revert hd
      decide

theorem digits?_append (h : IsDigits l) (stop : Stops Char.isDigit rest) :
    digits? (l ++ rest) = some (l, rest) := by
  simp [digits?, digits, takeWhile_run h.2 stop, h.1]

theorem integer?_append (h : IsWhole l) (stop : Stops Char.isDigit rest) :
    integer? (l ++ rest) = some (l, rest) := by
  simp only [integer?, digits?_append h.1 stop, Option.bind_eq_bind, Option.bind_some]
  rw [if_neg h.2]

theorem fraction?_append (h : IsFraction l) (stop : Stops (fun c => c.isDigit || c == '.') rest) :
    fraction? (l ++ rest) = some (l, rest) := by
  cases h with
  | absent =>
    rw [List.nil_append]
    unfold fraction?
    split
    next after =>
      have := stops_cons.1 stop
      simp at this
    · rfl
  | present h =>
    have noDigit : Stops Char.isDigit rest := stop.imp fun c hc => by simp [hc]
    rw [List.cons_append, fraction?, digits?_append h noDigit]
    rfl

theorem exponent?_append (h : IsExponent l)
    (stop : Stops (fun c => c.isDigit || c == 'e' || c == 'E') rest) :
    exponent? (l ++ rest) = some (l, rest) := by
  cases h with
  | absent =>
    cases rest with
    | nil => rfl
    | cons c rest =>
      have hc := stops_cons.1 stop
      simp only [Bool.or_eq_false_iff, beq_eq_false_iff_ne] at hc
      have hne : ¬(c = 'e' ∨ c = 'E') := by simp [hc.1.2, hc.2]
      simp only [List.nil_append, exponent?, if_neg hne]
  | present he hsign h =>
    have noDigit : Stops Char.isDigit rest := stop.imp fun c hc => by simp [hc]
    have read := digits?_append h noDigit
    rcases hsign with rfl | rfl | rfl
    · obtain ⟨d, ds, rfl, hplus, hminus⟩ := h.exists_cons
      simp only [List.cons_append] at read
      simp only [List.nil_append, List.cons_append]
      unfold exponent?
      simp only [if_pos he]
      split
      next heq => exact absurd (List.cons.inj heq).1 hplus
      next heq => exact absurd (List.cons.inj heq).1 hminus
      next =>
        rw [read]
        rfl
    · simp only [List.cons_append, List.nil_append]
      unfold exponent?
      simp only [if_pos he, read, Option.map_some]
    · simp only [List.cons_append, List.nil_append]
      unfold exponent?
      simp only [if_pos he, read, Option.map_some]

theorem IsExponent.stops (h : IsExponent l) (stop : Stops isNumberChar rest) :
    Stops (fun c => c.isDigit || c == '.') (l ++ rest) := by
  cases h with
  | absent => exact stop.imp fun c hc => by simp_all [isNumberChar]
  | present he _ _ => rcases he with rfl | rfl <;> exact stops_cons.2 (by decide)

theorem IsFraction.stops (h : IsFraction l)
    (stop : Stops (fun c => c.isDigit || c == '.') rest) : Stops Char.isDigit (l ++ rest) := by
  cases h with
  | absent => exact stop.imp fun c hc => by simp [hc]
  | present _ => exact stops_cons.2 (by decide)

theorem number?_append (h : IsNumber l) (stop : Stops isNumberChar rest) :
    number? (l ++ rest) = some (l, rest) := by
  obtain ⟨hsign, hwhole, hpart, hpower⟩ := h
  rename_i sign whole part power
  have beforePower := hpower.stops stop
  have beforePart := hpart.stops beforePower
  have noExponent : Stops (fun c => c.isDigit || c == 'e' || c == 'E') rest :=
    stop.imp fun c hc => by
      simp only [isNumberChar, Bool.or_eq_true] at hc ⊢
      rcases hc with (hc | hc) | hc
      · exact .inl (.inl (.inl hc))
      · exact .inl (.inr hc)
      · exact .inr hc
  have assoc : sign ++ whole ++ part ++ power ++ rest =
      sign ++ (whole ++ (part ++ (power ++ rest))) := by simp
  rw [assoc]
  unfold number?
  rcases hsign with rfl | rfl
  · obtain ⟨d, ds, rfl, -, hminus⟩ := hwhole.1.exists_cons
    have unsigned : ∀ after, d :: (ds ++ (part ++ (power ++ rest))) ≠ '-' :: after :=
      fun after heq => hminus (List.cons.inj heq).1
    have whole := integer?_append hwhole beforePart
    rw [List.cons_append] at whole
    simp only [List.nil_append, List.cons_append, whole, fraction?_append hpart beforePower,
      exponent?_append hpower noExponent, Option.bind_eq_bind, Option.bind_some, Option.pure_def]
  · simp only [List.cons_append, List.nil_append, integer?_append hwhole beforePart,
      fraction?_append hpart beforePower, exponent?_append hpower noExponent,
      Option.bind_eq_bind, Option.bind_some, Option.pure_def]

end Complete

end ReleaseSchema.Json
