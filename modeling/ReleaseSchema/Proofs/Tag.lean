/-
The tags of texts put together. Behind a blank, a comma or half a comment mark the
search for tags begins anew, unless a value that a bracket or a quote has begun is
still waiting for its end; where none is (`Tag.StaysWithin`), the tags of the whole
are those of the parts (`Tag.spellings_append`, `Tag.scan_flatten`).
-/
import Mathlib.Data.List.Infix
import ReleaseSchema.Proofs.Text.Stops
import ReleaseSchema.Tag

namespace ReleaseSchema.Tag

open Text

/-- What ends a value that begins with the character, if it may hold blanks. -/
def closing? : Char → Option Char
  | '[' => some ']'
  | '\'' => some '\''
  | '"' => some '"'
  | _ => none

/-- A value behind the name at the beginning of a text is ended in that text, or not by another. -/
def endsValue (rest other : List Char) : Bool :=
  match name? rest with
  | some (_, '=' :: first :: inside) =>
    (closing? first).all fun last => inside.contains last || !other.contains last
  | _ => true

/-- No tag of the text takes its value from another one behind it. -/
def StaysWithin (text other : List Char) : Prop :=
  ∀ rest, '#' :: rest <:+ text → endsValue rest other = true

instance (text other : List Char) : Decidable (StaysWithin text other) :=
  decidable_of_iff (∀ tail ∈ text.tails, tail.head? = some '#' → endsValue tail.tail other = true) <| by
    simp only [List.mem_tails]
    constructor
    · exact fun h rest hrest => h ('#' :: rest) hrest rfl
    · rintro h tail htail hhead
      obtain ⟨rest, rfl⟩ := List.head?_eq_some_iff.1 hhead
      exact h rest htail

/-! ## What is left behind a tag -/

section Suffix

variable {text spelling after : List Char}

theorem suffix_of_name? (h : name? text = some (spelling, after)) : after <:+ text := by
  unfold name? at h
  split at h
  · cases h
  · split at h <;> cases h
    exact (List.dropWhile_suffix _).trans (List.suffix_cons _ _)

theorem suffix_of_delimited? {close : Char} (h : delimited? close text = some (spelling, after)) :
    after <:+ text := by
  unfold delimited? at h
  split at h
  · cases h
  next c rest =>
    split at h <;> cases h
    next last hdrop =>
      have left : last :: after <:+ rest := hdrop ▸ List.dropWhile_suffix _
      exact ((List.suffix_cons last after).trans left).trans (List.suffix_cons c rest)

theorem suffix_of_value? (h : value? text = some (spelling, after)) : after <:+ text := by
  unfold value? at h
  split at h
  next found hfound =>
    cases h
    unfold enclosed? at hfound
    split at hfound
    · exact suffix_of_delimited? hfound
    · exact suffix_of_delimited? hfound
    · exact suffix_of_delimited? hfound
    · cases hfound
  next =>
    split at h <;> cases h
    exact List.dropWhile_suffix _

theorem suffix_of_spelled? (h : spelled? text = some (spelling, after)) : after <:+ text := by
  unfold spelled? at h
  split at h
  · cases h
  next name rest hname =>
    have left : rest <:+ text := (List.suffix_cons '=' rest).trans (suffix_of_name? hname)
    split at h <;> cases h
    next hvalue => exact (suffix_of_value? hvalue).trans left
    · exact suffix_of_name? hname
  next hname =>
    cases h
    exact suffix_of_name? hname

end Suffix

/-! ## Characters between tags -/

/-- A character that begins no tag or value, goes on with none, and ends none but a bare one. -/
structure StandsApart (x : Char) : Prop where
  bare : isBareChar x = false
  name : isNameChar x = false
  letter : isAsciiLetter x = false
  opening : closing? x = none
  noMark : x ∉ ['#', '=', ']', '\'', '"']

instance (x : Char) : Decidable (StandsApart x) :=
  decidable_of_iff (isBareChar x = false ∧ isNameChar x = false ∧ isAsciiLetter x = false ∧
      closing? x = none ∧ x ∉ ['#', '=', ']', '\'', '"'])
    ⟨fun ⟨bare, name, letter, opening, noMark⟩ => ⟨bare, name, letter, opening, noMark⟩,
      fun h => ⟨h.bare, h.name, h.letter, h.opening, h.noMark⟩⟩

theorem StandsApart.ne_closing {x first last : Char} (hx : StandsApart x)
    (hlast : closing? first = some last) : last ≠ x := by
  rintro rfl
  have marks := hx.noMark
  unfold closing? at hlast
  split at hlast <;> cases hlast <;> simp at marks

/-! ## Texts put together -/

section Append

variable {text rest inside other : List Char} {x : Char}

theorem StaysWithin.of_suffix (h : StaysWithin text other) (hsuffix : rest <:+ text) :
    StaysWithin rest other :=
  fun more hmore => h more (hmore.trans hsuffix)

theorem staysWithin_of_not_mem (h : '#' ∉ text) (other : List Char) : StaysWithin text other :=
  fun _ hrest => absurd (hrest.subset List.mem_cons_self) h

theorem staysWithin_nil (text : List Char) : StaysWithin text [] := by
  intro rest _
  unfold endsValue
  split
  next first inside _ => cases closing? first <;> simp
  next => rfl

/-- Only the characters that end a value matter of the text behind. -/
theorem StaysWithin.of_closing {more : List Char} (h : StaysWithin text other)
    (fewer : ∀ last ∈ [']', '\'', '"'], last ∈ more → last ∈ other) : StaysWithin text more := by
  intro rest hrest
  have hends := h rest hrest
  unfold endsValue at hends ⊢
  split
  next first inside hname =>
    simp only [hname] at hends
    cases hclosing : closing? first with
    | none => rfl
    | some last =>
      have hlast : last ∈ [']', '\'', '"'] := by
        unfold closing? at hclosing
        split at hclosing <;> cases hclosing <;> decide
      simp only [hclosing, Option.all_some, Bool.or_eq_true, Bool.not_eq_true',
        List.contains_eq_mem, decide_eq_true_eq, decide_eq_false_iff_not] at hends ⊢
      exact hends.imp id fun hnot hmem => hnot (fewer last hlast hmem)
  next => rfl

theorem name?_append (hx : StandsApart x) (rest other : List Char) :
    name? (rest ++ x :: other) =
      (name? rest).map fun (name, after) => (name, after ++ x :: other) := by
  cases rest with
  | nil => simp [name?, hx.letter]
  | cons c rest =>
    have stop : Stops isNameChar (x :: other) := stops_cons.2 hx.name
    simp only [List.cons_append, name?, takeWhile_append_of_stops stop,
      dropWhile_append_of_stops stop]
    split <;> rfl

theorem enclosed?_cons (first : Char) (inside : List Char) :
    enclosed? (first :: inside) =
      (closing? first).bind fun last => delimited? last (first :: inside) := by
  unfold enclosed? closing?
  simp only [List.head?_cons]
  split <;> simp_all

theorem delimited?_append_of_mem {first last : Char} (h : last ∈ inside) (more : List Char) :
    delimited? last (first :: (inside ++ more)) =
      (delimited? last (first :: inside)).map fun (value, after) => (value, after ++ more) := by
  have nonempty : inside.dropWhile (· != last) ≠ [] := by
    rw [Ne, List.dropWhile_eq_nil_iff]
    exact fun hall => absurd (hall last h) (by simp)
  have short : (inside.takeWhile (· != last)).length ≠ inside.length := by
    intro hlength
    rw [← (List.takeWhile_prefix _).eq_of_length_le hlength.ge] at h
    simpa using List.mem_takeWhile_imp h
  obtain ⟨found, after, hdrop⟩ := List.exists_cons_of_ne_nil nonempty
  simp [delimited?, List.dropWhile_append, List.takeWhile_append, hdrop, short]

theorem delimited?_of_not_mem {first last : Char} (h : last ∉ inside) :
    delimited? last (first :: inside) = none := by
  have nothing : inside.dropWhile (· != last) = [] := by
    rw [List.dropWhile_eq_nil_iff]
    intro c hc
    rw [bne_iff_ne]
    rintro rfl
    exact h hc
  simp [delimited?, nothing]

/-- A value that begins with a bracket or a quote takes nothing from the text behind. -/
theorem enclosed?_append (hx : StandsApart x) {first : Char}
    (h : ∀ last ∈ closing? first, last ∈ inside ∨ last ∉ other) :
    enclosed? (first :: (inside ++ x :: other)) =
      (enclosed? (first :: inside)).map fun (value, after) => (value, after ++ x :: other) := by
  rw [enclosed?_cons, enclosed?_cons]
  cases hclosing : closing? first with
  | none => rfl
  | some last =>
    rw [Option.bind_some, Option.bind_some]
    by_cases hinside : last ∈ inside
    · exact delimited?_append_of_mem hinside _
    · have between : last ≠ x := hx.ne_closing hclosing
      have hother : last ∉ other := (h last hclosing).resolve_left hinside
      have absent : last ∉ inside ++ x :: other := by
        rw [List.mem_append, List.mem_cons, not_or, not_or]
        exact ⟨hinside, between, hother⟩
      rw [delimited?_of_not_mem absent, delimited?_of_not_mem hinside]
      rfl

theorem value?_append (hx : StandsApart x) {value : List Char}
    (h : ∀ first inside, value = first :: inside →
      ∀ last ∈ closing? first, last ∈ inside ∨ last ∉ other) :
    value? (value ++ x :: other) =
      (value? value).map fun (value, after) => (value, after ++ x :: other) := by
  have stop : Stops isBareChar (x :: other) := stops_cons.2 hx.bare
  have bare : (if ((value ++ x :: other).takeWhile isBareChar).isEmpty then none
      else some ((value ++ x :: other).takeWhile isBareChar,
        (value ++ x :: other).dropWhile isBareChar)) =
      (if (value.takeWhile isBareChar).isEmpty then none
        else some (value.takeWhile isBareChar, value.dropWhile isBareChar)).map
          fun (value, after) => (value, after ++ x :: other) := by
    rw [takeWhile_append_of_stops stop, dropWhile_append_of_stops stop]
    split <;> rfl
  unfold value?
  cases value with
  | nil =>
    have alone : enclosed? (x :: other) = none := by
      rw [enclosed?_cons, hx.opening]
      rfl
    rw [List.nil_append] at bare ⊢
    rw [alone]
    exact bare
  | cons first inside =>
    rw [List.cons_append, enclosed?_append hx (h first inside rfl)]
    cases enclosed? (first :: inside) with
    | some found => rfl
    | none => exact bare

/-- A tag whose value does not go on into the text behind is spelled the same in front of it. -/
theorem spelled?_append (hx : StandsApart x) (h : endsValue rest other = true) :
    spelled? (rest ++ x :: other) =
      (spelled? rest).map fun (spelling, after) => (spelling, after ++ x :: other) := by
  unfold spelled?
  rw [name?_append hx]
  cases hname : name? rest with
  | none => rfl
  | some found =>
    obtain ⟨name, after⟩ := found
    simp only [Option.map_some]
    cases after with
    | nil =>
      have noEquals : x ≠ '=' := fun he => hx.noMark (by simp [he])
      rw [List.nil_append]
      simp [noEquals]
    | cons c value =>
      by_cases hc : c = '='
      · subst hc
        have ends : ∀ first inside, value = first :: inside →
            ∀ last ∈ closing? first, last ∈ inside ∨ last ∉ other := by
          rintro first inside rfl last hlast
          simpa [endsValue, hname, Option.mem_def.1 hlast] using h
        simp only [List.cons_append, value?_append hx ends]
        cases value? value with
        | none => rfl
        | some found => rfl
      · rw [List.cons_append]
        simp [hc]

theorem spellings_cons_of_ne {c : Char} (h : c ≠ '#') (rest : List Char) :
    spellings (c :: rest) = spellings rest := by
  rw [spellings, if_neg h]

theorem spellings_of_none (h : spelled? rest = none) : spellings ('#' :: rest) = spellings rest := by
  rw [spellings, if_pos rfl]
  split
  next hsome =>
    rw [h] at hsome
    cases hsome
  next => rfl

theorem spellings_of_some {spelling after : List Char} (h : spelled? rest = some (spelling, after)) :
    spellings ('#' :: rest) = ('#' :: spelling) :: spellings after := by
  rw [spellings, if_pos rfl]
  split
  next hsome =>
    rw [h] at hsome
    cases hsome
    rfl
  next hnone =>
    rw [h] at hnone
    cases hnone

theorem spellings_append_of_not_mem (h : '#' ∉ text) (rest : List Char) :
    spellings (text ++ rest) = spellings rest := by
  induction text with
  | nil => rfl
  | cons c text ih =>
    rw [List.mem_cons, not_or] at h
    rw [List.cons_append, spellings_cons_of_ne (Ne.symm h.1), ih h.2]

theorem spellings_append (hx : StandsApart x) (h : StaysWithin text other) :
    spellings (text ++ x :: other) = spellings text ++ spellings other := by
  have behind : x ≠ '#' := fun he => hx.noMark (he ▸ List.mem_cons_self)
  fun_induction spellings text with
  | case1 => exact spellings_cons_of_ne behind other
  | case2 rest spelling after hspelled ih =>
    have left := (suffix_of_spelled? hspelled).trans (List.suffix_cons '#' rest)
    have whole : spelled? (rest ++ x :: other) = some (spelling, after ++ x :: other) := by
      rw [spelled?_append hx (h rest List.suffix_rfl), hspelled]
      rfl
    rw [List.cons_append, spellings_of_some whole, ih (h.of_suffix left), List.cons_append]
  | case3 rest hspelled ih =>
    have whole : spelled? (rest ++ x :: other) = none := by
      rw [spelled?_append hx (h rest List.suffix_rfl), hspelled]
      rfl
    rw [List.cons_append, spellings_of_none whole, ih (h.of_suffix (List.suffix_cons _ _))]
  | case4 c rest hc ih =>
    rw [List.cons_append, spellings_cons_of_ne hc, ih (h.of_suffix (List.suffix_cons c rest))]

/-- A character that stands apart at the end of a text makes no difference to its values. -/
theorem StaysWithin.of_append (hx : StandsApart x) (h : StaysWithin (text ++ [x]) other) :
    StaysWithin text other := by
  intro rest hrest
  obtain ⟨front, hfront⟩ := hrest
  have hends := h (rest ++ [x]) ⟨front, by rw [← hfront, List.append_assoc, List.cons_append]⟩
  unfold endsValue at hends ⊢
  rw [name?_append hx] at hends
  cases hname : name? rest with
  | none => rfl
  | some found =>
    obtain ⟨name, after⟩ := found
    rw [hname] at hends
    split
    next name first inside hfound =>
      cases hfound
      simp only [Option.map_some, List.cons_append, List.contains_append] at hends
      cases hclosing : closing? first with
      | none => rfl
      | some last =>
        have between := hx.ne_closing hclosing
        simpa [hclosing, between] using hends
    next => rfl

/-- No tag of a text takes its value from the texts behind it. -/
def EachStaysWithin : List (List Char) → Prop
  | [] => True
  | text :: more => StaysWithin text more.flatten ∧ EachStaysWithin more

instance decidableEachStaysWithin : ∀ texts : List (List Char), Decidable (EachStaysWithin texts)
  | [] => inferInstanceAs (Decidable True)
  | text :: more =>
    have := decidableEachStaysWithin more
    inferInstanceAs (Decidable (StaysWithin text more.flatten ∧ EachStaysWithin more))

/-- The tags of texts put together, when each but the last ends with a character that stands apart. -/
theorem spellings_flatten {texts : List (List Char)} (h : EachStaysWithin texts)
    (ends : ∀ text ∈ texts.dropLast, ∃ front x, text = front ++ [x] ∧ StandsApart x) :
    spellings texts.flatten = texts.flatMap spellings := by
  induction texts with
  | nil => rw [List.flatten_nil, spellings, List.flatMap_nil]
  | cons text more ih =>
    cases more with
    | nil => simp
    | cons next more =>
      obtain ⟨within, others⟩ := h
      obtain ⟨front, x, rfl, hx⟩ := ends text List.mem_cons_self
      have alone : spellings (front ++ [x]) = spellings front := by
        rw [spellings_append hx (staysWithin_nil front), spellings, List.append_nil]
      rw [List.flatten_cons, List.append_assoc, List.singleton_append,
        spellings_append hx (within.of_append hx), List.flatMap_cons, alone,
        ih others fun other hother => ends other (List.mem_cons_of_mem _ hother)]

theorem scan_flatten {texts : List (List Char)} (h : EachStaysWithin texts)
    (ends : ∀ text ∈ texts.dropLast, ∃ front x, text = front ++ [x] ∧ StandsApart x) :
    scan texts.flatten = texts.flatMap scan := by
  rw [scan, spellings_flatten h ends, List.filterMap_flatMap]
  rfl

end Append

end ReleaseSchema.Tag
