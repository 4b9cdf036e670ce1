/-
What the readers of a text make of a text in pieces. A run of characters ends
where the next piece does not continue it (`run?_append`); a search passes a
piece in which the reader answers nowhere (`findFrom_append`); and a reader
that answers before the end of a piece answers the same when another piece
follows (`Agree`): one that ends with a blank (`EndsBlank`), or one with a
character that the reader does not pass (`Awaits`).
-/
import ReleaseSchema.Proofs.Text.Stops
import ReleaseSchema.Text.Cursor

namespace ReleaseSchema.Text

namespace Cursor

/-! ## Runs -/

section Runs

variable {p : Char → Bool} {passed run rest : List Char}

theorem skipWhile_of_stops (stop : Stops p rest) : skipWhile p ⟨passed, rest⟩ = ⟨passed, rest⟩ := by
  simp only [skipWhile, stop.takeWhile, stop.dropWhile, List.reverse_nil, List.nil_append]

theorem run?_append (nonempty : run ≠ []) (h : ∀ c ∈ run, p c = true) (stop : Stops p rest) :
    run? p ⟨passed, run ++ rest⟩ = some (run, ⟨run.reverse ++ passed, rest⟩) := by
  simp [run?, skipWhile, takeWhile_run h stop, dropWhile_run h stop, nonempty]

theorem exists_of_run? {c d : Cursor} (h : c.run? p = some (run, d)) :
    run ≠ [] ∧ (∀ x ∈ run, p x = true) ∧
      ∃ rest, c.rest = run ++ rest ∧ d = ⟨run.reverse ++ c.passed, rest⟩ := by
  rw [run?] at h
  split at h
  · cases h
  next hne =>
    cases h
    refine ⟨fun hnil => hne (List.isEmpty_iff.2 hnil), fun x hx => List.mem_takeWhile_imp hx, _,
      List.takeWhile_append_dropWhile.symm, rfl⟩

theorem exists_of_char? {x : Char} {c d : Cursor} (h : c.char? x = some d) :
    ∃ rest, c.rest = x :: rest ∧ d = ⟨x :: c.passed, rest⟩ := by
  rw [char?] at h
  split at h
  · cases h
  next y rest hrest =>
    split at h
    next hy =>
      cases h
      exact ⟨rest, hy ▸ hrest, hy ▸ rfl⟩
    next => cases h

end Runs

/-! ## What is left -/

section Left

variable {p : Char → Bool} {x : Char} {c d : Cursor}

theorem suffix_of_run? {run : List Char} (h : c.run? p = some (run, d)) : d.rest <:+ c.rest := by
  obtain ⟨-, -, rest, hrest, rfl⟩ := exists_of_run? h
  exact ⟨run, hrest.symm⟩

theorem suffix_of_blanks? (h : c.blanks? = some d) : d.rest <:+ c.rest := by
  obtain ⟨⟨run, d⟩, hrun, rfl⟩ := Option.map_eq_some_iff.1 h
  exact suffix_of_run? hrun

theorem suffix_of_char? (h : c.char? x = some d) : d.rest <:+ c.rest := by
  obtain ⟨rest, hrest, rfl⟩ := exists_of_char? h
  exact ⟨[x], hrest.symm⟩

theorem suffix_of_boundary? (h : c.boundary? = some d) : d.rest <:+ c.rest := by
  unfold boundary? at h
  split at h <;> cases h
  exact List.suffix_refl _

theorem suffix_skipWhile (p : Char → Bool) (c : Cursor) : (c.skipWhile p).rest <:+ c.rest :=
  List.dropWhile_suffix p

theorem suffix_getD {r : Option Cursor} (h : ∀ d, r = some d → d.rest <:+ c.rest) :
    (r.getD c).rest <:+ c.rest := by
  cases r with
  | none => exact List.suffix_refl _
  | some d => exact h d rfl

theorem suffix_skipChar (x : Char) (c : Cursor) : (c.skipChar x).rest <:+ c.rest :=
  suffix_getD fun _ => suffix_of_char?

theorem suffix_of_letters? {letters : List Char} (h : c.letters? letters = some d) :
    d.rest <:+ c.rest := by
  induction letters generalizing c with
  | nil =>
    cases h
    exact List.suffix_refl _
  | cons l letters ih =>
    obtain ⟨passed, rest⟩ := c
    cases rest with
    | nil => cases h
    | cons x rest =>
      rw [letters?] at h
      split at h
      · exact (ih h).trans (List.suffix_cons x rest)
      · cases h

theorem suffix_of_phrase? {words : List String} (h : c.phrase? words = some d) :
    d.rest <:+ c.rest := by
  induction words generalizing c with
  | nil =>
    cases h
    exact List.suffix_refl _
  | cons word words ih =>
    cases words with
    | nil => exact suffix_of_letters? h
    | cons next words =>
      obtain ⟨spelled, hspelled, h⟩ := Option.bind_eq_some_iff.1 h
      obtain ⟨blanks, hblanks, h⟩ := Option.bind_eq_some_iff.1 h
      exact (ih h).trans ((suffix_of_blanks? hblanks).trans (suffix_of_letters? hspelled))

end Left

/-! ## Searches -/

section Search

variable {reader : Cursor → Option α} {passed before rest : List Char}

theorem findFrom_of_some {a : α} (h : reader ⟨passed, rest⟩ = some a) :
    findFrom reader passed rest = some (⟨passed, rest⟩, a) := by
  cases rest with
  | nil => simp [findFrom, h]
  | cons x rest => simp [findFrom, h]

theorem findFrom_append
    (h : ∀ a b, before = a ++ b → b ≠ [] → reader ⟨a.reverse ++ passed, b ++ rest⟩ = none) :
    findFrom reader passed (before ++ rest) = findFrom reader (before.reverse ++ passed) rest := by
  induction before generalizing passed with
  | nil => rfl
  | cons x before ih =>
    have here : reader ⟨passed, x :: (before ++ rest)⟩ = none :=
      h [] (x :: before) rfl (List.cons_ne_nil _ _)
    simp only [List.cons_append, findFrom, here]
    rw [ih]
    · simp
    · intro a b hsplit hb
      have := h (x :: a) b (by rw [hsplit, List.cons_append]) hb
      simpa using this

/-- Where the reader answers nowhere, a search finds nothing. -/
theorem findFrom_eq_none (h : ∀ a b, before = a ++ b → reader ⟨a.reverse ++ passed, b⟩ = none) :
    findFrom reader passed before = none := by
  have atEnd : reader ⟨before.reverse ++ passed, []⟩ = none := h before [] (by simp)
  have all := @findFrom_append _ reader passed before [] fun a b hsplit _ => by
    rw [List.append_nil]
    exact h a b hsplit
  rw [List.append_nil] at all
  rw [all, findFrom, atEnd]
  rfl

/-- Where a search finds nothing, the reader answers nowhere. -/
theorem reader_eq_none_of_findFrom (h : findFrom reader passed (before ++ rest) = none) :
    reader ⟨before.reverse ++ passed, rest⟩ = none := by
  induction before generalizing passed with
  | nil =>
    cases hr : reader ⟨passed, rest⟩ with
    | none => simpa using hr
    | some a =>
      rw [List.nil_append, findFrom_of_some hr] at h
      cases h
  | cons x before ih =>
    simp only [List.cons_append, findFrom] at h
    split at h
    · cases h
    · have := ih h
      simpa using this

/-- A search that ends has passed the places before its own, where the reader answers nowhere. -/
theorem exists_of_findFrom {text : List Char} {place : Cursor} {a : α}
    (h : findFrom reader passed text = some (place, a)) :
    ∃ before after, text = before ++ after ∧ place = ⟨before.reverse ++ passed, after⟩ ∧
      reader place = some a ∧
      ∀ x y, before = x ++ y → y ≠ [] → reader ⟨x.reverse ++ passed, y ++ after⟩ = none := by
  induction text generalizing passed with
  | nil =>
    obtain ⟨_, hread, hpair⟩ := Option.map_eq_some_iff.1 h
    cases hpair
    refine ⟨[], [], rfl, rfl, hread, fun x y hsplit hy => ?_⟩
    exact absurd (List.append_eq_nil_iff.1 hsplit.symm).2 hy
  | cons c text ih =>
    rw [findFrom] at h
    split at h
    next hread =>
      cases h
      refine ⟨[], c :: text, rfl, rfl, hread, fun x y hsplit hy => ?_⟩
      exact absurd (List.append_eq_nil_iff.1 hsplit.symm).2 hy
    next hnone =>
      obtain ⟨before, after, rfl, rfl, hread, hbefore⟩ := ih h
      refine ⟨c :: before, after, rfl, by simp, hread, fun x y hsplit hy => ?_⟩
      cases x with
      | nil =>
        rw [List.nil_append] at hsplit
        subst hsplit
        exact hnone
      | cons d x =>
        obtain ⟨rfl, hrest⟩ := List.cons.inj hsplit
        have := hbefore x y hrest hy
        simpa using this

/-- Where a reader looks at no more than the text up to a blank and at no more than the text behind
one, a search finds what it finds in front of the blank, and else what it finds behind it. -/
theorem answer_append {reader : Cursor → Option α} (b : List Char)
    (front : ∀ passed text, reader ⟨passed, text ++ ' ' :: b⟩ = reader ⟨passed, text⟩)
    (behind : ∀ text passed rest, reader ⟨text ++ ' ' :: passed, rest⟩ = reader ⟨text, rest⟩)
    (a : List Char) :
    (search? reader (a ++ ' ' :: b)).map (·.2) =
      ((search? reader a).map (·.2)).or ((search? reader b).map (·.2)) := by
  have later : ∀ (rest text passed : List Char),
      (findFrom reader (text ++ ' ' :: passed) rest).map (·.2) =
        (findFrom reader text rest).map (·.2) := by
    intro rest
    induction rest with
    | nil =>
      intro text passed
      rw [findFrom, findFrom, behind]
      cases reader ⟨text, []⟩ <;> rfl
    | cons x rest ih =>
      intro text passed
      rw [findFrom, findFrom, behind]
      cases reader ⟨text, x :: rest⟩ with
      | none => exact ih (x :: text) passed
      | some answer => rfl
  suffices ∀ passed, (findFrom reader passed (a ++ ' ' :: b)).map (·.2) =
      ((findFrom reader passed a).map (·.2)).or ((search? reader b).map (·.2)) from this []
  induction a with
  | nil =>
    intro passed
    have here := front passed []
    rw [List.nil_append] at here
    rw [List.nil_append, findFrom, findFrom, here]
    cases reader ⟨passed, []⟩ with
    | none => exact later b [] passed
    | some answer => rfl
  | cons x a ih =>
    intro passed
    have here := front passed (x :: a)
    rw [List.cons_append] at here
    rw [List.cons_append, findFrom, findFrom, here]
    cases reader ⟨passed, x :: a⟩ with
    | none => exact ih (x :: passed)
    | some answer => rfl

end Search

/-! ## A text that goes on -/

/-- The same place when more text follows. -/
def extend (c : Cursor) (more : List Char) : Cursor := ⟨c.passed, c.rest ++ more⟩

/-- What is still to read ends with a blank. -/
def EndsBlank (c : Cursor) : Prop := ∃ text blank, c.rest = text ++ [blank] ∧ isBlank blank = true

/-- Two answers go together: the second is none if the first is, and else what `ext` makes of the
first, of which `P` holds. -/
def Tracks (ext : α → β) (P : α → Prop) (r : Option α) (r' : Option β) : Prop :=
  r' = r.map ext ∧ ∀ a ∈ r, P a

/-- A reader's answer `r` and its answer `r'` when more text follows: the same, at a place of
which `P` holds. -/
def Agree (more : List Char) (P : Cursor → Prop) (r r' : Option Cursor) : Prop :=
  r' = r.map (·.extend more) ∧ ∀ d ∈ r, P d

section Tracks

variable {ext : α → β} {ext' : γ → δ} {P : α → Prop} {Q : γ → Prop}

theorem Tracks.none : Tracks ext P none none := ⟨rfl, by simp⟩

theorem Tracks.some (ext : α → β) {a : α} (h : P a) : Tracks ext P (some a) (some (ext a)) :=
  ⟨rfl, by simpa using h⟩

theorem Tracks.bind {r : Option α} {r' : Option β} {f : α → Option γ} {f' : β → Option δ}
    (h : Tracks ext P r r') (hf : ∀ a, P a → Tracks ext' Q (f a) (f' (ext a))) :
    Tracks ext' Q (r.bind f) (r'.bind f') := by
  obtain ⟨rfl, hP⟩ := h
  cases r with
  | none => exact .none
  | some a => exact hf a (hP a rfl)

/-- The first of two readers to answer. -/
theorem Tracks.orElse {r s : Option α} {r' s' : Option β} (h : Tracks ext P r r')
    (hs : Tracks ext P s s') : Tracks ext P (r.orElse fun _ => s) (r'.orElse fun _ => s') := by
  obtain ⟨rfl, hP⟩ := h
  cases r with
  | none => exact hs
  | some a => exact .some ext (hP a rfl)

end Tracks

section Extend

variable {more : List Char} {P Q : Cursor → Prop} {c : Cursor}

theorem Agree.none : Agree more P none none := Tracks.none

theorem Agree.some (h : P c) : Agree more P (some c) (some (c.extend more)) :=
  ⟨rfl, by simpa using h⟩

theorem Agree.bind {r r' : Option Cursor} {f : Cursor → Option Cursor} (h : Agree more P r r')
    (hf : ∀ d, P d → Agree more Q (f d) (f (d.extend more))) :
    Agree more Q (r.bind f) (r'.bind f) :=
  Tracks.bind h hf

theorem Agree.getD {r r' : Option Cursor} (h : Agree more P r r') (hc : P c) :
    P (r.getD c) ∧ r'.getD (c.extend more) = (r.getD c).extend more := by
  obtain ⟨rfl, hP⟩ := h
  cases r with
  | none => exact ⟨hc, rfl⟩
  | some d => exact ⟨hP d rfl, rfl⟩

/-- The first of several readers to answer. -/
theorem Agree.findSome? {readers : List β} {read : β → Cursor → Option Cursor}
    (h : ∀ b ∈ readers, Agree more P (read b c) (read b (c.extend more))) :
    Agree more P (readers.findSome? (read · c)) (readers.findSome? (read · (c.extend more))) := by
  induction readers with
  | nil => exact .none
  | cons b readers ih =>
    have first := h b List.mem_cons_self
    have others := ih fun b' hb' => h b' (List.mem_cons_of_mem _ hb')
    simp only [List.findSome?_cons]
    obtain ⟨he, hP⟩ := first
    rw [he]
    cases hr : read b c with
    | none => simpa [hr] using others
    | some d => exact .some (hP d hr)

theorem EndsBlank.rest_ne_nil (h : c.EndsBlank) : c.rest ≠ [] := by
  obtain ⟨text, blank, hrest, -⟩ := h
  simp [hrest]

theorem atBoundary_extend (h : c.rest ≠ []) : (c.extend more).atBoundary = c.atBoundary := by
  obtain ⟨passed, rest⟩ := c
  cases rest with
  | nil => exact absurd rfl h
  | cons x rest => rfl

theorem boundary?_agree_of (hne : c.rest ≠ []) (h : P c) :
    Agree more P c.boundary? (c.extend more).boundary? := by
  simp only [boundary?, atBoundary_extend hne]
  split
  · exact .some h
  · exact .none

theorem boundary?_agree (h : c.EndsBlank) :
    Agree more EndsBlank c.boundary? (c.extend more).boundary? :=
  boundary?_agree_of h.rest_ne_nil h

/-- No blank is a letter in another case. -/
theorem foldCase_of_isBlank {x : Char} (h : isBlank x = true) : foldCase x = x :=
  of_isBlank h (P := fun c => foldCase c = c) (by decide +kernel)

/-- Letters are read before the last blank, so what follows it does not matter. -/
theorem letters?_agree {letters : List Char} (nonblank : letters.all (!isBlank ·) = true)
    (h : c.EndsBlank) :
    Agree more EndsBlank (c.letters? letters) ((c.extend more).letters? letters) := by
  induction letters generalizing c with
  | nil => exact .some h
  | cons l letters ih =>
    obtain ⟨passed, rest⟩ := c
    obtain ⟨text, blank, hrest, hblank⟩ := h
    simp only at hrest
    subst hrest
    rw [List.all_cons, Bool.and_eq_true, Bool.not_eq_true'] at nonblank
    obtain ⟨hl, nonblank⟩ := nonblank
    cases text with
    | nil =>
      have hne : foldCase blank ≠ l := by
        intro he
        rw [foldCase_of_isBlank hblank] at he
        rw [← he, hblank] at hl
        cases hl
      simp only [extend, List.nil_append, List.cons_append, letters?, if_neg hne]
      exact .none
    | cons x text =>
      simp only [extend, List.cons_append, letters?]
      split
      · exact ih nonblank ⟨text, blank, rfl, hblank⟩
      · exact .none

/-- The blanks before a text that begins with no blank are the same when it follows. -/
theorem blanks?_agree (h : c.EndsBlank) (stop : Stops isBlank more) :
    Agree more (fun d => d.rest = [] ∨ d.EndsBlank) c.blanks? (c.extend more).blanks? := by
  obtain ⟨passed, rest⟩ := c
  simp only [blanks?, run?, skipWhile, extend, takeWhile_append_of_stops stop,
    dropWhile_append_of_stops stop]
  split
  · exact .none
  · refine .some ?_
    obtain ⟨text, blank, hrest, hblank⟩ := h
    simp only at hrest
    subst hrest
    simp only [EndsBlank, List.dropWhile_append]
    split
    · left
      simp [hblank]
    · right
      exact ⟨_, blank, rfl, hblank⟩

end Extend

/-! ## Readers that stop before a character -/

/-- The character is still to be read. -/
def Awaits (x : Char) (c : Cursor) : Prop := x ∈ c.rest

section Awaits

variable {x y : Char} {c : Cursor} {p : Char → Bool} (more : List Char)

theorem Awaits.rest_ne_nil (h : c.Awaits x) : c.rest ≠ [] := List.ne_nil_of_mem h

theorem boundary?_awaits (h : c.Awaits x) :
    Agree more (Awaits x) c.boundary? (c.extend more).boundary? :=
  boundary?_agree_of h.rest_ne_nil h

/-- Letters are read before a character that is none of them, so what follows it does not matter. -/
theorem letters?_awaits {letters : List Char} (hx : foldCase x ∉ letters) (h : c.Awaits x) :
    Agree more (Awaits x) (c.letters? letters) ((c.extend more).letters? letters) := by
  induction letters generalizing c with
  | nil => exact .some h
  | cons l letters ih =>
    obtain ⟨passed, rest⟩ := c
    cases rest with
    | nil => exact absurd h List.not_mem_nil
    | cons z rest =>
      simp only [extend, List.cons_append, letters?]
      split
      next hz =>
        have hne : x ≠ z := by
          rintro rfl
          exact hx (hz ▸ List.mem_cons_self)
        refine ih (fun hmem => hx (List.mem_cons_of_mem _ hmem)) ?_
        exact (List.mem_cons.1 h).resolve_left hne
      next => exact .none

/-- A run ends before a character that does not continue it. -/
theorem skipWhile_awaits (hx : p x = false) (h : c.Awaits x) :
    (c.extend more).skipWhile p = (c.skipWhile p).extend more ∧ (c.skipWhile p).Awaits x := by
  obtain ⟨passed, rest⟩ := c
  have run : ∀ y ∈ rest.takeWhile p, p y = true := fun y hy => List.mem_takeWhile_imp hy
  have whole : rest.takeWhile p ++ rest.dropWhile p = rest := List.takeWhile_append_dropWhile
  have awaits : x ∈ rest.dropWhile p := by
    have hmem : x ∈ rest := h
    rw [← whole, List.mem_append] at hmem
    refine hmem.resolve_left fun hrun => ?_
    rw [run x hrun] at hx
    cases hx
  have stop : Stops p (rest.dropWhile p ++ more) :=
    (stops_dropWhile p rest).append (List.ne_nil_of_mem awaits) more
  have split : rest ++ more = rest.takeWhile p ++ (rest.dropWhile p ++ more) := by
    rw [← List.append_assoc, whole]
  refine ⟨?_, awaits⟩
  simp only [extend, skipWhile, split, takeWhile_run run stop, dropWhile_run run stop]

/-- The same value, at the same place when more text follows. -/
def extendSnd (more : List Char) (r : α × Cursor) : α × Cursor := (r.1, r.2.extend more)

theorem run?_awaits (hx : p x = false) (h : c.Awaits x) :
    Tracks (extendSnd more) (Awaits x ·.2) (c.run? p) ((c.extend more).run? p) := by
  obtain ⟨skip, awaits⟩ := skipWhile_awaits more hx h
  have same : (c.extend more).rest.takeWhile p = c.rest.takeWhile p := by
    have passed := congrArg passed skip
    simpa [skipWhile, extend] using passed
  simp only [run?, same, skip]
  split
  · exact .none
  · exact .some _ awaits

theorem char?_extend (hne : c.rest ≠ []) :
    (c.extend more).char? y = (c.char? y).map (·.extend more) := by
  obtain ⟨passed, rest⟩ := c
  cases rest with
  | nil => exact absurd rfl hne
  | cons z rest =>
    simp only [extend, List.cons_append, char?]
    split <;> rfl

theorem char?_awaits (hy : y ≠ x) (h : c.Awaits x) :
    Agree more (Awaits x) (c.char? y) ((c.extend more).char? y) := by
  refine ⟨char?_extend more h.rest_ne_nil, fun d hd => ?_⟩
  obtain ⟨rest, hrest, rfl⟩ := exists_of_char? hd
  have hmem : x ∈ y :: rest := hrest ▸ h
  exact (List.mem_cons.1 hmem).resolve_left hy.symm

theorem blanks?_awaits (hx : isBlank x = false) (h : c.Awaits x) :
    Agree more (Awaits x) c.blanks? (c.extend more).blanks? := by
  have run := run?_awaits more hx h
  simp only [blanks?, Option.map_eq_bind]
  exact run.bind fun a ha => Tracks.some (·.extend more) ha

theorem skipChar_awaits (hy : y ≠ x) (h : c.Awaits x) :
    (c.skipChar y).Awaits x ∧ (c.extend more).skipChar y = (c.skipChar y).extend more :=
  (char?_awaits more hy h).getD h

theorem phrase?_awaits {words : List String} (hblank : isBlank x = false)
    (hx : ∀ word ∈ words, foldCase x ∉ word.toList) (h : c.Awaits x) :
    Agree more (Awaits x) (c.phrase? words) ((c.extend more).phrase? words) := by
  induction words generalizing c with
  | nil => exact .some h
  | cons word words ih =>
    have spelled := letters?_awaits more (hx word List.mem_cons_self) h
    cases words with
    | nil => exact spelled
    | cons next words =>
      refine spelled.bind fun d hd => (blanks?_awaits more hblank hd).bind fun e he => ?_
      exact ih (fun word hword => hx word (List.mem_cons_of_mem _ hword)) he

end Awaits

end Cursor

end ReleaseSchema.Text
