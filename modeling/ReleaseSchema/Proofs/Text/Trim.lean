/-
Trimmed texts: neither end is a blank (`stops_trim`, `stops_reverse_trim`), and
trimming such a text changes nothing (`trim_eq_self`). A text whose blanks are
collapsed and that is trimmed then is the text that one pass writes
(`trim_collapseBlanks`). What stands between two marks is unique
(`between?_eq_some_iff`).
-/
import ReleaseSchema.Proofs.Text.Stops
import ReleaseSchema.Text.Trim

namespace ReleaseSchema.Text

variable {text : List Char}

theorem trim_eq_self (start : Stops isBlank text) (finish : Stops isBlank text.reverse) :
    trim text = text := by
  rw [trim, trimStart, start.dropWhile, trimEnd, finish.dropWhile, List.reverse_reverse]

theorem trimEnd_append (text : List Char) :
    trimEnd text ++ (text.reverse.takeWhile isBlank).reverse = text := by
  rw [trimEnd, ← List.reverse_append, List.takeWhile_append_dropWhile, List.reverse_reverse]

theorem stops_trim (text : List Char) : Stops isBlank (trim text) := by
  have start : Stops isBlank (trimStart text) := stops_dropWhile isBlank text
  rw [← trimEnd_append (trimStart text)] at start
  exact start.of_append

theorem stops_reverse_trim (text : List Char) : Stops isBlank (trim text).reverse := by
  rw [trim, trimEnd, List.reverse_reverse]
  exact stops_dropWhile isBlank _

theorem trim_cons_blank {c : Char} (h : isBlank c = true) (text : List Char) :
    trim (c :: text) = trim text := by
  rw [trim, trim, trimStart, trimStart, List.dropWhile_cons_of_pos h]

theorem trim_concat_blank {c : Char} (h : isBlank c = true) (text : List Char) :
    trim (text ++ [c]) = trim text := by
  have finish : ∀ text, trimEnd (text ++ [c]) = trimEnd text := by
    intro text
    rw [trimEnd, trimEnd, List.reverse_append]
    exact congrArg List.reverse (List.dropWhile_cons_of_pos h)
  rw [trim, trim, trimStart, trimStart, List.dropWhile_append]
  split
  next hnone =>
    rw [List.isEmpty_iff.1 hnone, List.dropWhile_cons_of_pos h]
    rfl
  next => exact finish _

theorem trim_trim (text : List Char) : trim (trim text) = trim text :=
  trim_eq_self (stops_trim text) (stops_reverse_trim text)

theorem all_isBlank_of_trim (h : trim text = []) : ∀ c ∈ text, isBlank c = true := by
  have start : ∀ c ∈ trimStart text, isBlank c = true := by
    rw [trim, trimEnd, List.reverse_eq_nil_iff, List.dropWhile_eq_nil_iff] at h
    exact fun c hc => h c (List.mem_reverse.2 hc)
  have finish := stops_dropWhile isBlank text
  rw [trimStart] at start
  intro c hc
  rw [← List.takeWhile_append_dropWhile (p := isBlank) (l := text)] at hc
  rcases List.mem_append.1 hc with hc | hc
  · exact List.mem_takeWhile_imp hc
  · exact start c hc

/-- A text is what is left of it with blanks around. -/
theorem exists_trim (text : List Char) :
    ∃ lead trail, text = lead ++ (trim text ++ trail) ∧ (∀ c ∈ lead, isBlank c = true) ∧
      ∀ c ∈ trail, isBlank c = true := by
  refine ⟨text.takeWhile isBlank, ((trimStart text).reverse.takeWhile isBlank).reverse, ?_, ?_, ?_⟩
  · rw [trim, trimEnd_append, trimStart, List.takeWhile_append_dropWhile]
  · exact fun c hc => List.mem_takeWhile_imp hc
  · exact fun c hc => List.mem_takeWhile_imp (List.mem_reverse.1 hc)

theorem infix_trim (text : List Char) : trim text <:+: text := by
  obtain ⟨lead, trail, whole, -, -⟩ := exists_trim text
  exact ⟨lead, trail, by rw [List.append_assoc, ← whole]⟩

theorem trim_eq_of_length_le (h : text.length ≤ (trim text).length) : trim text = text :=
  (infix_trim text).eq_of_length (Nat.le_antisymm (infix_trim text).length_le h)

theorem mem_trim_iff {c : Char} (hc : isBlank c = false) : c ∈ trim text ↔ c ∈ text := by
  obtain ⟨lead, trail, whole, hlead, htrail⟩ := exists_trim text
  have outside : ∀ blanks : List Char, (∀ x ∈ blanks, isBlank x = true) → c ∉ blanks := by
    intro blanks hblanks hmem
    rw [hblanks c hmem] at hc
    cases hc
  constructor
  · intro hmem
    rw [whole]
    exact List.mem_append_right _ (List.mem_append_left _ hmem)
  · intro hmem
    rw [whole, List.mem_append, List.mem_append] at hmem
    exact (hmem.resolve_left (outside lead hlead)).resolve_right (outside trail htrail)

/-- In front of what is no blank, the blanks of a text end before it does. -/
theorem exists_dropWhile_isBlank (finish : Stops isBlank text.reverse) (hne : text ≠ []) :
    ∃ x left, text.dropWhile isBlank = x :: left ∧ text.takeWhile isBlank ++ x :: left = text := by
  obtain ⟨x, left, hleft⟩ : ∃ x left, text.dropWhile isBlank = x :: left := by
    refine List.exists_cons_of_ne_nil fun hall => ?_
    rw [List.dropWhile_eq_nil_iff] at hall
    obtain ⟨y, reversed, hreverse⟩ := List.exists_cons_of_ne_nil (List.reverse_ne_nil_iff.2 hne)
    rw [hreverse, stops_cons] at finish
    rw [hall y (List.mem_reverse.1 (hreverse ▸ List.mem_cons_self))] at finish
    cases finish
  exact ⟨x, left, hleft, by rw [← hleft, List.takeWhile_append_dropWhile]⟩

theorem trim_append_blanks {trail : List Char} (start : Stops isBlank text)
    (finish : Stops isBlank text.reverse) (h : ∀ c ∈ trail, isBlank c = true) :
    trim (text ++ trail) = text := by
  have blanks : ∀ c ∈ trail.reverse, isBlank c = true := fun c hc => h c (List.mem_reverse.1 hc)
  cases text with
  | nil =>
    rw [List.nil_append, trim, trimStart, List.dropWhile_eq_nil_iff.2 h]
    rfl
  | cons c text =>
    have begins : Stops isBlank (c :: text ++ trail) := start.append (List.cons_ne_nil c text) trail
    rw [trim, trimStart, begins.dropWhile, trimEnd, List.reverse_append, dropWhile_run blanks finish,
      List.reverse_reverse]

theorem trim_padded {lead trail : List Char} (hlead : ∀ c ∈ lead, isBlank c = true)
    (htrail : ∀ c ∈ trail, isBlank c = true) (text : List Char) :
    trim (lead ++ (text ++ trail)) = trim text := by
  induction lead with
  | nil =>
    rw [List.nil_append]
    induction trail generalizing text with
    | nil => rw [List.append_nil]
    | cons c trail ih =>
      rw [List.append_cons, ih fun other hother => htrail other (List.mem_cons_of_mem _ hother)]
      exact trim_concat_blank (htrail c List.mem_cons_self) text
  | cons c lead ih =>
    rw [List.cons_append, trim_cons_blank (hlead c List.mem_cons_self)]
    exact ih fun other hother => hlead other (List.mem_cons_of_mem _ hother)

/-! ## Texts with single spaces -/

/-- A text without blanks at its ends and with single spaces between its words, in one pass.
`started` tells that something is written before it, `apart` that blanks were passed since. -/
def squeezeFrom (started apart : Bool) : List Char → List Char
  | [] => []
  | c :: rest =>
    if isBlank c then squeezeFrom started true rest
    else (if started && apart then [' '] else []) ++ c :: squeezeFrom true false rest

section Squeeze

variable {c : Char} {started apart : Bool} {rest : List Char}

theorem squeezeFrom_blank (h : isBlank c = true) :
    squeezeFrom started apart (c :: rest) = squeezeFrom started true rest := by
  rw [squeezeFrom, if_pos h]

theorem squeezeFrom_nonblank (h : isBlank c = false) :
    squeezeFrom started apart (c :: rest) =
      (if started && apart then [' '] else []) ++ c :: squeezeFrom true false rest := by
  rw [squeezeFrom, if_neg (by simp [h])]

theorem collapseFrom_blank (h : isBlank c = true) (inRun : Bool) (rest : List Char) :
    collapseFrom inRun (c :: rest) = (if inRun then [] else [' ']) ++ collapseFrom true rest := by
  rw [collapseFrom, if_pos h]
  split <;> rfl

theorem collapseFrom_nonblank (h : isBlank c = false) (inRun : Bool) (rest : List Char) :
    collapseFrom inRun (c :: rest) = c :: collapseFrom false rest := by
  rw [collapseFrom, if_neg (by simp [h])]

/-- Where blanks are collapsed, a space is the only one. -/
theorem eq_space_of_mem_collapseFrom {inRun : Bool} {text : List Char}
    (hmem : c ∈ collapseFrom inRun text) (hc : isBlank c = true) : c = ' ' := by
  induction text generalizing inRun with
  | nil => cases hmem
  | cons x text ih =>
    cases hx : isBlank x with
    | true =>
      rw [collapseFrom_blank hx, List.mem_append] at hmem
      rcases hmem with hmem | hmem
      · split at hmem
        · cases hmem
        · exact List.mem_singleton.1 hmem
      · exact ih hmem
    | false =>
      rw [collapseFrom_nonblank hx, List.mem_cons] at hmem
      rcases hmem with rfl | hmem
      · rw [hx] at hc
        cases hc
      · exact ih hmem

theorem collapseFrom_of_stops {text : List Char} (start : Stops isBlank text) (inRun : Bool) :
    collapseFrom inRun text = collapseFrom false text := by
  cases text with
  | nil => rfl
  | cons c rest =>
    have hc : isBlank c = false := stops_cons.1 start
    rw [collapseFrom_nonblank hc, collapseFrom_nonblank hc]

/-- Trimming at the end leaves what stands in front of it, if that ends with no blank. -/
theorem trimEnd_append_of_stops {front : List Char} (finish : Stops isBlank front.reverse)
    (text : List Char) : trimEnd (front ++ text) = front ++ trimEnd text := by
  rw [trimEnd, List.reverse_append, dropWhile_append_of_stops finish, List.reverse_append,
    List.reverse_reverse, trimEnd]

/-- The space of the run under way is taken off again if nothing follows it. -/
theorem trimEnd_collapseFrom (apart : Bool) (text : List Char) :
    trimEnd ((if apart then [' '] else []) ++ collapseFrom apart text) =
      squeezeFrom true apart text := by
  induction text generalizing apart with
  | nil => cases apart <;> rfl
  | cons c rest ih =>
    cases hc : isBlank c with
    | true =>
      rw [collapseFrom_blank hc, squeezeFrom_blank hc, ← ih true]
      cases apart <;> rfl
    | false =>
      have finish : Stops isBlank ((if apart then [' '] else []) ++ [c]).reverse := by
        rw [List.reverse_append]
        exact stops_cons.2 hc
      have behind := ih false
      rw [if_neg Bool.false_ne_true, List.nil_append] at behind
      rw [collapseFrom_nonblank hc, squeezeFrom_nonblank hc, ← behind, Bool.true_and,
        List.append_cons, trimEnd_append_of_stops finish, List.append_assoc]
      rfl

theorem trim_collapseFrom (inRun apart : Bool) (text : List Char) :
    trim (collapseFrom inRun text) = squeezeFrom false apart text := by
  induction text generalizing inRun apart with
  | nil => rfl
  | cons c rest ih =>
    cases hc : isBlank c with
    | true =>
      rw [collapseFrom_blank hc, squeezeFrom_blank hc, ← ih true true]
      cases inRun with
      | true => rfl
      | false => exact trim_cons_blank (by decide) _
    | false =>
      have start : Stops isBlank (c :: collapseFrom false rest) := stops_cons.2 hc
      have finish : Stops isBlank [c].reverse := stops_cons.2 hc
      have behind := trimEnd_collapseFrom false rest
      rw [if_neg Bool.false_ne_true, List.nil_append] at behind
      rw [collapseFrom_nonblank hc, squeezeFrom_nonblank hc, ← behind, trim, trimStart, start.dropWhile,
        ← List.singleton_append, trimEnd_append_of_stops finish]
      rfl

theorem trim_collapseBlanks (text : List Char) :
    trim (collapseBlanks text) = squeezeFrom false false text :=
  trim_collapseFrom false false text

/-- What is collapsed already keeps its blanks, in front of another one. -/
theorem squeezeFrom_collapsed (apart : Bool) {text : List Char} (finish : Stops isBlank text.reverse)
    (hne : apart = true → text ≠ []) (more : List Char) :
    squeezeFrom true apart (collapseFrom apart text ++ ' ' :: more) =
      (if apart then [' '] else []) ++ (collapseFrom apart text ++ squeezeFrom true true more) := by
  have space : isBlank ' ' = true := by decide
  induction text generalizing apart with
  | nil =>
    cases apart with
    | true => exact absurd rfl (hne rfl)
    | false => exact squeezeFrom_blank space
  | cons c rest ih =>
    have behind : Stops isBlank rest.reverse := by
      rw [List.reverse_cons] at finish
      exact finish.of_append
    cases hc : isBlank c with
    | true =>
      have hrest : rest ≠ [] := by
        rintro rfl
        rw [List.reverse_singleton, stops_cons, hc] at finish
        cases finish
      have next := ih true behind fun _ => hrest
      rw [if_pos rfl, List.singleton_append] at next
      rw [collapseFrom_blank hc]
      cases apart with
      | true => exact next
      | false => exact (squeezeFrom_blank space).trans next
    | false =>
      have next := ih false behind (by simp)
      rw [if_neg Bool.false_ne_true, List.nil_append] at next
      rw [collapseFrom_nonblank hc, List.cons_append, squeezeFrom_nonblank hc, next]
      rfl

end Squeeze

/-! ## Words -/

theorem words_append {c : Char} (h : isBlank c = true) (a b : List Char) :
    words (a ++ c :: b) = words a ++ words b := by
  simp only [words, List.splitOnP_append_cons _ _ h, List.filter_append]

theorem words_cons_blank {c : Char} (h : isBlank c = true) (text : List Char) :
    words (c :: text) = words text := words_append h [] text

theorem words_of_nonblank (hne : text ≠ []) (h : ∀ c ∈ text, isBlank c = false) :
    words text = [text] := by
  rw [words, List.splitOnP_eq_singleton h, List.filter_cons, if_pos (by simpa using hne),
    List.filter_nil]

theorem words_run {run rest : List Char} (hne : run ≠ []) (h : ∀ c ∈ run, isBlank c = false)
    (stop : Stops (!isBlank ·) rest) : words (run ++ rest) = run :: words rest := by
  cases rest with
  | nil =>
    rw [List.append_nil, words_of_nonblank hne h]
    rfl
  | cons c rest =>
    have hc : isBlank c = true := by simpa using stops_cons.1 stop
    rw [words_append hc, words_of_nonblank hne h, words_cons_blank hc, List.singleton_append]

/-- Nothing but blanks stands in front of the first word of a text. -/
theorem exists_of_head?_words {word : List Char} (h : (words text).head? = some word) :
    ∃ lead l letters rest, text = lead ++ l :: rest ∧ word = l :: letters ∧
      (∀ c ∈ lead, isBlank c = true) ∧ isBlank l = false := by
  induction text with
  | nil => cases h
  | cons c text ih =>
    cases hc : isBlank c with
    | true =>
      rw [words_cons_blank hc] at h
      obtain ⟨lead, l, letters, rest, rfl, rfl, hlead, hl⟩ := ih h
      exact ⟨c :: lead, l, letters, rest, rfl, rfl, List.forall_mem_cons.2 ⟨hc, hlead⟩, hl⟩
    | false =>
      have run : ∀ x ∈ c :: text.takeWhile (!isBlank ·), isBlank x = false :=
        List.forall_mem_cons.2 ⟨hc, fun x hx => by simpa using List.mem_takeWhile_imp hx⟩
      have cut := words_run (List.cons_ne_nil _ _) run (stops_dropWhile _ text)
      rw [List.cons_append, List.takeWhile_append_dropWhile] at cut
      rw [cut, List.head?_cons, Option.some.injEq] at h
      exact ⟨[], c, _, text, rfl, h.symm, by simp, hc⟩

theorem words_intercalate {parts : List (List Char)}
    (h : ∀ part ∈ parts, part ≠ [] ∧ ∀ c ∈ part, isBlank c = false) :
    words ([' '].intercalate parts) = parts := by
  induction parts with
  | nil => rfl
  | cons part parts ih =>
    obtain ⟨hne, hpart⟩ := h part List.mem_cons_self
    have others := ih fun other hother => h other (List.mem_cons_of_mem _ hother)
    cases parts with
    | nil =>
      have single : [' '].intercalate [part] = part := by simp [List.intercalate]
      rw [single, words_of_nonblank hne hpart]
    | cons next parts =>
      have space : isBlank ' ' = true := by decide
      rw [List.intercalate_cons_cons, List.append_assoc, List.singleton_append, words_append space,
        words_of_nonblank hne hpart, others, List.singleton_append]

/-- Words with a space between them neither begin nor end with a blank, and a space is the only blank
in them. -/
theorem stops_intercalate {parts : List (List Char)} (hne : parts ≠ [])
    (h : ∀ part ∈ parts, part ≠ [] ∧ ∀ c ∈ part, isBlank c = false) :
    [' '].intercalate parts ≠ [] ∧ Stops isBlank ([' '].intercalate parts) ∧
      Stops isBlank ([' '].intercalate parts).reverse ∧
      ∀ c ∈ [' '].intercalate parts, isBlank c = true → c = ' ' := by
  induction parts with
  | nil => exact absurd rfl hne
  | cons part parts ih =>
    obtain ⟨hpart, hblank⟩ := h part List.mem_cons_self
    have start : Stops isBlank part := fun c hc => hblank c (List.mem_of_mem_head? hc)
    have noBlank : ∀ c ∈ part, isBlank c = true → c = ' ' := by
      intro c hc htrue
      rw [hblank c hc] at htrue
      cases htrue
    cases parts with
    | nil =>
      have single : [' '].intercalate [part] = part := by simp [List.intercalate]
      have finish : Stops isBlank part.reverse :=
        fun c hc => hblank c (List.mem_reverse.1 (List.mem_of_mem_head? hc))
      rw [single]
      exact ⟨hpart, start, finish, noBlank⟩
    | cons next parts =>
      obtain ⟨othersNe, -, finish, others⟩ :=
        ih (List.cons_ne_nil _ _) fun other hother => h other (List.mem_cons_of_mem _ hother)
      rw [List.intercalate_cons_cons, List.append_assoc]
      refine ⟨List.append_ne_nil_of_left_ne_nil hpart _, start.append hpart _, ?_, ?_⟩
      · rw [List.reverse_append, List.reverse_append, List.append_assoc]
        exact finish.append (List.reverse_ne_nil_iff.2 othersNe) _
      · intro c hc hspace
        rcases List.mem_append.1 hc with hc | hc
        · exact noBlank c hc hspace
        rcases List.mem_append.1 hc with hc | hc
        · exact List.mem_singleton.1 hc
        · exact others c hc hspace

/-! ## Quotation marks -/

theorem between?_eq_some_iff {left right : Char} {inner : List Char} :
    between? left right text = some inner ↔ text = left :: (inner ++ [right]) := by
  unfold between?
  split
  · simp
  next c rest =>
    constructor
    · intro h
      split at h
      next marks =>
        cases h
        obtain ⟨front, rfl⟩ := List.getLast?_eq_some_iff.1 marks.2
        rw [marks.1, List.dropLast_concat]
      next => cases h
    · rintro h
      cases h
      simp

end ReleaseSchema.Text
