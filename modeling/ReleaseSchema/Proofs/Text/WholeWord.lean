/-
Keywords as whole words. A keyword stands at a place of a text when no word
character is in front of it and the run of word characters there spells it
(`WordAt`), so what is behind a character that is in no word does not matter,
and texts that hold none of some keywords may be joined by such a character
(`Lacks.join`). A search for what begins with a keyword passes a text without it
(`search?_append_of_lacks`).
-/
import ReleaseSchema.Proofs.Text.Cursor
import ReleaseSchema.Proofs.Text.Trim

namespace ReleaseSchema.Text

open Cursor

/-- The texts of keywords: small letters, and not none of them. -/
def IsKeyword (word : String) : Prop :=
  word.toList ≠ [] ∧ word.toList.all (fun l => 'a' ≤ l && l ≤ 'z') = true

instance (word : String) : Decidable (IsKeyword word) := inferInstanceAs (Decidable (_ ∧ _))

/-- The word stands at the place as a whole. -/
def WordAt (word : String) (c : Cursor) : Prop :=
  Stops isWord c.passed ∧ (c.rest.takeWhile isWord).map foldCase = word.toList

/-- The text holds none of the words as a whole. -/
def Lacks (words : List String) (text : List Char) : Prop :=
  ∀ word ∈ words, occurs (wholePhrase? [word]) text = false

instance (words : List String) (text : List Char) : Decidable (Lacks words text) :=
  inferInstanceAs (Decidable (∀ word ∈ words, occurs (wholePhrase? [word]) text = false))

theorem isAlpha_iff {c : Char} :
    c.isAlpha = true ↔ (c.val ≥ 'A'.val ∧ c.val ≤ 'Z'.val) ∨ 'a' ≤ c ∧ c ≤ 'z' := by
  have split : c.isAlpha = (decide (c.val ≥ 'A'.val ∧ c.val ≤ 'Z'.val) ||
      (decide ('a' ≤ c) && decide (c ≤ 'z'))) := rfl
  rw [split, Bool.or_eq_true, Bool.and_eq_true, decide_eq_true_eq, decide_eq_true_eq,
    decide_eq_true_eq]

theorem toNat_lt_of_isAsciiAlphanumeric {c : Char} (h : isAsciiAlphanumeric c = true) :
    c.toNat < 0x80 := by
  rw [isAsciiAlphanumeric, Bool.or_eq_true] at h
  rcases h with letter | digit
  · rcases isAlpha_iff.1 letter with ⟨-, high⟩ | ⟨-, high⟩
    · exact Nat.lt_of_le_of_lt (UInt32.le_iff_toNat_le.1 high) (by decide)
    · exact Nat.lt_of_le_of_lt (UInt32.le_iff_toNat_le.1 high) (by decide)
  · simp only [isAsciiDigit, Char.isDigit, Bool.and_eq_true, decide_eq_true_eq] at digit
    exact Nat.lt_of_le_of_lt (UInt32.le_iff_toNat_le.1 digit.2) (by decide)

theorem isWord_of_isAsciiAlphanumeric {c : Char} (h : isAsciiAlphanumeric c = true) :
    isWord c = true := by
  rw [isWord, if_pos (toNat_lt_of_isAsciiAlphanumeric h), h, Bool.true_or]

theorem isWord_of_foldCase {x l : Char} (h : foldCase x = l) (hl : 'a' ≤ l ∧ l ≤ 'z') :
    isWord x = true := by
  have letter (c : Char) (hc : c.isAlpha = true) : isWord c = true :=
    isWord_of_isAsciiAlphanumeric (by simp [isAsciiAlphanumeric, isAsciiLetter, hc])
  unfold foldCase at h
  split at h
  next kelvin =>
    have hx : x = Char.ofNat 0x212A := by rw [← kelvin, Char.ofNat_toNat]
    rw [hx]
    decide +kernel
  split at h
  next longS =>
    have hx : x = Char.ofNat 0x17F := by rw [← longS, Char.ofNat_toNat]
    rw [hx]
    decide +kernel
  next =>
    refine letter x ?_
    unfold Char.toLower at h
    split at h
    next upper => exact isAlpha_iff.2 (.inl upper)
    next =>
      subst h
      exact isAlpha_iff.2 (.inr hl)

section Places

variable {word : String} {passed rest more : List Char}

theorem letters?_eq_some_iff {letters : List Char} {d : Cursor} :
    letters? letters ⟨passed, rest⟩ = some d ↔
      ∃ run more, rest = run ++ more ∧ run.map foldCase = letters ∧
        d = ⟨run.reverse ++ passed, more⟩ := by
  induction letters generalizing passed rest with
  | nil =>
    constructor
    · intro h
      cases h
      exact ⟨[], rest, rfl, rfl, rfl⟩
    · rintro ⟨run, more, rfl, hrun, rfl⟩
      rw [List.map_eq_nil_iff] at hrun
      subst hrun
      rfl
  | cons l letters ih =>
    cases rest with
    | nil =>
      constructor
      · intro h
        cases h
      · rintro ⟨run, more, hrest, hrun, -⟩
        obtain ⟨rfl, -⟩ := List.append_eq_nil_iff.1 hrest.symm
        cases hrun
    | cons x rest =>
      rw [letters?]
      split
      next hx =>
        rw [ih]
        constructor
        · rintro ⟨run, more, rfl, hrun, rfl⟩
          exact ⟨x :: run, more, rfl, by rw [List.map_cons, hx, hrun], by simp⟩
        · rintro ⟨run, more, hrest, hrun, rfl⟩
          cases run with
          | nil => cases hrun
          | cons y run =>
            obtain ⟨rfl, rfl⟩ := List.cons.inj hrest
            exact ⟨run, more, rfl, (List.cons.inj hrun).2, by simp⟩
      next hx =>
        constructor
        · intro h
          cases h
        · rintro ⟨run, more, hrest, hrun, -⟩
          cases run with
          | nil => cases hrun
          | cons y run =>
            obtain ⟨rfl, -⟩ := List.cons.inj hrest
            exact absurd (List.cons.inj hrun).1 hx

/-- The run of word characters that a keyword is read from. -/
theorem isWord_of_map_foldCase (h : IsKeyword word) {run : List Char}
    (hrun : run.map foldCase = word.toList) : run ≠ [] ∧ ∀ c ∈ run, isWord c = true := by
  constructor
  · rintro rfl
    exact h.1 hrun.symm
  · intro c hc
    have small := List.all_eq_true.1 h.2 (foldCase c) (hrun ▸ List.mem_map_of_mem hc)
    simp only [Bool.and_eq_true, decide_eq_true_eq] at small
    exact isWord_of_foldCase rfl small

theorem eq_of_boundary? {c d : Cursor} (h : c.boundary? = some d) : d = c := by
  unfold boundary? at h
  split at h <;> cases h
  rfl

/-- In front of a word character, a boundary is a place with no word character before it. -/
theorem boundary?_before {run : List Char} (hne : run ≠ []) (hrun : ∀ c ∈ run, isWord c = true)
    (passed more : List Char) :
    (boundary? ⟨passed, run ++ more⟩).isSome = true ↔ Stops isWord passed := by
  obtain ⟨c, run, rfl⟩ := List.exists_cons_of_ne_nil hne
  have hc := hrun c List.mem_cons_self
  rw [stops_iff_any, boundary?]
  simp [atBoundary, hc]

/-- Behind a word character, a boundary is a place with no word character after it. -/
theorem boundary?_behind {run : List Char} (hne : run ≠ []) (hrun : ∀ c ∈ run, isWord c = true)
    (passed more : List Char) :
    (boundary? ⟨run.reverse ++ passed, more⟩).isSome = true ↔ Stops isWord more := by
  obtain ⟨c, run', hreverse⟩ := List.exists_cons_of_ne_nil (List.reverse_ne_nil_iff.2 hne)
  have hc := hrun c (List.mem_reverse.1 (hreverse ▸ List.mem_cons_self))
  rw [stops_iff_any, boundary?, hreverse]
  simp [atBoundary, hc]

/-- A keyword is read as a whole word where it stands as one. -/
theorem wholePhrase?_isSome_iff (h : IsKeyword word) :
    (wholePhrase? [word] ⟨passed, rest⟩).isSome = true ↔ WordAt word ⟨passed, rest⟩ := by
  constructor
  · intro hread
    obtain ⟨d, hread⟩ := Option.isSome_iff_exists.1 hread
    simp only [wholePhrase?, phrase?, spelled?, Option.bind_eq_bind, Option.bind_eq_some_iff] at hread
    obtain ⟨e, hstart, f, hletters, hend⟩ := hread
    obtain rfl := eq_of_boundary? hstart
    obtain ⟨run, more, rfl, hrun, rfl⟩ := letters?_eq_some_iff.1 hletters
    obtain ⟨hne, hword⟩ := isWord_of_map_foldCase h hrun
    have stop := (boundary?_behind hne hword passed more).1 (Option.isSome_iff_exists.2 ⟨_, hend⟩)
    refine ⟨(boundary?_before hne hword passed more).1 (Option.isSome_iff_exists.2 ⟨_, hstart⟩), ?_⟩
    rw [takeWhile_run hword stop, hrun]
  · rintro ⟨hpassed, hrun⟩
    dsimp only at hpassed hrun
    obtain ⟨hne, hword⟩ := isWord_of_map_foldCase h hrun
    have stop := stops_dropWhile isWord rest
    have whole : rest.takeWhile isWord ++ rest.dropWhile isWord = rest :=
      List.takeWhile_append_dropWhile
    obtain ⟨e, hstart⟩ := Option.isSome_iff_exists.1
      ((boundary?_before hne hword passed (rest.dropWhile isWord)).2 hpassed)
    obtain ⟨d, hend⟩ := Option.isSome_iff_exists.1
      ((boundary?_behind hne hword passed (rest.dropWhile isWord)).2 stop)
    obtain rfl := eq_of_boundary? hstart
    have hletters : letters? word.toList ⟨passed, rest⟩ =
        some ⟨(rest.takeWhile isWord).reverse ++ passed, rest.dropWhile isWord⟩ :=
      letters?_eq_some_iff.2 ⟨_, _, whole.symm, hrun, rfl⟩
    rw [whole] at hstart
    simp only [wholePhrase?, phrase?, spelled?, hstart, hletters, hend, Option.bind_eq_bind,
      Option.bind_some, Option.isSome_some]

theorem wholePhrase?_eq_none_iff (h : IsKeyword word) :
    wholePhrase? [word] ⟨passed, rest⟩ = none ↔ ¬WordAt word ⟨passed, rest⟩ := by
  rw [← wholePhrase?_isSome_iff h, Bool.not_eq_true, Option.isSome_eq_false_iff,
    Option.isNone_iff_eq_none]

/-- A keyword needs no more of a text than what precedes a character that is in no word. -/
theorem wordAt_append (stop : Stops isWord more) :
    WordAt word ⟨passed, rest ++ more⟩ ↔ WordAt word ⟨passed, rest⟩ := by
  rw [WordAt, WordAt, takeWhile_append_of_stops stop]

theorem not_wordAt_of_stops (h : IsKeyword word) (stop : Stops isWord rest) :
    ¬WordAt word ⟨passed, rest⟩ := by
  rintro ⟨-, hrun⟩
  rw [stop.takeWhile] at hrun
  exact h.1 hrun.symm

end Places

/-! ## Texts without keywords -/

section Lacks

variable {words : List String} {a b text : List Char} {x : Char}

/-- A text lacks keywords when they stand at none of its places. -/
theorem lacks_iff (h : ∀ word ∈ words, IsKeyword word) :
    Lacks words text ↔
      ∀ word ∈ words, ∀ a b, text = a ++ b → ¬WordAt word ⟨a.reverse, b⟩ := by
  have place : ∀ word ∈ words, (occurs (wholePhrase? [word]) text = false ↔
      ∀ a b, text = a ++ b → ¬WordAt word ⟨a.reverse, b⟩) := by
    intro word hword
    rw [occurs, Option.isSome_eq_false_iff, Option.isNone_iff_eq_none, search?, find?]
    constructor
    · rintro hnone a b rfl
      rw [← wholePhrase?_eq_none_iff (h word hword)]
      have here := reader_eq_none_of_findFrom hnone
      rwa [start, List.append_nil] at here
    · intro hplaces
      refine findFrom_eq_none fun a b hsplit => ?_
      rw [start, List.append_nil]
      exact (wholePhrase?_eq_none_iff (h word hword)).2 (hplaces a b hsplit)
  constructor
  · exact fun hlacks word hword => (place word hword).1 (hlacks word hword)
  · exact fun hplaces word hword => (place word hword).2 (hplaces word hword)

theorem Lacks.subset {fewer : List String} (h : fewer ⊆ words) (hlacks : Lacks words text) :
    Lacks fewer text :=
  fun word hword => hlacks word (h hword)

/-- Texts without keywords may be joined by a character that is in no word. -/
theorem Lacks.join (h : ∀ word ∈ words, IsKeyword word) (hx : isWord x = false)
    (ha : Lacks words a) (hb : Lacks words b) : Lacks words (a ++ x :: b) := by
  rw [lacks_iff h] at ha hb ⊢
  intro word hword front back hsplit
  have stop : Stops isWord (x :: b) := stops_cons.2 hx
  rcases List.append_eq_append_iff.1 hsplit with ⟨more, rfl, hmore⟩ | ⟨more, rfl, rfl⟩
  · -- the place is behind the first text
    cases more with
    | nil =>
      rw [List.nil_append] at hmore
      exact not_wordAt_of_stops (h word hword) (hmore ▸ stop)
    | cons y more =>
      obtain ⟨rfl, rfl⟩ := List.cons.inj hmore
      rintro ⟨hpassed, hrun⟩
      refine hb word hword more back rfl ⟨?_, hrun⟩
      cases hreverse : more.reverse with
      | nil => exact Stops.nil
      | cons z reversed =>
        simp only [List.reverse_append, List.reverse_cons, hreverse, List.cons_append] at hpassed
        exact stops_cons.2 (stops_cons.1 hpassed)
  · rw [wordAt_append stop]
    exact ha word hword front more rfl

theorem lacks_nil (h : ∀ word ∈ words, IsKeyword word) : Lacks words [] := by
  rw [lacks_iff h]
  intro word hword a b hsplit
  rw [(List.append_eq_nil_iff.1 hsplit.symm).2]
  exact not_wordAt_of_stops (h word hword) Stops.nil

theorem stops_isWord_of_isBlank {blanks : List Char} (h : ∀ c ∈ blanks, isBlank c = true) :
    Stops isWord blanks :=
  fun c hc => isWord_of_isBlank (h c (List.mem_of_mem_head? hc))

/-- No keyword goes away with the blanks around a text. -/
theorem Lacks.trim (h : ∀ word ∈ words, IsKeyword word) (hlacks : Lacks words text) :
    Lacks words (trim text) := by
  obtain ⟨lead, trail, whole, hlead, htrail⟩ := exists_trim text
  rw [lacks_iff h] at hlacks ⊢
  intro word hword a b hsplit
  rw [← wordAt_append (stops_isWord_of_isBlank htrail)]
  rintro ⟨hpassed, hrun⟩
  refine hlacks word hword (lead ++ a) (b ++ trail) ?_ ⟨?_, hrun⟩
  · rw [whole, hsplit]
    simp only [List.append_assoc]
  · dsimp only at hpassed ⊢
    rw [List.reverse_append]
    cases hreverse : a.reverse with
    | nil =>
      exact stops_isWord_of_isBlank fun c hc => hlead c (List.mem_reverse.1 hc)
    | cons c reversed =>
      rw [hreverse] at hpassed
      exact stops_cons.2 (stops_cons.1 hpassed)

end Lacks

/-! ## Searches for keywords -/

section Search

variable {word : String} {text rest written : List Char} {c d e : Cursor}
  {reader : Cursor → Option α}

/-- A keyword that is read where no word goes on stands there as a whole. -/
theorem wordAt_of_spelled? (h : IsKeyword word) (start : Stops isWord c.passed)
    (read : c.spelled? word = some d) (finish : Stops isWord d.rest) : WordAt word c := by
  obtain ⟨passed, rest⟩ := c
  obtain ⟨run, more, hrest, hrun, rfl⟩ := letters?_eq_some_iff.1 read
  obtain ⟨-, hword⟩ := isWord_of_map_foldCase h hrun
  refine ⟨start, ?_⟩
  dsimp only at hrest finish ⊢
  rw [hrest, takeWhile_run hword finish, hrun]

/-- At a boundary in front of a keyword no word ends. -/
theorem wordAt_of_boundary? (h : IsKeyword word) (start : c.boundary? = some d)
    (read : d.spelled? word = some e) (finish : Stops isWord e.rest) : WordAt word c := by
  obtain rfl := eq_of_boundary? start
  refine wordAt_of_spelled? h ?_ read finish
  obtain ⟨passed, rest⟩ := d
  obtain ⟨run, more, hrest, hrun, -⟩ := letters?_eq_some_iff.1 read
  obtain ⟨hne, hword⟩ := isWord_of_map_foldCase h hrun
  rw [hrest] at start
  exact (boundary?_before hne hword passed more).1 (Option.isSome_iff_exists.2 ⟨_, start⟩)

theorem stops_of_blanks? (h : c.blanks? = some d) : Stops isWord c.rest := by
  obtain ⟨passed, rest⟩ := c
  cases rest with
  | nil => exact Stops.nil
  | cons x rest =>
    refine stops_cons.2 ?_
    by_cases hx : isBlank x = true
    · exact isWord_of_isBlank hx
    · rw [blanks?, run?, List.takeWhile_cons_of_neg hx] at h
      cases h

/-- Behind a keyword that ends at a boundary no word goes on. -/
theorem stops_of_boundary? (h : IsKeyword word) (read : c.spelled? word = some d)
    (finish : d.boundary? = some e) : Stops isWord d.rest := by
  obtain ⟨passed, rest⟩ := c
  obtain ⟨run, more, -, hrun, rfl⟩ := letters?_eq_some_iff.1 read
  obtain ⟨hne, hword⟩ := isWord_of_map_foldCase h hrun
  exact (boundary?_behind hne hword passed more).1 (Option.isSome_iff_exists.2 ⟨e, finish⟩)

/-- A phrase that ends at a boundary begins with its first word as a whole. -/
theorem wordAt_of_phrase? {more : List String} (h : IsKeyword word) (start : Stops isWord c.passed)
    (read : c.phrase? (word :: more) = some d) (finish : d.boundary? = some e) : WordAt word c := by
  cases more with
  | nil => exact wordAt_of_spelled? h start read (stops_of_boundary? h read finish)
  | cons next more =>
    simp only [phrase?, Option.bind_eq_bind, Option.bind_eq_some_iff] at read
    obtain ⟨f, hspelled, g, hblanks, -⟩ := read
    exact wordAt_of_spelled? h start hspelled (stops_of_blanks? hblanks)

/-- The reader answers only where the keyword stands. -/
def NeedsWord (word : String) (reader : Cursor → Option α) : Prop :=
  ∀ c a, reader c = some a → WordAt word c

theorem needsWord_wholePhrase? (h : IsKeyword word) (next : String) (more : List String) :
    NeedsWord word (wholePhrase? (word :: next :: more)) := by
  intro c f hread
  simp only [wholePhrase?, phrase?, Option.bind_eq_bind, Option.bind_eq_some_iff] at hread
  obtain ⟨d, hstart, _, ⟨e, hspelled, _, hblanks, _⟩, _⟩ := hread
  exact wordAt_of_boundary? h hstart hspelled (stops_of_blanks? hblanks)

theorem NeedsWord.eq_none (needs : NeedsWord word reader) (h : ¬WordAt word c) :
    reader c = none := by
  cases hread : reader c with
  | none => rfl
  | some a => exact absurd (needs c a hread) h

/-- A search passes a text without the keyword that its reader needs. -/
theorem search?_append_of_lacks (h : IsKeyword word) (needs : NeedsWord word reader)
    (hlacks : Lacks [word] text) (stop : Stops isWord rest) :
    search? reader (text ++ rest) = findFrom reader text.reverse rest := by
  have places := (lacks_iff (List.forall_mem_singleton.2 h)).1 hlacks word List.mem_cons_self
  have passes := @findFrom_append _ reader [] text rest fun a b hsplit _ => by
    refine needs.eq_none ?_
    rw [List.append_nil, wordAt_append stop]
    exact places a b hsplit
  rw [search?, find?, start, passes, List.append_nil]

theorem search?_of_lacks (h : IsKeyword word) (needs : NeedsWord word reader)
    (hlacks : Lacks [word] text) : search? reader text = none := by
  have passes := search?_append_of_lacks h needs hlacks Stops.nil
  rw [List.append_nil] at passes
  rw [passes, findFrom, needs.eq_none (not_wordAt_of_stops h Stops.nil)]
  rfl

/-- A search ends behind the blank in front of the first text that its reader reads. -/
theorem search?_of_written (h : IsKeyword word) (needs : NeedsWord word reader)
    (hlacks : Lacks [word] text) {a : α}
    (read : reader ⟨' ' :: text.reverse, written⟩ = some a) :
    search? reader (text ++ ' ' :: written) = some (⟨' ' :: text.reverse, written⟩, a) := by
  have stop : Stops isWord (' ' :: written) := stops_cons.2 (by decide)
  have space : reader ⟨text.reverse, ' ' :: written⟩ = none :=
    needs.eq_none (not_wordAt_of_stops h stop)
  rw [search?_append_of_lacks h needs hlacks stop, findFrom, space]
  exact findFrom_of_some read

/-- A reader that answers at a place of a text occurs in it. -/
theorem occurs_of_read {passed : List Char} {a : α} (read : reader ⟨passed.reverse, rest⟩ = some a) :
    occurs reader (passed ++ rest) = true := by
  by_contra hnone
  rw [Bool.not_eq_true, occurs, Option.isSome_eq_false_iff, Option.isNone_iff_eq_none] at hnone
  have here := reader_eq_none_of_findFrom hnone
  rw [start, List.append_nil, read] at here
  cases here

end Search

end ReleaseSchema.Text
