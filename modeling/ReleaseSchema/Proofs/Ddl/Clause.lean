/-
The clauses of column definitions as they are written, and where they are read.
A clause begins with a word that no other clause holds
(`WrittenClause.IsPlain.lacks`), and its reader reads it behind any blank
(`WrittenClause.clause?_written`, `default?_written`, `references?_written`).

A text ends at the first clause behind it when no word of a clause is in it
(`beforeClause_append`).
-/
import Mathlib.Data.List.Infix
import ReleaseSchema.Ddl.Column
import ReleaseSchema.Proofs.Ddl.Argument

namespace ReleaseSchema.Ddl

open Text

/-! ## Clauses as they are written -/

/-- A name without quotes. -/
structure PlainName where
  word : List Char
  nonempty : word ≠ []
  allWord : ∀ c ∈ word, isWord c = true

def PlainName.written (n : PlainName) : WrittenName := ⟨n.word, false, n.nonempty, n.allWord⟩

inductive WrittenClause where
  | notNull
  | unique
  | primaryKey
  | references (table key : PlainName)
  | default (value : List Char)

/-- The words of clauses. -/
def clauseWords : List String :=
  ["not", "null", "unique", "references", "default", "primary", "check", "constraint", "collate",
    "generated"]

/-- A text with no blank at either end and no comment. -/
structure IsClean (text : List Char) : Prop where
  nonempty : text ≠ []
  trimmed : trim text = text
  noComment : ¬"/*".toList <:+: text

/-- A text that no word of a clause is in. -/
structure IsFragment (text : List Char) : Prop extends IsClean text where
  noClause : Lacks clauseWords text

instance (text : List Char) : Decidable (IsFragment text) :=
  decidable_of_iff
    (text ≠ [] ∧ trim text = text ∧ ¬"/*".toList <:+: text ∧ Lacks clauseWords text)
    ⟨fun ⟨nonempty, trimmed, noComment, noClause⟩ => ⟨⟨nonempty, trimmed, noComment⟩, noClause⟩,
      fun h => ⟨h.nonempty, h.trimmed, h.noComment, h.noClause⟩⟩

namespace WrittenClause

/-- The word that the clause begins with. -/
def keyword : WrittenClause → String
  | notNull => "not"
  | unique => "unique"
  | primaryKey => "primary"
  | references _ _ => "references"
  | default _ => "default"

/-- All the words that it is known by. -/
def head (c : WrittenClause) : List String :=
  c.keyword :: match c with
    | notNull => ["null"]
    | primaryKey => ["key"]
    | _ => []

def argument : WrittenClause → List Char
  | references table key => ' ' :: (table.word ++ '(' :: (key.word ++ [')']))
  | default value => ' ' :: value
  | _ => []

/-- The words of a clause with a space between them. -/
def phrase (head : List String) : List Char := [' '].intercalate (head.map String.toList)

def render (c : WrittenClause) : List Char := phrase c.head ++ c.argument

theorem phrase_singleton (word : String) : phrase [word] = word.toList := by
  simp [phrase, List.intercalate]

theorem render_default (value : List Char) :
    (default value).render = "default".toList ++ ' ' :: value := by
  simp only [render, head, keyword, phrase_singleton, argument]

theorem render_references (table key : PlainName) :
    (references table key).render =
      "references".toList ++ ' ' :: (table.word ++ '(' :: (key.word ++ [')'])) := by
  simp only [render, head, keyword, phrase_singleton, argument]

/-- No part of the clause is taken for another one. -/
def IsPlain : WrittenClause → Prop
  | references table key => Lacks clauseWords table.word ∧ Lacks clauseWords key.word
  | default value => IsFragment value ∧ '\n' ∉ value
  | _ => True

instance : DecidablePred IsPlain
  | references table key =>
    inferInstanceAs (Decidable (Lacks clauseWords table.word ∧ Lacks clauseWords key.word))
  | default value => inferInstanceAs (Decidable (IsFragment value ∧ '\n' ∉ value))
  | notNull => .isTrue trivial
  | unique => .isTrue trivial
  | primaryKey => .isTrue trivial

end WrittenClause

/-- Clauses behind a text. -/
def clauseText (clauses : List WrittenClause) : List Char :=
  clauses.flatMap fun clause => ' ' :: clause.render

/-! ## Clean texts -/

section Clean

variable {text a b : List Char}

theorem IsClean.stops (h : IsClean text) : Stops isBlank text ∧ Stops isBlank text.reverse := by
  rw [← h.trimmed]
  exact ⟨stops_trim text, stops_reverse_trim text⟩

theorem isClean_of_stops (nonempty : text ≠ []) (start : Stops isBlank text)
    (finish : Stops isBlank text.reverse) (noMark : '/' ∉ text) : IsClean text where
  nonempty
  trimmed := trim_eq_self start finish
  noComment h := noMark (h.subset List.mem_cons_self)

theorem IsClean.withoutComments (h : IsClean text) : Sql.withoutComments text = text := by
  rw [← h.trimmed]
  exact withoutComments_of_no_mark h.noComment

theorem noComment_join (ha : ¬"/*".toList <:+: a) (hb : ¬"/*".toList <:+: b) :
    ¬"/*".toList <:+: a ++ ' ' :: b := by
  change ¬['/', '*'] <:+: a at ha
  change ¬['/', '*'] <:+: _
  induction a with
  | nil =>
    rw [List.nil_append, List.infix_cons_iff, List.cons_prefix_cons]
    rintro (⟨hslash, -⟩ | hinfix)
    · exact absurd hslash (by decide)
    · exact hb hinfix
  | cons c a ih =>
    rw [List.cons_append, List.infix_cons_iff, List.cons_prefix_cons]
    rintro (⟨rfl, hstar⟩ | hinfix)
    · cases a with
      | nil => exact absurd (List.cons_prefix_cons.1 hstar).1 (by decide)
      | cons d a =>
        obtain ⟨rfl, -⟩ := List.cons_prefix_cons.1 hstar
        exact ha ⟨[], a, rfl⟩
    · exact ih (fun h => ha (h.trans (List.suffix_cons c a).isInfix)) hinfix

theorem IsClean.join (ha : IsClean a) (hb : IsClean b) : IsClean (a ++ ' ' :: b) where
  nonempty := List.append_ne_nil_of_left_ne_nil ha.nonempty _
  trimmed := by
    refine trim_eq_self (ha.stops.1.append ha.nonempty _) ?_
    have reversed : (a ++ ' ' :: b).reverse = b.reverse ++ (' ' :: a.reverse) := by simp
    rw [reversed]
    exact hb.stops.2.append (List.reverse_ne_nil_iff.2 hb.nonempty) _
  noComment := noComment_join ha.noComment hb.noComment

end Clean

/-! ## Clauses -/

theorem isKeyword_clauseWord : ∀ word ∈ clauseWords, IsKeyword word := by decide

/-- The characters of a definition that come neither from a type nor from a default value. -/
def isOwnChar (x : Char) : Bool := isWord x || x == ' ' || x == '(' || x == ')'

section Phrases

variable {words : List String} {passed rest : List Char}

theorem stops_phrase (hne : words ≠ [])
    (h : ∀ word ∈ words, word.toList ≠ [] ∧ ∀ x ∈ word.toList, isBlank x = false) :
    WrittenClause.phrase words ≠ [] ∧ Stops isBlank (WrittenClause.phrase words) ∧
      Stops isBlank (WrittenClause.phrase words).reverse := by
  obtain ⟨nonempty, start, finish, -⟩ :=
    stops_intercalate (mt List.map_eq_nil_iff.1 hne) (List.forall_mem_map.2 h)
  exact ⟨nonempty, start, finish⟩

/-- The words of a phrase are read where they are written. -/
theorem phrase?_append
    (small : ∀ word ∈ words, word.toList.all (fun l => foldCase l == l) = true)
    (h : ∀ word ∈ words, word.toList ≠ [] ∧ ∀ x ∈ word.toList, isBlank x = false) :
    Cursor.phrase? words ⟨passed, WrittenClause.phrase words ++ rest⟩ =
      some ⟨(WrittenClause.phrase words).reverse ++ passed, rest⟩ := by
  induction words generalizing passed with
  | nil => rfl
  | cons word words ih =>
    obtain ⟨hsmall, small⟩ := List.forall_mem_cons.1 small
    obtain ⟨-, h⟩ := List.forall_mem_cons.1 h
    cases words with
    | nil =>
      rw [WrittenClause.phrase_singleton]
      exact spelled?_append hsmall
    | cons next more =>
      have whole : WrittenClause.phrase (word :: next :: more) =
          word.toList ++ ' ' :: WrittenClause.phrase (next :: more) := by
        simp only [WrittenClause.phrase, List.map_cons, List.intercalate_cons_cons,
          List.append_assoc, List.singleton_append]
      obtain ⟨nonempty, start, -⟩ := stops_phrase (List.cons_ne_nil next more) h
      have first := @wordAndBlanks?_append word hsmall passed
        (WrittenClause.phrase (next :: more) ++ rest) (start.append nonempty rest)
      rw [wordAndBlanks?, spelled?_append hsmall, Option.bind_some] at first
      simp only [whole, List.append_assoc, List.cons_append, Cursor.phrase?, spelled?_append hsmall,
        first, Option.bind_eq_bind, Option.bind_some, ih small h]
      simp

end Phrases

namespace PlainName

variable (n : PlainName)

theorem isOwnChar_of_mem {x : Char} (hx : x ∈ n.word) : isOwnChar x = true := by
  simp [isOwnChar, n.allWord x hx]

theorem noBlank : ∀ x ∈ n.word, isBlank x = false := n.written.render_noBlank.2

theorem isClean : IsClean n.word :=
  isClean_of_stops n.nonempty (fun x hx => n.noBlank x (List.mem_of_mem_head? hx))
    (fun x hx => n.noBlank x (List.mem_reverse.1 (List.mem_of_mem_head? hx)))
    fun hslash => absurd (n.allWord _ hslash) (by decide)

theorem read (passed : List Char) {rest : List Char} (stop : Stops isNameChar rest) :
    name? ⟨passed, n.word ++ rest⟩ = some (n.word, ⟨n.word.reverse ++ passed, rest⟩) :=
  n.written.name?_render stop

end PlainName

namespace WrittenClause

variable {c : WrittenClause} {word : String}

/-- The words of each kind of clause. -/
def heads : List (List String) :=
  [["not", "null"], ["unique"], ["primary", "key"], ["references"], ["default"]]

theorem keyword_ne_default {clauses : List WrittenClause} (h : ∀ value, .default value ∉ clauses) :
    ∀ c ∈ clauses, c.keyword ≠ "default" := by
  intro c hc he
  cases c with
  | default value => exact h value hc
  | _ => simp [keyword] at he

theorem head_mem_clauseHeads (h : c.keyword ≠ "default") : c.head ∈ clauseHeads := by
  cases c with
  | default value => exact absurd rfl h
  | _ => simp [head, keyword, clauseHeads]

theorem head_mem_all (c : WrittenClause) : c.head ∈ ["default"] :: clauseHeads := by
  cases c <;> simp [head, keyword, clauseHeads]

theorem head_mem (c : WrittenClause) : c.head ∈ heads := by
  cases c <;> simp [head, keyword, heads]

/-- The words that clauses begin with. -/
def keywords : List String := ["not", "unique", "primary", "references", "default"]

theorem keyword_mem (c : WrittenClause) : c.keyword ∈ keywords := by
  cases c <;> simp [keyword, keywords]

theorem isKeyword_of_mem (h : word ∈ keywords) : ∀ w ∈ [word], IsKeyword w := by
  have all : ∀ word ∈ keywords, IsKeyword word := by decide
  exact List.forall_mem_singleton.2 (all word h)

theorem isKeyword (c : WrittenClause) : IsKeyword c.keyword :=
  List.forall_mem_singleton.1 (isKeyword_of_mem c.keyword_mem)

theorem singleton_subset (h : word ∈ keywords) : [word] ⊆ clauseWords := by
  have all : ∀ word ∈ keywords, word ∈ clauseWords := by decide
  exact List.cons_subset.2 ⟨all word h, List.nil_subset _⟩

theorem eq_of_keyword {other : WrittenClause} (alone : c.argument = [])
    (h : other.keyword = c.keyword) : other = c := by
  cases c with
  | references table key => cases alone
  | default value => cases alone
  | notNull => cases other <;> simp [keyword] at h ⊢
  | unique => cases other <;> simp [keyword] at h ⊢
  | primaryKey => cases other <;> simp [keyword] at h ⊢

theorem head_words (c : WrittenClause) :
    ∀ word ∈ c.head, word.toList ≠ [] ∧ ∀ x ∈ word.toList, isBlank x = false := by
  have words : ∀ head ∈ heads, ∀ word ∈ head,
      word.toList ≠ [] ∧ word.toList.all (!isBlank ·) = true := by
    decide
  intro word hword
  obtain ⟨nonempty, hall⟩ := words c.head c.head_mem word hword
  exact ⟨nonempty, fun x hx => by simpa using List.all_eq_true.1 hall x hx⟩

theorem phrase_isClean : IsClean (phrase c.head) := by
  have noMark : ∀ head ∈ heads, '/' ∉ phrase head := by decide
  obtain ⟨nonempty, start, finish⟩ := stops_phrase (List.cons_ne_nil _ _) c.head_words
  exact isClean_of_stops nonempty start finish (noMark c.head c.head_mem)

/-- What is behind the words of a clause. -/
theorem IsPlain.argument (h : c.IsPlain) :
    c.argument = [] ∨ ∃ text, c.argument = ' ' :: text ∧ IsFragment text := by
  cases c with
  | references table key =>
    refine .inr ⟨_, rfl, ?_, ?_⟩
    · have finish : (table.word ++ '(' :: (key.word ++ [')'])).reverse =
          ')' :: (table.word ++ '(' :: key.word).reverse := by
        simp
      refine isClean_of_stops (List.append_ne_nil_of_left_ne_nil table.nonempty _)
        (table.isClean.stops.1.append table.nonempty _) (finish ▸ stops_cons.2 (by decide)) ?_
      rw [List.mem_append, List.mem_cons, List.mem_append, List.mem_singleton]
      rintro (hx | hx | hx | hx)
      · exact absurd (table.allWord _ hx) (by decide)
      · exact absurd hx (by decide)
      · exact absurd (key.allWord _ hx) (by decide)
      · exact absurd hx (by decide)
    · have closed : Lacks clauseWords (key.word ++ [')']) :=
        h.2.join isKeyword_clauseWord (by decide) (lacks_nil isKeyword_clauseWord)
      exact h.1.join isKeyword_clauseWord (by decide) closed
  | default value => exact .inr ⟨value, rfl, h.1⟩
  | notNull => exact .inl rfl
  | unique => exact .inl rfl
  | primaryKey => exact .inl rfl

theorem IsPlain.isClean (h : c.IsPlain) : IsClean c.render := by
  unfold render
  rcases h.argument with hnone | ⟨text, htext, hfragment⟩
  · rw [hnone, List.append_nil]
    exact phrase_isClean
  · rw [htext]
    exact phrase_isClean.join hfragment.toIsClean

theorem IsPlain.lacks (h : c.IsPlain) (hword : word ∈ keywords) (hne : c.keyword ≠ word) :
    Lacks [word] c.render := by
  have phrases : ∀ head ∈ heads, ∀ word ∈ keywords, head.head? ≠ some word →
      Lacks [word] (phrase head) := by
    decide +kernel
  have front : Lacks [word] (phrase c.head) :=
    phrases c.head c.head_mem word hword fun he => hne (Option.some.inj he)
  unfold render
  rcases h.argument with hnone | ⟨text, htext, hfragment⟩
  · rwa [hnone, List.append_nil]
  · rw [htext]
    exact front.join (isKeyword_of_mem hword) (by decide)
      (hfragment.noClause.subset (singleton_subset hword))

theorem isOwnChar_of_mem (hc : c.keyword ≠ "default") {x : Char} (hx : x ∈ c.render) :
    isOwnChar x = true := by
  have phrases : ∀ head ∈ heads, (phrase head).all isOwnChar = true := by decide +kernel
  rw [render, List.mem_append] at hx
  rcases hx with hx | hx
  · exact List.all_eq_true.1 (phrases c.head c.head_mem) x hx
  cases c with
  | references table key =>
    rw [argument, List.mem_cons, List.mem_append, List.mem_cons, List.mem_append,
      List.mem_singleton] at hx
    rcases hx with rfl | hx | rfl | hx | rfl
    · decide
    · exact table.isOwnChar_of_mem hx
    · decide
    · exact key.isOwnChar_of_mem hx
    · decide
  | default value => exact absurd rfl hc
  | notNull => cases hx
  | unique => cases hx
  | primaryKey => cases hx

end WrittenClause

section ClauseText

variable {clauses : List WrittenClause} {text : List Char}

theorem clauseText_cons (c : WrittenClause) (clauses : List WrittenClause) :
    clauseText (c :: clauses) = ' ' :: (c.render ++ clauseText clauses) := rfl

theorem clauseText_append (before after : List WrittenClause) :
    clauseText (before ++ after) = clauseText before ++ clauseText after :=
  List.flatMap_append

theorem stops_clauseText {p : Char → Bool} (hp : p ' ' = false) (clauses : List WrittenClause) :
    Stops p (clauseText clauses) := by
  cases clauses with
  | nil => exact Stops.nil
  | cons c clauses => exact stops_cons.2 hp

/-- What holds of texts with a blank between them holds of a text and the clauses behind it. -/
theorem append_clauseText {P : List Char → Prop} (join : ∀ a b, P a → P b → P (a ++ ' ' :: b))
    (htext : P text) (h : ∀ c ∈ clauses, P c.render) : P (text ++ clauseText clauses) := by
  induction clauses generalizing text with
  | nil => rwa [clauseText, List.flatMap_nil, List.append_nil]
  | cons c clauses ih =>
    rw [List.forall_mem_cons] at h
    have assoc : text ++ clauseText (c :: clauses) =
        (text ++ ' ' :: c.render) ++ clauseText clauses := by
      rw [clauseText_cons, List.append_assoc, List.cons_append]
    rw [assoc]
    exact ih (join _ _ htext h.1) h.2

theorem IsClean.append_clauseText (htext : IsClean text) (h : ∀ c ∈ clauses, c.IsPlain) :
    IsClean (text ++ clauseText clauses) :=
  Ddl.append_clauseText (fun _ _ => IsClean.join) htext fun c hc => (h c hc).isClean

theorem lacks_append_clauseText {word : String} (hword : word ∈ WrittenClause.keywords)
    (htext : Lacks [word] text) (h : ∀ c ∈ clauses, c.IsPlain)
    (hne : ∀ c ∈ clauses, c.keyword ≠ word) : Lacks [word] (text ++ clauseText clauses) :=
  append_clauseText (fun _ _ => Lacks.join (WrittenClause.isKeyword_of_mem hword) (by decide)) htext
    fun c hc => (h c hc).lacks hword (hne c hc)

theorem isOwnChar_of_mem_clauseText (h : ∀ c ∈ clauses, c.keyword ≠ "default") :
    ∀ x ∈ clauseText clauses, isOwnChar x = true := by
  intro x hx
  obtain ⟨c, hc, hx⟩ := List.mem_flatMap.1 hx
  rcases List.mem_cons.1 hx with rfl | hx
  · decide
  · exact WrittenClause.isOwnChar_of_mem (h c hc) hx

end ClauseText

/-! ## Clauses that are read -/

namespace WrittenClause

variable {c : WrittenClause} {passed rest : List Char}

theorem phrase?_head (c : WrittenClause) (passed rest : List Char) :
    Cursor.phrase? c.head ⟨passed, phrase c.head ++ rest⟩ =
      some ⟨(phrase c.head).reverse ++ passed, rest⟩ := by
  have small : ∀ head ∈ heads, ∀ word ∈ head,
      word.toList.all (fun l => foldCase l == l) = true := by
    decide
  exact phrase?_append (small c.head c.head_mem) c.head_words

theorem stops_argument (c : WrittenClause) (stop : Stops isWord rest) :
    Stops isWord (c.argument ++ rest) := by
  cases c with
  | references table key => exact stops_cons.2 (by decide)
  | default value => exact stops_cons.2 (by decide)
  | notNull => exact stop
  | unique => exact stop
  | primaryKey => exact stop

/-- The words of a clause stand between boundaries. -/
theorem boundary?_phrase (c : WrittenClause) (start : Stops isWord passed) (stop : Stops isWord rest) :
    Cursor.boundary? ⟨passed, phrase c.head ++ rest⟩ = some ⟨passed, phrase c.head ++ rest⟩ ∧
      Cursor.boundary? ⟨(phrase c.head).reverse ++ passed, rest⟩ =
        some ⟨(phrase c.head).reverse ++ passed, rest⟩ := by
  have letters : ∀ head ∈ heads, (phrase head).head?.any isWord = true ∧
      (phrase head).reverse.head?.any isWord = true := by
    decide
  have begins : ∀ front back : List Char, front.head?.any isWord = true →
      (front ++ back).head?.any isWord = true := by
    intro front back hfront
    cases front with
    | nil => cases hfront
    | cons x front => exact hfront
  obtain ⟨hfirst, hlast⟩ := letters c.head c.head_mem
  rw [stops_iff_any] at start stop
  constructor
  · simp only [Cursor.boundary?, Cursor.atBoundary, begins _ rest hfirst, start]
    rfl
  · simp only [Cursor.boundary?, Cursor.atBoundary, begins _ passed hlast, stop]
    rfl

theorem wholePhrase?_written (c : WrittenClause) (passed : List Char) (stop : Stops isWord rest) :
    Cursor.wholePhrase? c.head ⟨' ' :: passed, c.render ++ rest⟩ =
      some ⟨(phrase c.head).reverse ++ ' ' :: passed, c.argument ++ rest⟩ := by
  have blank : Stops isWord (' ' :: passed) := stops_cons.2 (by decide)
  obtain ⟨start, finish⟩ := c.boundary?_phrase blank (c.stops_argument stop)
  rw [render, List.append_assoc]
  simp only [Cursor.wholePhrase?, start, c.phrase?_head, finish, Option.bind_eq_bind,
    Option.bind_some]

theorem clause?_written (heads : List (List String)) (h : c.head ∈ heads) (passed : List Char)
    (stop : Stops isWord rest) :
    ∃ d, clause? heads ⟨passed, ' ' :: (c.render ++ rest)⟩ = some d := by
  have blank : Stops isWord (' ' :: passed) := stops_cons.2 (by decide)
  obtain ⟨-, finish⟩ := c.boundary?_phrase blank (c.stops_argument stop)
  have space : isBlank ' ' = true := by decide
  rw [render, List.append_assoc]
  simp only [clause?, if_pos space]
  refine Option.isSome_iff_exists.1 (List.findSome?_isSome_iff.2 ⟨c.head, h, ?_⟩)
  rw [c.phrase?_head, Option.bind_some, finish]
  rfl

end WrittenClause

/-- A clause is read only where one of the words stands behind a blank. -/
theorem wordAt_of_clause? {heads : List (List String)} {words : List String}
    (first : ∀ head ∈ heads, ∃ word ∈ words, head.head? = some word)
    (keywords : ∀ word ∈ words, IsKeyword word) {passed rest : List Char} {d : Cursor}
    (read : clause? heads ⟨passed, rest⟩ = some d) :
    ∃ x more, rest = x :: more ∧ ∃ word ∈ words, WordAt word ⟨x :: passed, more⟩ := by
  unfold clause? at read
  split at read
  · cases read
  next x more hrest =>
    dsimp only at hrest
    refine ⟨x, more, hrest, ?_⟩
    split at read
    next hx =>
      obtain ⟨head, hhead, hread⟩ := List.exists_of_findSome?_eq_some read
      obtain ⟨word, hword, hfirst⟩ := first head hhead
      obtain ⟨others, rfl⟩ := List.head?_eq_some_iff.1 hfirst
      obtain ⟨e, hphrase, hfinish⟩ := Option.bind_eq_some_iff.1 hread
      exact ⟨word, hword, wordAt_of_phrase? (keywords word hword)
        (stops_cons.2 (isWord_of_isBlank hx)) hphrase hfinish⟩
    next => cases read

/-- The search for clauses passes a text without their words. -/
theorem search?_clause_append {heads : List (List String)} {words : List String}
    (first : ∀ head ∈ heads, ∃ word ∈ words, head.head? = some word)
    (keywords : ∀ word ∈ words, IsKeyword word) {text rest : List Char} (hlacks : Lacks words text)
    (stop : Stops isWord rest) :
    search? (clause? heads) (text ++ rest) = Cursor.findFrom (clause? heads) text.reverse rest := by
  have passes := @Cursor.findFrom_append _ (clause? heads) [] text rest fun a b hsplit hb => by
    rw [List.append_nil]
    by_contra hsome
    obtain ⟨d, hread⟩ := Option.ne_none_iff_exists'.1 hsome
    obtain ⟨x, more, hrest, word, hword, stands⟩ := wordAt_of_clause? first keywords hread
    obtain ⟨y, b, rfl⟩ := List.exists_cons_of_ne_nil hb
    obtain ⟨rfl, hmore⟩ := List.cons.inj hrest
    rw [← hmore, List.append_eq, wordAt_append stop] at stands
    refine (lacks_iff keywords).1 hlacks word hword (a ++ [y]) b (by simp [hsplit]) ?_
    rwa [List.reverse_append]
  rw [search?, Cursor.find?, Cursor.start, passes, List.append_nil]

/-- A text ends at the first clause behind it. -/
theorem beforeClause_append {heads : List (List String)}
    (first : ∀ head ∈ heads, ∃ word ∈ clauseWords, head.head? = some word) {text : List Char}
    (hlacks : Lacks clauseWords text) {clauses : List WrittenClause}
    (h : ∀ c ∈ clauses, c.head ∈ heads) :
    beforeClause heads (text ++ clauseText clauses) = trim text := by
  have passes := search?_clause_append first isKeyword_clauseWord hlacks
    (stops_clauseText (p := isWord) (by decide) clauses)
  unfold beforeClause
  rw [passes]
  cases clauses with
  | nil => simp [clauseText, Cursor.findFrom, clause?]
  | cons c clauses =>
    obtain ⟨d, read⟩ := WrittenClause.clause?_written heads (h c List.mem_cons_self) text.reverse
      (stops_clauseText (p := isWord) (by decide) clauses)
    rw [clauseText_cons, Cursor.findFrom_of_some read]
    simp

theorem length_beforeClause_lt {heads : List (List String)} {text : List Char}
    (h : occurs (clause? heads) text = true) : (beforeClause heads text).length < text.length := by
  obtain ⟨⟨place, d⟩, hsearch⟩ := Option.isSome_iff_exists.1 h
  obtain ⟨before, after, rfl, rfl, hread, -⟩ := Cursor.exists_of_findFrom hsearch
  have behind : after ≠ [] := by
    rintro rfl
    cases hread
  have front := (infix_trim before).length_le
  have more := List.length_pos_iff.2 behind
  simp only [beforeClause, hsearch, Cursor.start, List.append_nil, List.reverse_reverse,
    List.length_append]
  omega

theorem beforeClause_of_not_occurs {heads : List (List String)} {text : List Char}
    (h : occurs (clause? heads) text = false) : beforeClause heads text = trim text := by
  rw [occurs, Option.isSome_eq_false_iff, Option.isNone_iff_eq_none] at h
  rw [beforeClause, h]

/-! ## Arguments of clauses -/

theorem wordAt_of_wordAndBlanks? {word : String} (h : IsKeyword word) {c d e : Cursor}
    (start : c.boundary? = some d) (read : wordAndBlanks? word d = some e) : WordAt word c := by
  obtain ⟨f, hspelled, hblanks⟩ := Option.bind_eq_some_iff.1 read
  exact wordAt_of_boundary? h start hspelled (stops_of_blanks? hblanks)

theorem needsWord_default? : NeedsWord "default" default? := by
  intro c value hread
  simp only [default?, Option.bind_eq_bind, Option.bind_eq_some_iff] at hread
  obtain ⟨d, hstart, e, hkeyword, -⟩ := hread
  exact wordAt_of_wordAndBlanks? (by decide) hstart hkeyword

theorem needsWord_references? : NeedsWord "references" references? := by
  intro c key hread
  simp only [references?, Option.bind_eq_bind, Option.bind_eq_some_iff] at hread
  obtain ⟨d, hstart, e, hkeyword, -⟩ := hread
  exact wordAt_of_wordAndBlanks? (by decide) hstart hkeyword

/-- A keyword behind a blank, and what is behind it. -/
theorem keyword_written (word : String) (h : [word] ∈ WrittenClause.heads) (passed : List Char)
    {rest : List Char} (stop : Stops isBlank rest) :
    (Cursor.boundary? ⟨' ' :: passed, word.toList ++ ' ' :: rest⟩).bind (wordAndBlanks? word) =
      some ⟨' ' :: (word.toList.reverse ++ ' ' :: passed), rest⟩ := by
  have letters : ∀ head ∈ WrittenClause.heads, ∀ word ∈ head, IsKeyword word ∧
      word.toList.all (fun l => foldCase l == l) = true ∧ word.toList.all isWord = true := by
    decide
  obtain ⟨hkeyword, small, hword⟩ := letters [word] h word List.mem_cons_self
  have blank : Stops isWord (' ' :: passed) := stops_cons.2 (by decide)
  have start : Cursor.boundary? ⟨' ' :: passed, word.toList ++ ' ' :: rest⟩ =
      some ⟨' ' :: passed, word.toList ++ ' ' :: rest⟩ := by
    obtain ⟨d, hd⟩ := Option.isSome_iff_exists.1 <|
      (boundary?_before hkeyword.1 (List.all_eq_true.1 hword) (' ' :: passed) (' ' :: rest)).2 blank
    rw [hd, eq_of_boundary? hd]
  rw [start, Option.bind_some, wordAndBlanks?_append small stop]

theorem default?_written (passed : List Char) {text : List Char} (start : Stops isBlank text)
    (nonempty : text ≠ []) (onLine : '\n' ∉ text) :
    default? ⟨' ' :: passed, "default".toList ++ ' ' :: text⟩ = some text := by
  obtain ⟨c, hc, hread⟩ :=
    Option.bind_eq_some_iff.1 (keyword_written "default" (by decide) passed start)
  simp only [default?, hc, hread, Option.bind_eq_bind, Option.bind_some]
  simp [nonempty, onLine]

/-- A default is on one line, and in front of it is its keyword and a blank. -/
theorem exists_of_default? {c : Cursor} {text : List Char} (h : default? c = some text) :
    '\n' ∉ text ∧ ∃ passed, c.rest = passed ++ text ∧ "default ".toList.length ≤ passed.length := by
  simp only [default?, Option.bind_eq_bind, Option.bind_eq_some_iff] at h
  obtain ⟨d, hstart, e, hkeyword, hline⟩ := h
  obtain rfl := eq_of_boundary? hstart
  obtain ⟨f, hspelled, hblanks⟩ := Option.bind_eq_some_iff.1 hkeyword
  obtain ⟨passed, rest⟩ := d
  obtain ⟨run, more, rfl, hrun, rfl⟩ := letters?_eq_some_iff.1 hspelled
  obtain ⟨⟨blanks, e⟩, hread, rfl⟩ := Option.map_eq_some_iff.1 hblanks
  obtain ⟨hne, -, left, rfl, rfl⟩ := Cursor.exists_of_run? hread
  split at hline
  · cases hline
  next onLine =>
    cases hline
    rw [Bool.or_eq_true, not_or] at onLine
    refine ⟨by simpa using onLine.2, run ++ blanks, by rw [List.append_assoc], ?_⟩
    have letters := congrArg List.length hrun
    have blank := List.length_pos_iff.2 hne
    rw [List.length_map] at letters
    rw [List.length_append, letters]
    exact Nat.add_le_add_left blank _

theorem references?_written (table key : PlainName) (passed rest : List Char) :
    references? ⟨' ' :: passed, (WrittenClause.references table key).render ++ rest⟩ =
      some ⟨String.ofList table.word, String.ofList key.word⟩ := by
  have written : (WrittenClause.references table key).render ++ rest =
      "references".toList ++ ' ' :: (table.word ++ '(' :: (key.word ++ ')' :: rest)) := by
    simp [WrittenClause.render_references]
  have start := keyword_written "references" (by decide) passed
    (table.isClean.stops.1.append table.nonempty ('(' :: (key.word ++ ')' :: rest)))
  obtain ⟨c, hc, hread⟩ := Option.bind_eq_some_iff.1 start
  have opening : Stops isBlank ('(' :: (key.word ++ ')' :: rest)) := stops_cons.2 (by decide)
  have inside : Stops isBlank (key.word ++ ')' :: rest) :=
    key.isClean.stops.1.append key.nonempty _
  have closing : Stops isBlank (')' :: rest) := stops_cons.2 (by decide)
  have tableEnd : Stops isNameChar ('(' :: (key.word ++ ')' :: rest)) := stops_cons.2 (by decide)
  have keyEnd : Stops isNameChar (')' :: rest) := stops_cons.2 (by decide)
  have unqualified : qualifier? ⟨' ' :: ("references".toList.reverse ++ ' ' :: passed),
      table.word ++ '(' :: (key.word ++ ')' :: rest)⟩ = none := by
    refine WrittenPath.qualifier?_of_no_point table.written tableEnd ?_
    rw [opening.dropWhile, List.head?_cons]
    decide
  rw [written]
  simp only [references?, hc, hread, qualifiedName?, unqualified, Option.getD_none,
    table.read _ tableEnd, Cursor.skipBlanks, Cursor.skipWhile_of_stops opening, Cursor.char?, if_true,
    Cursor.skipWhile_of_stops inside, key.read _ keyEnd, Cursor.skipWhile_of_stops closing,
    Option.bind_eq_bind, Option.bind_some, Option.pure_def]

end ReleaseSchema.Ddl
