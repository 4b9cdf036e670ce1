/-
What the readers of literals make of a text that is written for a literal. A
quoted text with its quotes doubled is read back whatever it holds
(`quotedFrom?_doubled`); the readers that know backslashes read back a text
without them (`ReadsLiteral`). Each reader stops where no further quote follows.

A comment ends at the mark that closes it when the marks inside it are paired
(`commentFrom?_append`), which blanks do not change (`commentLevel?_collapse`),
and at the first such mark when no other comment begins in it
(`commentFrom?_closed`).
-/
import ReleaseSchema.Proofs.Text.Search
import ReleaseSchema.Proofs.Text.Trim
import ReleaseSchema.Sql.Literal

namespace ReleaseSchema.Text

variable {quote : Char} {text : List Char}

theorem doubled_of_not_mem (h : quote ∉ text) : doubled quote text = text := by
  induction text with
  | nil => rfl
  | cons c text ih =>
    rw [List.mem_cons, not_or] at h
    rw [doubled, if_neg (Ne.symm h.1), ih h.2]

end ReleaseSchema.Text

namespace ReleaseSchema.Sql

open Text

/-! ## Quoted texts -/

section Quoted

variable {quote : Char} {read text s after : List Char}

/-- A quoted text was written with its quotes doubled, and no quote follows it. -/
theorem exists_of_quotedFrom? (h : quotedFrom? quote read text = some (s, after)) :
    ∃ inside, s = read.reverse ++ inside ∧ text = doubled quote inside ++ quote :: after ∧
      Stops (· == quote) after := by
  fun_induction quotedFrom? quote read text with
  | case1 => cases h
  | case2 read =>
    cases h
    exact ⟨[], by simp, rfl, Stops.nil⟩
  | case3 read more ih =>
    obtain ⟨inside, rfl, rfl, stop⟩ := ih h
    refine ⟨quote :: inside, by simp, ?_, stop⟩
    rw [doubled, if_pos rfl]
    rfl
  | case4 read next more hnext =>
    cases h
    exact ⟨[], by simp, rfl, stops_cons.2 (by simpa using hnext)⟩
  | case5 read c rest hc ih =>
    obtain ⟨inside, rfl, rfl, stop⟩ := ih h
    refine ⟨c :: inside, by simp, ?_, stop⟩
    rw [doubled, if_neg hc]
    rfl

theorem quotedFrom?_doubled (inside : List Char) (stop : Stops (· == quote) after) :
    quotedFrom? quote read (doubled quote inside ++ quote :: after) =
      some (read.reverse ++ inside, after) := by
  induction inside generalizing read with
  | nil =>
    rw [doubled, List.nil_append, List.append_nil]
    cases after with
    | nil => simp only [quotedFrom?, if_true]
    | cons next more =>
      have hnext : next ≠ quote := by simpa using stops_cons.1 stop
      simp only [quotedFrom?, if_true, if_neg hnext]
  | cons c inside ih =>
    rw [doubled]
    by_cases hc : c = quote
    · subst hc
      rw [if_pos rfl, List.cons_append, List.cons_append]
      simp only [quotedFrom?, if_true, ih, List.reverse_cons, List.append_assoc,
        List.singleton_append]
    · rw [if_neg hc, List.cons_append, quotedFrom?.eq_def]
      simp only [if_neg hc, ih, List.reverse_cons, List.append_assoc, List.singleton_append]

end Quoted

/-! ## Literals with backslashes -/

section Backslashes

variable {read text s after : List Char}

theorem stops_of_backslashedFrom? (h : backslashedFrom? read text = some (s, after)) :
    Stops (· == '\'') after := by
  fun_induction backslashedFrom? read text with
  | case1 => cases h
  | case2 read rest ih => exact ih h
  | case3 read rest hrest =>
    cases h
    cases after with
    | nil => exact Stops.nil
    | cons c after => exact stops_cons.2 (by simpa using fun hc => hrest after (by rw [hc]))
  | case4 read c rest ih => exact ih h
  | case5 => cases h
  | case6 read c rest _ _ _ _ ih => exact ih h

theorem stops_of_escapedFrom? (h : escapedFrom? read text = some (s, after)) :
    Stops (· == '\'') after := by
  fun_induction escapedFrom? read text with
  | case1 => cases h
  | case2 read rest ih => exact ih h
  | case3 read rest hrest =>
    cases h
    cases after with
    | nil => exact Stops.nil
    | cons c after => exact stops_cons.2 (by simpa using fun hc => hrest after (by rw [hc]))
  | case4 => cases h
  | case5 read rest c next hescape hc ih => exact ih h
  | case6 => cases h
  | case7 read c rest _ _ _ ih => exact ih h

theorem stops_of_unicodeFrom? (h : unicodeFrom? read text = some (s, after)) :
    Stops (· == '\'') after := by
  fun_induction unicodeFrom? read text with
  | case1 => cases h
  | case2 read rest ih => exact ih h
  | case3 read rest hrest =>
    cases h
    cases after with
    | nil => exact Stops.nil
    | cons c after => exact stops_cons.2 (by simpa using fun hc => hrest after (by rw [hc]))
  | case4 read rest c next hcode ih => exact ih h
  | case5 => cases h
  | case6 read c rest _ _ _ ih => exact ih h

end Backslashes

/-- A reader of what is inside single quotes. It takes a character as it is, unless that is a quote or
a backslash, takes a pair of quotes for one, and stops behind a single quote. -/
structure ReadsLiteral (reader : List Char → List Char → Option (List Char × List Char)) : Prop where
  cons : ∀ {c read rest}, c ≠ '\'' → c ≠ '\\' → reader read (c :: rest) = reader (c :: read) rest
  pair : ∀ read rest, reader read ('\'' :: '\'' :: rest) = reader ('\'' :: read) rest
  close : ∀ {read after}, Stops (· == '\'') after →
    reader read ('\'' :: after) = some (read.reverse, after)

theorem readsLiteral_backslashedFrom? : ReadsLiteral backslashedFrom? where
  cons quote plain := by
    rw [backslashedFrom?]
    all_goals simp [quote, plain]
  pair _ _ := by rw [backslashedFrom?]
  close stop := by
    rw [backslashedFrom?]
    rintro rest rfl
    simp [Stops] at stop

theorem readsLiteral_escapedFrom? : ReadsLiteral escapedFrom? where
  cons quote plain := by
    rw [escapedFrom?]
    all_goals simp [quote, plain]
  pair _ _ := by rw [escapedFrom?]
  close stop := by
    rw [escapedFrom?]
    rintro rest rfl
    simp [Stops] at stop

theorem readsLiteral_unicodeFrom? : ReadsLiteral unicodeFrom? where
  cons quote plain := by
    rw [unicodeFrom?]
    all_goals simp [quote, plain]
  pair _ _ := by rw [unicodeFrom?]
  close stop := by
    rw [unicodeFrom?]
    rintro rest rfl
    simp [Stops] at stop

namespace ReadsLiteral

variable {reader : List Char → List Char → Option (List Char × List Char)}
  {read inside after : List Char}

/-- Behind a backslash a character may mean another one, so there is none. -/
theorem doubled (h : ReadsLiteral reader) (plain : '\\' ∉ inside) (stop : Stops (· == '\'') after) :
    reader read (Text.doubled '\'' inside ++ '\'' :: after) =
      some (read.reverse ++ inside, after) := by
  induction inside generalizing read with
  | nil => rw [Text.doubled, List.nil_append, List.append_nil, h.close stop]
  | cons c inside ih =>
    rw [List.mem_cons, not_or] at plain
    rw [Text.doubled]
    by_cases hc : c = '\''
    · subst hc
      rw [if_pos rfl, List.cons_append, List.cons_append, h.pair, ih plain.2, List.reverse_cons,
        List.append_assoc, List.singleton_append]
    · rw [if_neg hc, List.cons_append, h.cons hc (Ne.symm plain.1), ih plain.2, List.reverse_cons,
        List.append_assoc, List.singleton_append]

theorem plain (h : ReadsLiteral reader) (plain : '\'' ∉ inside ∧ '\\' ∉ inside)
    (stop : Stops (· == '\'') after) :
    reader read (inside ++ '\'' :: after) = some (read.reverse ++ inside, after) := by
  have read := @doubled reader read inside after h plain.2 stop
  rwa [doubled_of_not_mem plain.1] at read

end ReadsLiteral

/-! ## Comments -/

/-- How many comments are open behind a text in which `inner` were open before; none if it closes
one more than are. -/
def commentLevel? (inner : Nat) : List Char → Option Nat
  | [] => some inner
  | '/' :: '*' :: rest => commentLevel? (inner + 1) rest
  | '*' :: '/' :: rest =>
    match inner with
    | 0 => none
    | outer + 1 => commentLevel? outer rest
  | _ :: rest => commentLevel? inner rest

section Comments

variable {inner : Nat} {read text body rest : List Char} {c : Char}

/-- A character that begins no mark. -/
theorem commentLevel?_cons (hopen : ∀ more, c = '/' → rest ≠ '*' :: more)
    (hclose : ∀ more, c = '*' → rest ≠ '/' :: more) :
    commentLevel? inner (c :: rest) = commentLevel? inner rest := by
  rw [commentLevel?]
  · exact fun more hc hrest => hopen more hc hrest
  · exact fun more hc hrest => hclose more hc hrest

theorem commentFrom?_cons (hopen : ∀ more, c = '/' → rest ≠ '*' :: more)
    (hclose : ∀ more, c = '*' → rest ≠ '/' :: more) :
    commentFrom? inner read (c :: rest) = commentFrom? inner (c :: read) rest := by
  rw [commentFrom?]
  · exact fun more hc hrest => hopen more hc hrest
  · exact fun more hc hrest => hclose more hc hrest

/-- The marks inside a comment that was read are paired. -/
theorem exists_of_commentFrom? (h : commentFrom? inner read text = some (body, rest)) :
    ∃ inside, body = read.reverse ++ inside ∧ text = inside ++ '*' :: '/' :: rest ∧
      commentLevel? inner inside = some 0 := by
  fun_induction commentFrom? inner read text with
  | case1 => cases h
  | case2 inner read rest ih =>
    obtain ⟨inside, rfl, rfl, hinside⟩ := ih h
    exact ⟨'/' :: '*' :: inside, by simp, rfl, by rw [commentLevel?, hinside]⟩
  | case3 read rest =>
    cases h
    exact ⟨[], by simp, rfl, rfl⟩
  | case4 read rest outer ih =>
    obtain ⟨inside, rfl, rfl, hinside⟩ := ih h
    exact ⟨'*' :: '/' :: inside, by simp, rfl, by rw [commentLevel?, hinside]⟩
  | case5 inner read c rest hopen hclose ih =>
    obtain ⟨inside, rfl, rfl, hinside⟩ := ih h
    refine ⟨c :: inside, by simp, rfl, ?_⟩
    rw [commentLevel?_cons, hinside]
    · rintro more hc rfl
      exact hopen _ hc rfl
    · rintro more hc rfl
      exact hclose _ hc rfl

/-- A comment ends at its closing mark if the marks inside it are paired, and a space stands before
that mark. -/
theorem commentFrom?_append (h : commentLevel? inner body = some 0) (rest : List Char) :
    commentFrom? inner read (body ++ " */".toList ++ rest) =
      some (read.reverse ++ body ++ [' '], rest) := by
  fun_induction commentLevel? inner body generalizing read with
  | case1 inner =>
    cases h
    have closing : [] ++ " */".toList ++ rest = ' ' :: '*' :: '/' :: rest := rfl
    rw [closing, commentFrom?_cons (by simp) (by simp), commentFrom?]
    simp
  | case2 inner body ih =>
    simp only [List.cons_append, commentFrom?]
    rw [ih h]
    simp
  | case3 => cases h
  | case4 body outer ih =>
    simp only [List.cons_append, commentFrom?]
    rw [ih h]
    simp
  | case5 inner c body hopen hclose ih =>
    rw [List.cons_append, List.cons_append, commentFrom?_cons, ih h]
    · simp
    · intro more hc hbody
      cases body with
      | nil => simp at hbody
      | cons x body =>
        obtain ⟨rfl, -⟩ := List.cons.inj hbody
        exact hopen body hc rfl
    · intro more hc hbody
      cases body with
      | nil => simp at hbody
      | cons x body =>
        obtain ⟨rfl, -⟩ := List.cons.inj hbody
        exact hclose body hc rfl

/-- A comment in which no other one begins ends at the first mark that closes it. -/
theorem commentFrom?_closed (closed : Closes ['*', '/'] body)
    (noOther : ¬['/', '*'] <:+: body ++ ['*', '/']) (rest : List Char) :
    commentFrom? 0 read (body ++ (['*', '/'] ++ rest)) = some (read.reverse ++ body, rest) := by
  induction body generalizing read with
  | nil => simp [commentFrom?]
  | cons c body ih =>
    obtain ⟨here, behind⟩ := closes_cons.1 closed
    have other : ¬['/', '*'] <:+: body ++ ['*', '/'] := fun h => noOther (h.trans ⟨[c], [], by simp⟩)
    -- a mark that begins here would end inside the comment or the mark behind it
    have inside : ∀ x more, body ++ (['*', '/'] ++ rest) = x :: more →
        [c, x] <+: c :: (body ++ ['*', '/']) := by
      intro x more hmore
      obtain ⟨y, left, hleft⟩ := List.exists_cons_of_ne_nil (l := body ++ ['*', '/']) (by simp)
      rw [← List.append_assoc, hleft] at hmore
      obtain ⟨rfl, -⟩ := List.cons.inj hmore
      exact ⟨left, by simp [hleft]⟩
    rw [List.cons_append, commentFrom?_cons, ih behind other]
    · simp
    · rintro more rfl hmore
      exact noOther (inside _ _ hmore).isInfix
    · rintro more rfl hmore
      exact here (inside _ _ hmore)

/-! ### Blanks in comments -/

theorem commentLevel?_blank (h : isBlank c = true) (rest : List Char) :
    commentLevel? inner (c :: rest) = commentLevel? inner rest := by
  refine commentLevel?_cons (fun more hc => ?_) fun more hc => ?_
  · rw [hc] at h
    exact absurd h (by decide)
  · rw [hc] at h
    exact absurd h (by decide)

theorem commentLevel?_append_blanks {blanks : List Char} (h : ∀ c ∈ blanks, isBlank c = true)
    (inner : Nat) (body : List Char) :
    commentLevel? inner (body ++ blanks) = commentLevel? inner body := by
  fun_induction commentLevel? inner body with
  | case1 inner =>
    induction blanks with
    | nil => rfl
    | cons c blanks ih =>
      rw [List.nil_append, commentLevel?_blank (h c List.mem_cons_self)]
      exact ih fun c hc => h c (List.mem_cons_of_mem _ hc)
  | case2 inner body ih => simp only [List.cons_append, commentLevel?, ih]
  | case3 body => simp only [List.cons_append, commentLevel?]
  | case4 body outer ih => simp only [List.cons_append, commentLevel?, ih]
  | case5 inner c body hopen hclose ih =>
    have mark : ∀ x more, body ++ blanks = x :: more → isBlank x = false →
        ∃ body', body = x :: body' := by
      intro x more hbody hx
      cases body with
      | nil =>
        rw [List.nil_append] at hbody
        rw [h x (hbody ▸ List.mem_cons_self)] at hx
        cases hx
      | cons y body =>
        obtain ⟨rfl, -⟩ := List.cons.inj hbody
        exact ⟨body, rfl⟩
    rw [List.cons_append, commentLevel?_cons, ih]
    · intro more hc hbody
      obtain ⟨body', rfl⟩ := mark _ more hbody (by decide)
      exact hopen body' hc rfl
    · intro more hc hbody
      obtain ⟨body', rfl⟩ := mark _ more hbody (by decide)
      exact hclose body' hc rfl

theorem commentLevel?_trim (inner : Nat) (body : List Char) :
    commentLevel? inner (trim body) = commentLevel? inner body := by
  have finish : ∀ text, commentLevel? inner (trimEnd text) = commentLevel? inner text := by
    intro text
    have blanks : ∀ c ∈ (text.reverse.takeWhile isBlank).reverse, isBlank c = true :=
      fun c hc => List.mem_takeWhile_imp (List.mem_reverse.1 hc)
    rw [← commentLevel?_append_blanks blanks inner (trimEnd text), trimEnd_append]
  rw [trim, finish, trimStart]
  induction body with
  | nil => rfl
  | cons c body ih =>
    rw [List.dropWhile_cons]
    split
    next hc => rw [ih, commentLevel?_blank hc]
    next => rfl

theorem commentLevel?_collapse (inner : Nat) (inRun : Bool) (body : List Char) :
    commentLevel? inner (collapseFrom inRun body) = commentLevel? inner body := by
  have slash : isBlank '/' = false := by decide
  have star : isBlank '*' = false := by decide
  fun_induction commentLevel? inner body generalizing inRun with
  | case1 inner => rfl
  | case2 inner body ih =>
    simp only [collapseFrom, slash, star, Bool.false_eq_true, if_false, commentLevel?, ih]
  | case3 body =>
    simp only [collapseFrom, slash, star, Bool.false_eq_true, if_false, commentLevel?]
  | case4 body outer ih =>
    simp only [collapseFrom, slash, star, Bool.false_eq_true, if_false, commentLevel?, ih]
  | case5 inner c body hopen hclose ih =>
    have space : isBlank ' ' = true := by decide
    rw [collapseFrom]
    split
    · split
      · exact ih true
      · rw [commentLevel?_blank space, ih true]
    · -- the mark would begin the same way before the blanks are collapsed
      have mark : ∀ x more, collapseFrom false body = x :: more → isBlank x = false →
          ∃ body', body = x :: body' := by
        intro x more hbody hx
        cases body with
        | nil => cases hbody
        | cons y body =>
          rw [collapseFrom] at hbody
          split at hbody
          · obtain ⟨rfl, -⟩ := List.cons.inj hbody
            cases hx
          · obtain ⟨rfl, -⟩ := List.cons.inj hbody
            exact ⟨body, rfl⟩
      rw [commentLevel?_cons, ih false]
      · intro more hc hbody
        obtain ⟨body', rfl⟩ := mark _ more hbody (by decide)
        exact hopen body' hc rfl
      · intro more hc hbody
        obtain ⟨body', rfl⟩ := mark _ more hbody (by decide)
        exact hclose body' hc rfl

end Comments

end ReleaseSchema.Sql
