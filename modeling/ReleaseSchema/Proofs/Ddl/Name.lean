/-
Names as they are written: a word that may stand between double quotes, and in
front of it a schema that is such a word too. The readers of names give back
the word they were written with, whatever follows (`name?_render`,
`qualifiedName?_render`).
-/
import ReleaseSchema.Ddl.Name
import ReleaseSchema.Proofs.Text.WholeWord

namespace ReleaseSchema.Ddl

open Text

/-! ## Keywords -/

/-- Small letters are read where they are written. -/
theorem letters?_append {letters passed rest : List Char}
    (small : letters.all (fun l => foldCase l == l) = true) :
    Cursor.letters? letters ⟨passed, letters ++ rest⟩ = some ⟨letters.reverse ++ passed, rest⟩ := by
  have folds : letters.map foldCase = letters :=
    (List.map_congr_left fun l hl => beq_iff_eq.1 (List.all_eq_true.1 small l hl)).trans
      (List.map_id letters)
  exact letters?_eq_some_iff.2 ⟨_, _, rfl, folds, rfl⟩

theorem spelled?_append {word : String}
    (small : word.toList.all (fun l => foldCase l == l) = true)
    {passed rest : List Char} :
    Cursor.spelled? word ⟨passed, word.toList ++ rest⟩ =
      some ⟨word.toList.reverse ++ passed, rest⟩ :=
  letters?_append small

/-- A word is passed with all of the blanks behind it. -/
theorem wordAndBlanks?_run {word : String} {passed run gap rest : List Char}
    (spelled : Cursor.spelled? word ⟨passed, run ++ (gap ++ rest)⟩ =
      some ⟨run.reverse ++ passed, gap ++ rest⟩)
    (nonempty : gap ≠ []) (blank : ∀ c ∈ gap, isBlank c = true) (stop : Stops isBlank rest) :
    wordAndBlanks? word ⟨passed, run ++ (gap ++ rest)⟩ =
      some ⟨gap.reverse ++ (run.reverse ++ passed), rest⟩ := by
  rw [wordAndBlanks?, spelled, Option.bind_some, Cursor.blanks?,
    Cursor.run?_append nonempty blank stop]
  rfl

theorem wordAndBlanks?_append {word : String}
    (small : word.toList.all (fun l => foldCase l == l) = true)
    {passed rest : List Char} (stop : Stops isBlank rest) :
    wordAndBlanks? word ⟨passed, word.toList ++ ' ' :: rest⟩ =
      some ⟨' ' :: (word.toList.reverse ++ passed), rest⟩ :=
  wordAndBlanks?_run (spelled?_append small) (List.cons_ne_nil _ _)
    (List.forall_mem_singleton.2 (by decide)) stop

/-! ## Names -/

/-- A character that a name goes on with. -/
def isNameChar (c : Char) : Bool := isWord c || c == '"'

theorem isNameChar_of_isBlank {c : Char} (h : isBlank c = true) : isNameChar c = false :=
  of_isBlank h (P := fun c => isNameChar c = false) (by decide +kernel)

/-- A word and whether it is written between quotes. -/
structure WrittenName where
  word : List Char
  quoted : Bool
  nonempty : word ≠ []
  allWord : ∀ c ∈ word, isWord c = true

namespace WrittenName

variable (n : WrittenName) {passed rest : List Char}

def render : List Char := if n.quoted then '"' :: (n.word ++ ['"']) else n.word

theorem stops_isBlank_render : Stops isBlank (n.render ++ rest) := by
  unfold render
  split
  · exact stops_cons.2 (by decide)
  · cases hword : n.word with
    | nil => exact absurd hword n.nonempty
    | cons c word =>
      rw [List.cons_append, stops_cons, ← Bool.not_eq_true]
      intro hblank
      have hc : isWord c = true := n.allWord c (by simp [hword])
      rw [isWord_of_isBlank hblank] at hc
      cases hc

theorem skipChar_of_stops {x : Char} (stop : Stops (· == x) rest) :
    Cursor.skipChar x ⟨passed, rest⟩ = ⟨passed, rest⟩ := by
  cases rest with
  | nil => rfl
  | cons y rest =>
    have hne : y ≠ x := by simpa using stops_cons.1 stop
    simp [Cursor.skipChar, Cursor.char?, hne]

theorem skipChar_cons {x : Char} : Cursor.skipChar x ⟨passed, x :: rest⟩ = ⟨x :: passed, rest⟩ := by
  simp [Cursor.skipChar, Cursor.char?]

theorem stops_isWord (stop : Stops isNameChar rest) : Stops isWord rest :=
  stop.imp fun c hc => by simp [isNameChar, hc]

theorem stops_quote (stop : Stops isNameChar rest) : Stops (· == '"') rest :=
  stop.imp fun c hc => by
    have hc : c = '"' := by simpa using hc
    simp [isNameChar, hc]

theorem word_stops_quote : Stops (· == '"') (n.word ++ rest) := by
  cases hword : n.word with
  | nil => exact absurd hword n.nonempty
  | cons c word =>
    rw [List.cons_append, stops_cons, beq_eq_false_iff_ne]
    rintro rfl
    have : isWord '"' = true := n.allWord '"' (by simp [hword])
    revert this
    decide

theorem name?_render (stop : Stops isNameChar rest) :
    name? ⟨passed, n.render ++ rest⟩ = some (n.word, ⟨n.render.reverse ++ passed, rest⟩) := by
  unfold name? render
  split
  · have quote : Stops isWord ('"' :: rest) := stops_cons.2 (by decide)
    simp only [List.cons_append, List.append_assoc, List.nil_append, skipChar_cons]
    rw [Cursor.word?, Cursor.run?_append n.nonempty n.allWord quote]
    simp [skipChar_cons]
  · rw [skipChar_of_stops n.word_stops_quote, Cursor.word?,
      Cursor.run?_append n.nonempty n.allWord (stops_isWord stop)]
    simp [skipChar_of_stops (stops_quote stop)]

end WrittenName

/-! ## Qualified names -/

/-- A name and the schema written in front of it, if there is one. -/
structure WrittenPath where
  schema : Option WrittenName
  name : WrittenName

namespace WrittenPath

variable (p : WrittenPath) {passed rest : List Char}

def render : List Char :=
  match p.schema with
  | some schema => schema.render ++ '.' :: p.name.render
  | none => p.name.render

theorem stops_isBlank_render : Stops isBlank (p.render ++ rest) := by
  unfold render
  split
  · rw [List.append_assoc]
    exact WrittenName.stops_isBlank_render _
  · exact WrittenName.stops_isBlank_render _

/-- A schema and its point are passed, with the blanks around the point. -/
theorem qualifier?_blanks (schema name : WrittenName) {before behind : List Char}
    (hbefore : ∀ c ∈ before, isBlank c = true) (hbehind : ∀ c ∈ behind, isBlank c = true) :
    qualifier? ⟨passed, schema.render ++ (before ++ '.' :: (behind ++ (name.render ++ rest)))⟩ =
      some ⟨behind.reverse ++ '.' :: (before.reverse ++ (schema.render.reverse ++ passed)),
        name.render ++ rest⟩ := by
  have point : Stops isBlank ('.' :: (behind ++ (name.render ++ rest))) := stops_cons.2 (by decide)
  have ends : Stops isNameChar (before ++ '.' :: (behind ++ (name.render ++ rest))) := by
    cases before with
    | nil => exact stops_cons.2 (by decide)
    | cons c before => exact stops_cons.2 (isNameChar_of_isBlank (hbefore c List.mem_cons_self))
  simp only [qualifier?, schema.name?_render ends, Option.bind_eq_bind, Option.bind_some,
    Cursor.skipBlanks, Cursor.skipWhile, takeWhile_run hbefore point, dropWhile_run hbefore point,
    Cursor.char?, if_true, Option.pure_def, takeWhile_run hbehind name.stops_isBlank_render,
    dropWhile_run hbehind name.stops_isBlank_render]

theorem qualifier?_render (schema name : WrittenName) :
    qualifier? ⟨passed, schema.render ++ '.' :: (name.render ++ rest)⟩ =
      some ⟨'.' :: (schema.render.reverse ++ passed), name.render ++ rest⟩ := by
  simpa using @qualifier?_blanks passed rest schema name [] [] (by simp) (by simp)

/-- A name with no point behind it is no schema. -/
theorem qualifier?_of_no_point (name : WrittenName) (stop : Stops isNameChar rest)
    (noPoint : (rest.dropWhile isBlank).head? ≠ some '.') :
    qualifier? ⟨passed, name.render ++ rest⟩ = none := by
  simp only [qualifier?, name.name?_render stop, Option.bind_eq_bind, Option.bind_some,
    Cursor.skipBlanks, Cursor.skipWhile, Cursor.char?]
  split
  · rfl
  next x left hleft =>
    have hne : x ≠ '.' := by simpa [hleft] using noPoint
    rw [if_neg hne]
    rfl

theorem qualifiedName?_render (stop : Stops isNameChar rest)
    (noPoint : (rest.dropWhile isBlank).head? ≠ some '.') :
    qualifiedName? ⟨passed, p.render ++ rest⟩ =
      some (p.name.word, ⟨p.render.reverse ++ passed, rest⟩) := by
  unfold qualifiedName? render
  cases p.schema with
  | none =>
    simp only [qualifier?_of_no_point p.name stop noPoint, Option.getD_none]
    exact p.name.name?_render stop
  | some schema =>
    simp only [List.append_assoc, List.cons_append, qualifier?_render, Option.getD_some]
    rw [p.name.name?_render stop]
    simp

end WrittenPath

/-! ## Names in front of a character that ends them -/

/-- No name, blank or point is read over the character. -/
structure EndsName (x : Char) : Prop where
  notWord : isWord x = false
  notBlank : isBlank x = false
  notQuote : '"' ≠ x
  notPoint : '.' ≠ x

instance (x : Char) : Decidable (EndsName x) :=
  decidable_of_iff (isWord x = false ∧ isBlank x = false ∧ '"' ≠ x ∧ '.' ≠ x)
    ⟨fun ⟨notWord, notBlank, notQuote, notPoint⟩ => ⟨notWord, notBlank, notQuote, notPoint⟩,
      fun h => ⟨h.notWord, h.notBlank, h.notQuote, h.notPoint⟩⟩

section Names

variable {name : List Char} {c d : Cursor} {x : Char} (more : List Char)

open Cursor

theorem wordAndBlanks?_awaits {word : String} (hword : foldCase x ∉ word.toList) (hx : EndsName x)
    (h : c.Awaits x) :
    Agree more (Awaits x) (wordAndBlanks? word c) (wordAndBlanks? word (c.extend more)) :=
  (letters?_awaits more hword h).bind fun _ hd => blanks?_awaits more hx.notBlank hd

theorem name?_awaits (hx : EndsName x) (h : c.Awaits x) :
    Tracks (extendSnd more) (Awaits x ·.2) (name? c) (name? (c.extend more)) := by
  have quote := skipChar_awaits more hx.notQuote h
  unfold name?
  rw [quote.2]
  refine (run?_awaits more hx.notWord quote.1).bind fun a ha => ?_
  have close := skipChar_awaits more hx.notQuote ha
  simp only [extendSnd, close.2]
  exact .some (extendSnd more) close.1

theorem skipBlanks_awaits (hx : EndsName x) (h : c.Awaits x) :
    (c.extend more).skipBlanks = c.skipBlanks.extend more ∧ c.skipBlanks.Awaits x :=
  skipWhile_awaits more hx.notBlank h

theorem qualifier?_awaits (hx : EndsName x) (h : c.Awaits x) :
    Agree more (Awaits x) (qualifier? c) (qualifier? (c.extend more)) := by
  refine (name?_awaits more hx h).bind fun a ha => ?_
  have blanks := skipBlanks_awaits more hx ha
  simp only [extendSnd, blanks.1]
  refine (char?_awaits more hx.notPoint blanks.2).bind fun d hd => ?_
  have behind := skipBlanks_awaits more hx hd
  simp only [behind.1]
  exact .some behind.2

theorem qualifiedName?_awaits (hx : EndsName x) (h : c.Awaits x) :
    Tracks (extendSnd more) (Awaits x ·.2) (qualifiedName? c)
      (qualifiedName? (c.extend more)) := by
  have schema := (qualifier?_awaits more hx h).getD h
  unfold qualifiedName?
  rw [schema.2]
  exact name?_awaits more hx schema.1

theorem suffix_of_wordAndBlanks? {word : String} (h : wordAndBlanks? word c = some d) :
    d.rest <:+ c.rest := by
  obtain ⟨spelled, hspelled, hblanks⟩ := Option.bind_eq_some_iff.1 h
  exact (suffix_of_blanks? hblanks).trans (suffix_of_letters? hspelled)

theorem suffix_of_name? (h : name? c = some (name, d)) : d.rest <:+ c.rest := by
  obtain ⟨⟨word, e⟩, hword, hpair⟩ := Option.bind_eq_some_iff.1 h
  cases hpair
  exact (suffix_skipChar '"' e).trans ((suffix_of_run? hword).trans (suffix_skipChar '"' c))

theorem suffix_of_qualifier? (h : qualifier? c = some d) : d.rest <:+ c.rest := by
  obtain ⟨⟨name, e⟩, hname, h⟩ := Option.bind_eq_some_iff.1 h
  obtain ⟨point, hpoint, h⟩ := Option.bind_eq_some_iff.1 h
  cases h
  have blanks : e.skipBlanks.rest <:+ e.rest := suffix_skipWhile isBlank e
  have behind : point.skipBlanks.rest <:+ point.rest := suffix_skipWhile isBlank point
  exact behind.trans ((suffix_of_char? hpoint).trans (blanks.trans (suffix_of_name? hname)))

theorem suffix_of_qualifiedName? (h : qualifiedName? c = some (name, d)) : d.rest <:+ c.rest :=
  (suffix_of_name? h).trans (suffix_getD fun _ => suffix_of_qualifier?)

end Names

end ReleaseSchema.Ddl
