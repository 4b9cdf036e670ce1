/-
Defaults that are string literals. The text is searched as it is written, so a
literal is read whole when nothing in it is taken for something else: no line
end, no comment, and for the value no clause (`column?_of_literal_default`).

That these are the only cases is a matter of lengths. A default that is found is
no longer than what is behind the keyword (`length_of_search?_default`), a text
with a comment is longer than without it, and so is one with a clause
(`length_beforeClause_lt`).
-/
import ReleaseSchema.Proofs.Ddl.ColumnDefinition
import ReleaseSchema.Sql.Token

namespace ReleaseSchema.Ddl

open Text

/-- A definition with a default as its last clause. -/
def withDefault (name type value : List Char) : List Char :=
  name ++ ' ' :: (type ++ ' ' :: ("default".toList ++ ' ' :: value))

/-- A string literal. -/
def literal (content : List Char) : List Char := (Sql.Token.string content).render

/-! ## Lengths -/

section Lengths

variable {text front value : List Char}

/-- The default that is found is no longer than what is behind the first keyword. -/
theorem length_of_search?_default {place : Cursor} (hlacks : Lacks ["default"] front)
    (h : search? default? (front ++ ' ' :: ("default".toList ++ ' ' :: value)) =
      some (place, text)) : '\n' ∉ text ∧ text.length ≤ value.length := by
  have stop : Stops isWord (' ' :: ("default".toList ++ ' ' :: value)) := stops_cons.2 (by decide)
  rw [search?_append_of_lacks (by decide) needsWord_default? hlacks stop, Cursor.findFrom,
    needsWord_default?.eq_none (not_wordAt_of_stops (by decide) stop)] at h
  obtain ⟨before, after, hsplit, rfl, hread, -⟩ := Cursor.exists_of_findFrom h
  obtain ⟨onLine, passed, hrest, hpassed⟩ := exists_of_default? hread
  have lengths := congrArg List.length hsplit
  dsimp only at hrest
  rw [hrest] at lengths
  simp only [List.length_append, List.length_cons] at lengths
  have word : "default ".toList.length = "default".toList.length + 1 := rfl
  refine ⟨onLine, ?_⟩
  omega

end Lengths

/-! ## The column -/

section Column

variable {name type front value fragment : List Char} {suffix : String} {column : Column}

/-- Where the default of a column comes from. -/
theorem default_of_column? (h : column? fragment suffix = some column) :
    let found := (search? default? (Sql.withoutComments fragment)).map fun (_, text) => trim text
    column.defaultText = found.map String.ofList ∧
      column.defaultValue = found.map fun text => String.ofList (beforeClause clauseHeads text) := by
  unfold column? at h
  dsimp only at h
  split at h
  · cases h
  · cases h
    exact ⟨rfl, rfl⟩

theorem exists_literal_eq (content : List Char) : ∃ body, literal content = '\'' :: (body ++ ['\'']) :=
  ⟨_, rfl⟩

theorem stops_literal (content : List Char) :
    literal content ≠ [] ∧ Stops isBlank (literal content) ∧ Stops isBlank (literal content).reverse := by
  obtain ⟨body, hbody⟩ := exists_literal_eq content
  have quote : isBlank '\'' = false := by decide
  rw [hbody]
  refine ⟨List.cons_ne_nil _ _, stops_cons.2 quote, ?_⟩
  rw [← List.cons_append, List.reverse_append]
  exact stops_cons.2 quote

theorem trim_literal (content : List Char) : trim (literal content) = literal content :=
  trim_eq_self (stops_literal content).2.1 (stops_literal content).2.2

/-- A literal behind a text without comments keeps its first quote, and all of it unless a comment is
in it. -/
theorem exists_withoutComments (hfront : IsClean front) (content : List Char) :
    ∃ value, Sql.withoutComments (front ++ ' ' :: literal content) = front ++ ' ' :: value ∧
      (Sql.HoldsComment (literal content) → value.length < (literal content).length) ∧
      (¬Sql.HoldsComment (literal content) → value = literal content) := by
  obtain ⟨body, hbody⟩ := exists_literal_eq content
  have quote : Sql.blankComments (literal content) = '\'' :: Sql.blankComments (body ++ ['\'']) := by
    rw [hbody]
    exact Sql.blankComments_cons fun inside heq => absurd (List.cons.inj heq).1 (by decide)
  have blanked : Sql.blankComments (front ++ ' ' :: literal content) =
      front ++ ' ' :: '\'' :: Sql.blankComments (body ++ ['\'']) := by
    rw [Sql.blankComments_append (Sql.closesComments_of_no_mark hfront.noComment),
      blankComments_of_no_mark hfront.noComment, quote]
  have start : Stops isBlank (front ++ ' ' :: '\'' :: Sql.blankComments (body ++ ['\''])) :=
    hfront.stops.1.append hfront.nonempty _
  have finish : Stops isBlank (front ++ [' ', '\'']).reverse := by
    rw [List.reverse_append]
    exact stops_cons.2 (by decide)
  refine ⟨'\'' :: trimEnd (Sql.blankComments (body ++ ['\''])), ?_, fun holds => ?_, fun none => ?_⟩
  · have ends := trimEnd_append_of_stops finish (Sql.blankComments (body ++ ['\'']))
    simp only [List.append_assoc, List.cons_append, List.nil_append] at ends
    rw [Sql.withoutComments, blanked, trim, trimStart, start.dropWhile, ends]
  · have shorter := Sql.length_blankComments_lt holds
    have ends := congrArg List.length (trimEnd_append (Sql.blankComments (body ++ ['\''])))
    rw [quote, List.length_cons] at shorter
    rw [List.length_append] at ends
    rw [List.length_cons]
    omega
  · have same := Sql.blankComments_of_not_holds none
    rw [quote, hbody] at same
    have last : trimEnd (body ++ ['\'']) = body ++ ['\''] := by
      have quote : isBlank '\'' = false := by decide
      rw [trimEnd, List.reverse_append]
      simp [quote]
    rw [(List.cons.inj same).2, last, hbody]

/-- What is left of a definition with a literal has its name, its type and its keyword. -/
theorem exists_withoutComments_withDefault (hname : IsClean name) (htype : IsClean type)
    (content : List Char) :
    ∃ value, Sql.withoutComments (withDefault name type (literal content)) =
        (name ++ ' ' :: type) ++ ' ' :: ("default".toList ++ ' ' :: value) ∧
      (Sql.HoldsComment (literal content) → value.length < (literal content).length) ∧
      (¬Sql.HoldsComment (literal content) → value = literal content) := by
  have keyword : IsClean "default".toList := ⟨by decide, by decide, by decide⟩
  have clean := exists_withoutComments ((hname.join htype).join keyword) content
  simpa only [withDefault, List.append_assoc, List.cons_append] using clean

/-- The text of a default that is a literal is no longer than the literal, and is the literal when it is
on one line and holds no comment. -/
theorem found_iff (hname : IsClean name) (htype : IsClean type)
    (noDefault : Lacks ["default"] (name ++ ' ' :: type)) (content : List Char) :
    let found := (search? default? (Sql.withoutComments (withDefault name type (literal content)))).map
      fun (_, text) => trim text
    (∀ text, found = some text → trim text = text ∧ text.length ≤ (literal content).length) ∧
      (found = some (literal content) ↔
        '\n' ∉ literal content ∧ ¬Sql.HoldsComment (literal content)) := by
  obtain ⟨value, clean, shorter, whole⟩ := exists_withoutComments_withDefault hname htype content
  rw [clean]
  intro found
  have fits : value.length ≤ (literal content).length := by
    by_cases holds : Sql.HoldsComment (literal content)
    · exact Nat.le_of_lt (shorter holds)
    · exact Nat.le_of_eq (congrArg List.length (whole holds))
  constructor
  · intro text htext
    rw [Option.map_eq_some_iff] at htext
    obtain ⟨⟨place, text⟩, hsearch, rfl⟩ := htext
    have behind := (length_of_search?_default noDefault hsearch).2
    exact ⟨trim_trim text, (infix_trim text).length_le.trans (behind.trans fits)⟩
  constructor
  · intro heq
    rw [Option.map_eq_some_iff] at heq
    obtain ⟨⟨place, text⟩, hsearch, htrim⟩ := heq
    obtain ⟨onLine, behind⟩ := length_of_search?_default noDefault hsearch
    have lengths := congrArg List.length htrim
    dsimp only at lengths
    have same : text = literal content :=
      (trim_eq_of_length_le (by omega)).symm.trans htrim
    refine ⟨same ▸ onLine, fun holds => ?_⟩
    have less := shorter holds
    rw [same] at behind
    omega
  · rintro ⟨onLine, noComment⟩
    obtain ⟨nonempty, start, -⟩ := stops_literal content
    have read := default?_written (name ++ ' ' :: type).reverse start nonempty onLine
    have search := search?_of_written (by decide) needsWord_default? noDefault read
    simp only [found, whole noComment, search, Option.map_some, trim_literal]

/-- **A string literal as a default.** A definition that ends with the default has one, and its text is
the literal as it is written if and only if the literal has no line end and no comment in it. Its value
is the literal if and only if, besides, no clause seems to begin in it. -/
theorem column?_of_literal_default (hname : IsClean name) (htype : IsClean type)
    (noDefault : Lacks ["default"] (name ++ ' ' :: type)) (content : List Char) (suffix : String) :
    ∃ column, column? (withDefault name type (literal content)) suffix = some column ∧
      (column.defaultText = some (String.ofList (literal content)) ↔
        '\n' ∉ literal content ∧ ¬Sql.HoldsComment (literal content)) ∧
      (column.defaultValue = some (String.ofList (literal content)) ↔
        '\n' ∉ literal content ∧ ¬Sql.HoldsComment (literal content) ∧
          occurs (clause? clauseHeads) (literal content) = false) := by
  have remains : Sql.withoutComments (withDefault name type (literal content)) ≠ [] := by
    obtain ⟨value, clean, -⟩ := exists_withoutComments_withDefault hname htype content
    rw [clean]
    simp
  obtain ⟨column, hcolumn⟩ := Option.isSome_iff_exists.1 (column?_isSome remains suffix)
  obtain ⟨text, value⟩ := default_of_column? hcolumn
  obtain ⟨found, whole⟩ := found_iff hname htype noDefault content
  have injective : Function.Injective String.ofList := fun _ _ => String.ofList_inj.1
  refine ⟨column, hcolumn, ?_, ?_⟩
  · rw [text, ← whole, ← Option.map_some]
    exact (Option.map_injective injective).eq_iff
  · rw [value, ← and_assoc, ← whole, ← Option.map_some, ← Function.comp_def, ← Option.map_map,
      (Option.map_injective injective).eq_iff, Option.map_eq_some_iff]
    constructor
    · rintro ⟨text, hfound, hvalue⟩
      obtain ⟨trimmed, fits⟩ := found text hfound
      cases clause : occurs (clause? clauseHeads) text with
      | true =>
        have less := length_beforeClause_lt clause
        rw [hvalue] at less
        omega
      | false =>
        rw [beforeClause_of_not_occurs clause, trimmed] at hvalue
        exact ⟨hvalue ▸ hfound, hvalue ▸ clause⟩
    · rintro ⟨hfound, noClause⟩
      exact ⟨_, hfound, (beforeClause_of_not_occurs noClause).trans (trim_literal content)⟩

/-- The literal `'it''s 100% /* open -- "null"?'`. -/
theorem column?_of_literal_default_open :
    let name := "\"usr_state\"".toList
    let type := "character varying(40)".toList
    let content := "it's 100% /* open -- \"null\"?".toList
    IsClean name ∧ IsClean type ∧ Lacks ["default"] (name ++ ' ' :: type) ∧
      ∃ column, column? (withDefault name type (literal content)) "usr" = some column ∧
        column.defaultText = some "'it''s 100% /* open -- \"null\"?'" ∧
        column.defaultValue = some "'it''s 100% /* open -- \"null\"?'" := by
  intro name type content
  have hname : IsClean name := ⟨by decide, by decide, by decide⟩
  have htype : IsClean type := ⟨by decide, by decide, by decide⟩
  have noDefault : Lacks ["default"] (name ++ ' ' :: type) := by decide +kernel
  obtain ⟨column, hcolumn, text, value⟩ := column?_of_literal_default hname htype noDefault content "usr"
  have written : String.ofList (literal content) = "'it''s 100% /* open -- \"null\"?'" := by
    decide +kernel
  have onLine : '\n' ∉ literal content := by decide +kernel
  have noComment : ¬Sql.HoldsComment (literal content) := by decide +kernel
  have noClause : occurs (clause? clauseHeads) (literal content) = false := by decide +kernel
  rw [written] at text value
  exact ⟨hname, htype, noDefault, column, hcolumn, text.2 ⟨onLine, noComment⟩,
    value.2 ⟨onLine, noComment, noClause⟩⟩

/-- A clause, a line end and a comment in a literal. -/
theorem default_of_literal_cut :
    let read := fun content : String =>
      (column? (withDefault "usr_state".toList "text".toList (literal content.toList)) "usr").map
        fun column => (column.defaultText, column.defaultValue)
    read "to check" = some (some "'to check'", some "'to") ∧
      read "two\nlines" = some (none, none) ∧
      read "a /* b */ c" = some (some "'a   c'", some "'a   c'") := by
  decide +kernel

end Column

end ReleaseSchema.Ddl
