/-
Columns whose name is written in quotes. Comments are blanked and the name is cut
off at the first blank before the quotes are looked at, so a quoted name is read
whole, and its type with it, if and only if there is no blank in the name and no
comment in the definition (`column?_of_quoted_name`).

That these are the only cases is a matter of lengths: a name and a type that are
read whole leave nothing of the definition to a comment (`length_render_le`).
-/
import ReleaseSchema.Proofs.Ddl.ColumnDefinition

namespace ReleaseSchema.Ddl

open Text

/-! ## Quotes -/

section Quotes

variable {name : List Char}

theorem unquoteName_quoted (name : List Char) : unquoteName ('"' :: (name ++ ['"'])) = name := by
  simp [unquoteName, between?]

theorem unquoteName_open (h : name.getLast? ≠ some '"') : unquoteName ('"' :: name) = '"' :: name := by
  simp [unquoteName, between?, h]

/-- A name without quotes, of a text that begins with one, is what stands between two. -/
theorem eq_quoted_of_unquoteName {inner : List Char} (h : unquoteName ('"' :: inner) = name)
    (noQuote : '"' ∉ name) : inner = name ++ ['"'] := by
  by_cases closed : inner.getLast? = some '"'
  · obtain ⟨content, rfl⟩ := List.getLast?_eq_some_iff.1 closed
    rw [unquoteName_quoted] at h
    rw [h]
  · rw [unquoteName_open closed] at h
    exact absurd (h ▸ List.mem_cons_self) noQuote

end Quotes

/-! ## Parts of a column definition -/

section Parts

variable {fragment : List Char} {suffix : String} {column : Column}

/-- The name of a column and its type come from what is in front of the first blank and behind it. -/
theorem name_type_of_column? (h : column? fragment suffix = some column) :
    let clean := Sql.withoutComments fragment
    column.name = String.ofList (unquoteName (clean.takeWhile (!isBlank ·))) ∧
      column.type = String.ofList
        (beforeClause (["default"] :: clauseHeads) (clean.dropWhile (!isBlank ·))) := by
  unfold column? at h
  dsimp only at h
  split at h
  · cases h
  · cases h
    exact ⟨rfl, rfl⟩

/-- What is read behind a blank is shorter than the text with it. -/
theorem length_beforeClause_le {c : Char} (hc : isBlank c = true) (heads : List (List String))
    (rest : List Char) : (beforeClause heads (c :: rest)).length ≤ rest.length := by
  cases clause : occurs (clause? heads) (c :: rest) with
  | true => exact Nat.le_of_lt_succ (length_beforeClause_lt clause)
  | false =>
    rw [beforeClause_of_not_occurs clause, trim_cons_blank hc]
    exact (infix_trim rest).length_le

end Parts

/-! ## The column -/

/-- A definition with a name in quotes, which may hold anything but a quote, and a type that no clause
begins in. -/
structure QuotedColumn where
  name : List Char
  blank : Char
  type : List Char
  named : name ≠ []
  noQuote : '"' ∉ name
  isBlank_blank : isBlank blank = true
  typed : type ≠ []
  trimmed : trim type = type
  noClause : occurs (clause? (["default"] :: clauseHeads)) (blank :: type) = false

namespace QuotedColumn

variable (d : QuotedColumn) {suffix : String} {column : Column}

def render : List Char := '"' :: (d.name ++ '"' :: d.blank :: d.type)

theorem exists_withoutComments : ∃ rest, Sql.withoutComments d.render = '"' :: rest :=
  ⟨_, Sql.withoutComments_cons (by decide) (by decide) _⟩

theorem withoutComments_render (h : ¬Sql.HoldsComment d.render) :
    Sql.withoutComments d.render = d.render := by
  have finish : Stops isBlank d.render.reverse := by
    have ends := stops_reverse_trim d.type
    rw [d.trimmed] at ends
    have typed : d.type.reverse ≠ [] := mt List.reverse_eq_nil_iff.1 d.typed
    have whole : d.render.reverse = d.type.reverse ++ ('"' :: (d.name ++ ['"', d.blank])).reverse := by
      simp [render]
    exact whole ▸ ends.append typed _
  rw [Sql.withoutComments, Sql.blankComments_of_not_holds h]
  exact trim_eq_self (stops_cons.2 (by decide)) finish

theorem stops_blank (rest : List Char) : Stops (!isBlank ·) (d.blank :: rest) :=
  stops_cons.2 (by simp [d.isBlank_blank])

/-- A name that is read whole stands between its quotes in front of the first blank. -/
theorem takeWhile_of_name (h : column? d.render suffix = some column)
    (name : column.name = String.ofList d.name) :
    (Sql.withoutComments d.render).takeWhile (!isBlank ·) = '"' :: (d.name ++ ['"']) := by
  obtain ⟨hname, -⟩ := name_type_of_column? h
  obtain ⟨rest, hclean⟩ := d.exists_withoutComments
  rw [name, String.ofList_inj] at hname
  rw [hclean, List.takeWhile_cons_of_pos (by decide)] at hname ⊢
  rw [eq_quoted_of_unquoteName hname.symm d.noQuote]

theorem noBlank_of_name (h : column? d.render suffix = some column)
    (name : column.name = String.ofList d.name) : ∀ c ∈ d.name, isBlank c = false := by
  intro c hc
  have inside : c ∈ '"' :: (d.name ++ ['"']) := List.mem_cons_of_mem _ (List.mem_append_left _ hc)
  rw [← d.takeWhile_of_name h name] at inside
  simpa using List.mem_takeWhile_imp inside

/-- A name and a type that are read whole are as long as the definition. -/
theorem length_render_le (h : column? d.render suffix = some column)
    (name : column.name = String.ofList d.name) (type : column.type = String.ofList d.type) :
    d.render.length ≤ (Sql.withoutComments d.render).length := by
  obtain ⟨-, htype⟩ := name_type_of_column? h
  rw [type, String.ofList_inj] at htype
  have whole := List.takeWhile_append_dropWhile (p := (!isBlank ·)) (l := Sql.withoutComments d.render)
  have stop := stops_dropWhile (!isBlank ·) (Sql.withoutComments d.render)
  cases behind : (Sql.withoutComments d.render).dropWhile (!isBlank ·) with
  | nil =>
    rw [behind] at htype
    exact absurd htype d.typed
  | cons c more =>
    rw [behind] at htype stop whole
    have hc : isBlank c = true := by simpa using stops_cons.1 stop
    have fits := length_beforeClause_le hc (["default"] :: clauseHeads) more
    have lengths := congrArg List.length whole
    have size : d.render.length = d.name.length + d.type.length + 3 := by
      simp only [render, List.length_append, List.length_cons]
      omega
    rw [← htype] at fits
    simp only [d.takeWhile_of_name h name, List.length_append, List.length_cons,
      List.length_nil] at lengths
    omega

/-- **A name in quotes.** The definition has a column. Its name and its type are those that are written
if and only if there is no blank in the name and no comment in the definition. With a blank in the name
the column is named after what is in front of it, with the first quote. -/
theorem column?_of_quoted_name (suffix : String) :
    ∃ column, column? d.render suffix = some column ∧
      (column.name = String.ofList d.name ∧ column.type = String.ofList d.type ↔
        (∀ c ∈ d.name, isBlank c = false) ∧ ¬Sql.HoldsComment d.render) ∧
      (¬Sql.HoldsComment d.render → (∃ c ∈ d.name, isBlank c = true) →
        column.name = String.ofList ('"' :: d.name.takeWhile (!isBlank ·))) := by
  obtain ⟨rest, hclean⟩ := d.exists_withoutComments
  have remains : Sql.withoutComments d.render ≠ [] := hclean ▸ List.cons_ne_nil _ _
  obtain ⟨column, hcolumn⟩ := Option.isSome_iff_exists.1 (column?_isSome remains suffix)
  obtain ⟨name, type⟩ := name_type_of_column? hcolumn
  refine ⟨column, hcolumn, ⟨?_, ?_⟩, ?_⟩
  · rintro ⟨hname, htype⟩
    have fits := d.length_render_le hcolumn hname htype
    exact ⟨d.noBlank_of_name hcolumn hname,
      fun holds => absurd (Sql.length_withoutComments_lt holds) (Nat.not_lt.2 fits)⟩
  · rintro ⟨noBlank, noComment⟩
    have run : ∀ c ∈ '"' :: (d.name ++ ['"']), (!isBlank c) = true := by
      have quote : (!isBlank '"') = true := by decide
      refine List.forall_mem_cons.2 ⟨quote, List.forall_mem_append.2 ⟨fun c hc => ?_, ?_⟩⟩
      · rw [noBlank c hc]
        rfl
      · exact List.forall_mem_singleton.2 quote
    have cut : d.render = ('"' :: (d.name ++ ['"'])) ++ d.blank :: d.type := by simp [render]
    rw [d.withoutComments_render noComment, cut, takeWhile_run run (d.stops_blank _),
      unquoteName_quoted] at name
    rw [d.withoutComments_render noComment, cut, dropWhile_run run (d.stops_blank _),
      beforeClause_of_not_occurs d.noClause, trim_cons_blank d.isBlank_blank, d.trimmed] at type
    exact ⟨name, type⟩
  · rintro noComment ⟨c, hc, hblank⟩
    have short : (d.name.takeWhile (!isBlank ·)).length ≠ d.name.length := by
      intro whole
      rw [← (List.takeWhile_prefix _).eq_of_length whole] at hc
      have passed := List.mem_takeWhile_imp hc
      rw [hblank] at passed
      cases passed
    have unclosed : (d.name.takeWhile (!isBlank ·)).getLast? ≠ some '"' := fun hlast =>
      d.noQuote ((List.takeWhile_prefix _).subset (List.mem_of_getLast? hlast))
    rw [d.withoutComments_render noComment, render, List.takeWhile_cons_of_pos (by decide),
      List.takeWhile_append, if_neg short, unquoteName_open unclosed] at name
    exact name

/-- The words of a clause, a comma and half a comment mark in a name. -/
theorem column?_of_quoted_name_marks :
    ∃ column, column? "\"not-null,/*(usr)\" numeric(10, 2)".toList "usr" = some column ∧
      column.name = "not-null,/*(usr)" ∧ column.type = "numeric(10, 2)" := by
  let d : QuotedColumn := {
    name := "not-null,/*(usr)".toList
    blank := ' '
    type := "numeric(10, 2)".toList
    named := by decide
    noQuote := by decide
    isBlank_blank := by decide
    typed := by decide
    trimmed := by decide
    noClause := by decide +kernel }
  obtain ⟨column, hcolumn, whole, -⟩ := d.column?_of_quoted_name "usr"
  have all : d.name.all (!isBlank ·) = true := by decide
  have noBlank : ∀ c ∈ d.name, isBlank c = false := by simpa using List.all_eq_true.1 all
  have noComment : ¬Sql.HoldsComment d.render := by decide +kernel
  obtain ⟨name, type⟩ := whole.2 ⟨noBlank, noComment⟩
  exact ⟨column, hcolumn, name, type⟩

/-- A blank in a name, and a comment. -/
theorem name_of_quoted_name_cut :
    let read := fun fragment : String =>
      (column? fragment.toList "usr").map fun column => (column.name, column.type)
    read "\"user id\" int" = some ("\"user", "id\" int") ∧
      read "\"user/*id*/key\" int" = some ("\"user", "key\" int") := by
  decide +kernel

end QuotedColumn

end ReleaseSchema.Ddl
