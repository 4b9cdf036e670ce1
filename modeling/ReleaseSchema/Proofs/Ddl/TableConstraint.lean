/-
Table constraints behind tag comments. The words of a constraint are looked for
behind the words that open comments, but a kept comment has its text and its
closing mark in words of their own, so the first comment decides and not the
item behind it (`isConstraint_commented`).

The item is a column then, because something is left of it without its comments
(`BeginsConstraint.column?_commented`), and the table is not the one without the item
(`table_of_commented_constraint`).
-/
import ReleaseSchema.Proofs.Ddl.Argument
import ReleaseSchema.Proofs.Ddl.TableDefinition

namespace ReleaseSchema.Ddl

open Text

/-- The first word of the item, up to a parenthesis, is one of those of table constraints. -/
def BeginsConstraint (item : List Char) : Prop :=
  ∃ word ∈ (words item).head?, isOneOf (word.takeWhile (· != '(')) constraintHeads = true

instance (item : List Char) : Decidable (BeginsConstraint item) :=
  inferInstanceAs (Decidable (∃ word ∈ (words item).head?, _))

/-- An item with comments in front of it. -/
def commented (comments : List (List Char)) (item : List Char) : List Char :=
  comments.foldr (fun comment rest => comment ++ ' ' :: rest) item

theorem commented_cons (comment : List Char) (comments : List (List Char)) (item : List Char) :
    commented (comment :: comments) item = comment ++ ' ' :: commented comments item := rfl

/-- The columns of the items of a list. -/
def itemColumns (suffix : String) (items : List (List Char)) : List Column :=
  ((items.map trim).filter (!isConstraint ·)).filterMap (column? · suffix)

/-- A table with these columns. The first that is marked as one is its key. -/
def withColumns (table : Table) (columns : List Column) : Table :=
  { table with columns, primaryKey := (columns.find? (·.isPrimaryKey)).map (·.name) }

/-! ## Which word decides -/

section Words

variable {comments : List (List Char)} {comment item text : List Char}

/-- A constraint begins with a letter that begins no comment. -/
theorem BeginsConstraint.exists_letter (h : BeginsConstraint item) :
    ∃ lead l rest, item = lead ++ l :: rest ∧ (∀ c ∈ lead, isBlank c = true) ∧ isBlank l = false ∧
      l ≠ '/' := by
  obtain ⟨word, hword, hhead⟩ := h
  obtain ⟨lead, l, letters, rest, rfl, rfl, hlead, hl⟩ := exists_of_head?_words hword
  refine ⟨lead, l, rest, rfl, hlead, hl, ?_⟩
  rintro rfl
  exact absurd hhead Bool.false_ne_true

theorem BeginsConstraint.isConstraint (h : BeginsConstraint item) : isConstraint item = true := by
  obtain ⟨word, hword, hhead⟩ := h
  have noMark : "/*".toList.isPrefixOf word = false := by
    cases hstart : "/*".toList.isPrefixOf word with
    | false => rfl
    | true =>
      obtain ⟨letters, rfl⟩ := List.isPrefixOf_iff_prefix.1 hstart
      exact absurd hhead Bool.false_ne_true
  obtain ⟨more, hmore⟩ := List.head?_eq_some_iff.1 hword
  simp only [Ddl.isConstraint, hmore, List.find?_cons, noMark, Bool.not_false, hhead]

/-- A word that opens no comment ends the search for the first one. -/
theorem isConstraint_append {a : List Char} (h : ∃ word ∈ words a, "/*".toList.isPrefixOf word = false)
    (b : List Char) : isConstraint (a ++ ' ' :: b) = isConstraint a := by
  obtain ⟨word, hmem, hword⟩ := h
  have found : ((words a).find? (!"/*".toList.isPrefixOf ·)).isSome = true :=
    List.find?_isSome.2 ⟨word, hmem, by rw [hword]; rfl⟩
  obtain ⟨first, hfirst⟩ := Option.isSome_iff_exists.1 found
  have space : isBlank ' ' = true := by decide
  unfold Ddl.isConstraint
  rw [words_append space, List.find?_append, hfirst, Option.some_or]

theorem isConstraint_kept (h : Sql.IsKept comment) (text : List Char) :
    isConstraint (comment ++ ' ' :: text) = isConstraint comment := by
  obtain ⟨front, rfl⟩ := h.closes
  have space : isBlank ' ' = true := by decide
  refine Ddl.isConstraint_append ⟨"*/".toList, ?_, by decide⟩ text
  have cut := words_append space front "*/".toList
  have mark : words "*/".toList = ["*/".toList] := by decide
  rw [mark] at cut
  change _ ∈ words (front ++ ' ' :: "*/".toList)
  rw [cut]
  exact List.mem_append_right _ List.mem_cons_self

/-- Whether an item is a constraint is said by its first comment, if it has one. -/
theorem isConstraint_commented (kept : ∀ comment ∈ comments, Sql.IsKept comment)
    (h : BeginsConstraint item) :
    isConstraint (commented comments item) = true ↔
      ∀ comment ∈ comments.head?, isConstraint comment = true := by
  cases comments with
  | nil => simpa [commented] using h.isConstraint
  | cons comment comments =>
    have first := isConstraint_kept (kept comment List.mem_cons_self) (commented comments item)
    rw [← commented_cons] at first
    simpa using first

end Words

/-! ## The column -/

section Remains

variable {comments : List (List Char)} {item : List Char}

theorem blankComments_commented (kept : ∀ comment ∈ comments, Sql.IsKept comment) (item : List Char) :
    ∃ lead, Sql.blankComments (commented comments item) = lead ++ Sql.blankComments item := by
  induction comments with
  | nil => exact ⟨[], rfl⟩
  | cons comment comments ih =>
    obtain ⟨hcomment, kept⟩ := List.forall_mem_cons.1 kept
    obtain ⟨lead, hlead⟩ := ih kept
    have closed := Sql.closesComments_of_suffix hcomment.closes
    refine ⟨Sql.blankComments comment ++ ' ' :: lead, ?_⟩
    rw [commented_cons, Sql.blankComments_append closed, hlead, List.append_assoc, List.cons_append]

theorem BeginsConstraint.mem_blankComments (h : BeginsConstraint item) :
    ∃ l ∈ Sql.blankComments item, isBlank l = false := by
  obtain ⟨lead, l, rest, rfl, hlead, hl, hslash⟩ := h.exists_letter
  refine ⟨l, ?_, hl⟩
  clear h
  induction lead with
  | nil =>
    rw [List.nil_append, Sql.blankComments_cons fun inside heq => hslash (List.cons.inj heq).1.symm]
    exact List.mem_cons_self
  | cons c lead ih =>
    obtain ⟨hc, hlead⟩ := List.forall_mem_cons.1 hlead
    have noMark : '/' ≠ c := by
      rintro rfl
      exact absurd hc (by decide)
    rw [List.cons_append, Sql.blankComments_cons fun inside heq => noMark (List.cons.inj heq).1]
    exact List.mem_cons_of_mem _ (ih hlead)

theorem BeginsConstraint.column?_commented (kept : ∀ comment ∈ comments, Sql.IsKept comment)
    (h : BeginsConstraint item) (suffix : String) :
    (column? (commented comments item) suffix).isSome = true := by
  obtain ⟨lead, hlead⟩ := blankComments_commented kept item
  obtain ⟨l, hmem, hl⟩ := h.mem_blankComments
  refine column?_isSome (fun hnone => ?_) suffix
  have blank := all_isBlank_of_trim hnone l (hlead ▸ List.mem_append_right lead hmem)
  rw [hl] at blank
  cases blank

end Remains

/-! ## The table -/

section Table

variable {header : List Char} {before after comments : List (List Char)} {item written : List Char}

theorem itemColumns_append (suffix : String) (a b : List (List Char)) :
    itemColumns suffix (a ++ b) = itemColumns suffix a ++ itemColumns suffix b := by
  simp only [itemColumns, List.map_append, List.filter_append, List.filterMap_append]

/-- An item with comments in front of it is no column, or one whatever is behind the comments. -/
theorem itemColumns_commented (hwritten : trim written = commented comments item)
    (kept : ∀ comment ∈ comments, Sql.IsKept comment) (hitem : BeginsConstraint item) (suffix : String) :
    if ∀ comment ∈ comments.head?, isConstraint comment = true then
      itemColumns suffix [written] = []
    else ∃ column, column? (commented comments item) suffix = some column ∧
      itemColumns suffix [written] = [column] := by
  have decides := isConstraint_commented kept hitem
  simp only [itemColumns, List.map_cons, List.map_nil, hwritten]
  split
  next first => simp [decides.2 first]
  next first =>
    have notConstraint : isConstraint (commented comments item) = false := by
      rw [← Bool.not_eq_true, decides]
      exact first
    obtain ⟨column, hcolumn⟩ := Option.isSome_iff_exists.1 (hitem.column?_commented kept suffix)
    exact ⟨column, hcolumn, by simp [notConstraint, hcolumn]⟩

/-- **Comments in front of a constraint.** A table is the same with and without a constraint behind tag
comments if and only if the first comment, if there is one, begins with a word of constraints itself.
Otherwise the item is a column of its own, among those of the items around it, and the key of the table
if it is the first column marked as one. -/
theorem table_of_commented_constraint (history : History) (hh : IsHeader header)
    (ifNotExists : Bool) (path : WrittenPath)
    (h : ∀ x ∈ before ++ written :: after, Sql.IsItem x ∧ Sql.IsNested x)
    (hwritten : trim written = commented comments item)
    (kept : ∀ comment ∈ comments, Sql.IsKept comment) (hitem : BeginsConstraint item)
    (tail : List Char) :
    let read := fun items => table history (header ++
      definition ifNotExists path ([','].intercalate items ++ ')' :: tail))
    let suffix := suffixOf path.name.word
    (read (before ++ written :: after) = read (before ++ after) ↔
        ∀ comment ∈ comments.head?, isConstraint comment = true) ∧
      (read (before ++ written :: after) ≠ read (before ++ after) →
        ∃ column, column? (commented comments item) suffix = some column ∧
          read (before ++ written :: after) = withColumns (read (before ++ after))
            (itemColumns suffix before ++ column :: itemColumns suffix after)) := by
  intro read suffix
  have expand : ∀ items, (∀ x ∈ items, Sql.IsItem x ∧ Sql.IsNested x) → read items =
      withColumns (namedTable history (Tag.scanMap header) path.name.word)
        (itemColumns suffix items) :=
    fun items hitems => table_eq history hh ifNotExists path hitems tail
  have others : ∀ x ∈ before ++ after, Sql.IsItem x ∧ Sql.IsNested x := by
    intro x hx
    refine h x ?_
    rw [List.mem_append] at hx ⊢
    exact hx.imp_right (List.mem_cons_of_mem _)
  have around : before ++ written :: after = before ++ ([written] ++ after) := rfl
  rw [expand _ h, expand _ others, around]
  simp only [itemColumns_append]
  have own := itemColumns_commented hwritten kept hitem suffix
  by_cases first : ∀ comment ∈ comments.head?, isConstraint comment = true
  · rw [if_pos first] at own
    rw [own, List.nil_append]
    exact ⟨iff_of_true rfl first, fun hne => absurd rfl hne⟩
  · rw [if_neg first] at own
    obtain ⟨column, hcolumn, own⟩ := own
    rw [own, List.singleton_append]
    refine ⟨iff_of_false (fun heq => ?_) first, fun _ => ⟨column, hcolumn, rfl⟩⟩
    have columns := congrArg (fun table : Table => table.columns.length) heq
    simp [withColumns] at columns

/-- A comment that begins with a word of constraints, and one behind it that does not. -/
theorem table_of_commented_constraint_unique :
    let before := ["usr_id int primary key".toList, " usr_name text".toList]
    let comments := ["/* unique #per-name */".toList, "/* #checked */".toList]
    let item := "unique (usr_name)".toList
    let written := ' ' :: commented comments item
    let path : WrittenPath :=
      ⟨none, ⟨"abct_user_usr".toList, false, by decide, List.all_eq_true.1 (by decide)⟩⟩
    let read := fun items => table { name := "abct_user_usr" }
      (definition false path ([','].intercalate items ++ ')' :: ";".toList))
    (∀ x ∈ before ++ [written], Sql.IsItem x ∧ Sql.IsNested x) ∧
      (∀ comment ∈ comments, Sql.IsKept comment) ∧ BeginsConstraint item ∧
      read (before ++ [written]) = read (before ++ []) := by
  intro before comments item written path read
  have hitems : ∀ x ∈ before ++ [written], Sql.IsItem x ∧ Sql.IsNested x := by decide +kernel
  have kept : ∀ comment ∈ comments, Sql.IsKept comment :=
    List.forall_mem_cons.2 ⟨⟨"unique #per-name".toList, by decide +kernel⟩,
      List.forall_mem_singleton.2 ⟨"#checked".toList, by decide +kernel⟩⟩
  have begins : BeginsConstraint item := by decide +kernel
  have first : ∀ comment ∈ comments.head?, isConstraint comment = true := by decide +kernel
  have header : IsHeader [] := ⟨.inl rfl, by decide⟩
  obtain ⟨same, -⟩ := table_of_commented_constraint { name := "abct_user_usr" } header false path hitems
    (by decide +kernel) kept begins ";".toList
  exact ⟨hitems, kept, begins, same.2 first⟩

/-- A kept comment makes a column of the constraint behind it, and with it the key of the table. -/
theorem table_of_tagged_key :
    let read := fun list : String => table { name := "abct_user_usr" }
      ("create table abct_user_usr (".toList ++ list.toList ++ ");".toList)
    Sql.IsKept "/* #sort */".toList ∧ BeginsConstraint "primary key (usr_id)".toList ∧
      ((read "usr_id int, /* #sort */ primary key (usr_id)").columns.map fun column =>
        (column.name, column.type)) = [("usr_id", "int"), ("primary", "key (usr_id)")] ∧
      (read "usr_id int, /* #sort */ primary key (usr_id)").primaryKey = some "primary" ∧
      (read "usr_id int").primaryKey = none := by
  refine ⟨⟨"#sort".toList, by decide +kernel⟩, by decide +kernel, ?_⟩
  decide +kernel

end Table

end ReleaseSchema.Ddl
