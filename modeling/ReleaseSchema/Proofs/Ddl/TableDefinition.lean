/-
What reading a table definition finds: the text before it gives the tags, the
name the naming parts, and the column list the columns, each item one column or
none, in the order in which they are written (`table_of_definition`).

The two searches of the reader end where the definition has them end. The one
for `create table` passes the header because a match there would lie within the
header (`createTable?_agree`), and the one for the name passes the words in
front of it (`search?_tableHead`).
-/
import ReleaseSchema.Ddl.Table
import ReleaseSchema.Proofs.Ddl.Name
import ReleaseSchema.Proofs.Sql.Items

namespace ReleaseSchema.Ddl

open Text

/-! ## Definitions as they are written -/

/-- A table definition up to the parenthesis that opens its column list, and what follows it. -/
def definition (ifNotExists : Bool) (path : WrittenPath) (list : List Char) : List Char :=
  "create".toList ++ ' ' :: ("table".toList ++ ' ' ::
    ((if ifNotExists then "if not exists ".toList else []) ++
      (path.render ++ ' ' :: '(' :: list)))

/-- A text that may stand before a definition: it is empty or ends with a blank, and no definition
begins in it. -/
structure IsHeader (header : List Char) : Prop where
  apart : header = [] ∨ (Cursor.start header).EndsBlank
  noTable : occurs createTable? header = false

/-- The suffix of a table's name, when the name is one of the convention. -/
def suffixOf (name : List Char) : String := ((TableName.ofText? name).map (·.suffix)).getD ""

theorem namedTable_suffix (history : History) (tags : TagMap) (name : List Char) :
    (namedTable history tags name).suffix = suffixOf name := by
  unfold namedTable suffixOf
  cases TableName.ofText? name <;> rfl

theorem namedTable_tags (history : History) (tags : TagMap) (name : List Char) :
    (namedTable history tags name).tags = tags := by
  unfold namedTable
  split <;> rfl

/-! ## Where the definition begins -/

section Header

variable {more : List Char} {c : Cursor}

/-- Nothing is left to read, or what is left ends with a blank. -/
def EndsOpen (c : Cursor) : Prop := c.rest = [] ∨ c.EndsBlank

/-- A word is read before a text that begins with a `c`, unless it begins with a `c` itself. -/
theorem spelled?_agree {word : String} (nonblank : word.toList.all (!isBlank ·) = true)
    (first : word.toList.head?.any (· != 'c') = true) (h : EndsOpen c) :
    Cursor.Agree ('c' :: more) Cursor.EndsBlank (c.spelled? word)
      ((c.extend ('c' :: more)).spelled? word) := by
  rcases h with hrest | hblank
  · obtain ⟨passed, rest⟩ := c
    simp only at hrest
    subst hrest
    cases hword : word.toList with
    | nil => simp [hword] at first
    | cons l letters =>
      have hne : foldCase 'c' ≠ l := by
        have : l ≠ 'c' := by simpa [hword] using first
        exact fun he => this (he.symm.trans (by decide))
      simp only [Cursor.spelled?, hword, Cursor.extend, List.nil_append, Cursor.letters?,
        if_neg hne]
      exact .none
  · exact Cursor.letters?_agree nonblank hblank

theorem wordAndBlanks?_agree {word : String} (nonblank : word.toList.all (!isBlank ·) = true)
    (first : word.toList.head?.any (· != 'c') = true) (h : EndsOpen c) :
    Cursor.Agree ('c' :: more) EndsOpen (wordAndBlanks? word c)
      (wordAndBlanks? word (c.extend ('c' :: more))) :=
  (spelled?_agree nonblank first h).bind fun _ hd =>
    Cursor.blanks?_agree hd (stops_cons.2 (by decide))

theorem skipOneOf_agree (more : List Char) (words : List String)
    (nonblank : ∀ word ∈ words, word.toList.all (!isBlank ·) = true)
    (first : ∀ word ∈ words, word.toList.head?.any (· != 'c') = true) (h : EndsOpen c) :
    EndsOpen (skipOneOf words c) ∧
      skipOneOf words (c.extend ('c' :: more)) = (skipOneOf words c).extend ('c' :: more) := by
  refine Cursor.Agree.getD (Cursor.Agree.findSome? fun word hword => ?_) h
  exact wordAndBlanks?_agree (nonblank word hword) (first word hword) h

/-- Whether a definition begins at a place of a text that ends with a blank does not change when
another definition follows. -/
theorem createTable?_agree (more : List Char) (h : c.EndsBlank) :
    Cursor.Agree ('c' :: more) Cursor.EndsBlank (createTable? c)
      (createTable? (c.extend ('c' :: more))) := by
  unfold createTable?
  refine (Cursor.boundary?_agree h).bind fun d hd => ?_
  have create : Cursor.Agree ('c' :: more) EndsOpen (wordAndBlanks? "create" d)
      (wordAndBlanks? "create" (d.extend ('c' :: more))) :=
    (Cursor.letters?_agree (by decide) hd).bind fun _ he =>
      Cursor.blanks?_agree he (stops_cons.2 (by decide))
  refine create.bind fun e he => ?_
  have scope := skipOneOf_agree more ["global", "local"] (by decide) (by decide) he
  have kind := skipOneOf_agree more ["unlogged", "temporary", "temp"] (by decide) (by decide)
    scope.1
  simp only [scope.2, kind.2]
  refine (spelled?_agree (by decide) (by decide) kind.1).bind fun k hk => ?_
  exact Cursor.boundary?_agree hk

end Header

/-- A definition begins where one is written behind a header. -/
theorem createTable?_definition {header : List Char} (h : IsHeader header) (ifNotExists : Bool)
    (path : WrittenPath) (list : List Char) :
    (createTable? ⟨header.reverse, definition ifNotExists path list⟩).isSome = true := by
  have start : Cursor.atBoundary ⟨header.reverse, definition ifNotExists path list⟩ = true := by
    have outside : header.reverse.head?.any isWord = false := by
      rcases h.apart with rfl | ⟨text, blank, hheader, hblank⟩
      · rfl
      · have hheader : header = text ++ [blank] := hheader
        simp [hheader, isWord_of_isBlank hblank]
    simp only [Cursor.atBoundary, outside]
    rfl
  have create : wordAndBlanks? "create" ⟨header.reverse, definition ifNotExists path list⟩ =
      some ⟨' ' :: ("create".toList.reverse ++ header.reverse), "table".toList ++ ' ' ::
        ((if ifNotExists then "if not exists ".toList else []) ++
          (path.render ++ ' ' :: '(' :: list))⟩ :=
    wordAndBlanks?_append (by decide) (stops_cons.2 (by decide))
  simp only [createTable?, Cursor.boundary?, start, if_true, Option.bind_eq_bind,
    Option.bind_some, create]
  rfl

/-- Behind a header, the search for a definition ends where the definition begins. -/
theorem search?_createTable {header : List Char} (h : IsHeader header) (ifNotExists : Bool)
    (path : WrittenPath) (list : List Char) :
    (search? createTable? (header ++ definition ifNotExists path list)).map (·.1) =
      some ⟨header.reverse, definition ifNotExists path list⟩ := by
  obtain ⟨next, hnext⟩ := Option.isSome_iff_exists.1
    (createTable?_definition h ifNotExists path list)
  have passed : ∀ a b, header = a ++ b → b ≠ [] →
      createTable? ⟨a.reverse ++ [], b ++ definition ifNotExists path list⟩ = none := by
    intro a b hsplit hb
    have alone : createTable? ⟨a.reverse ++ [], b⟩ = none := by
      have hnone := h.noTable
      rw [occurs, Option.isSome_eq_false_iff, Option.isNone_iff_eq_none, hsplit] at hnone
      exact Cursor.reader_eq_none_of_findFrom hnone
    have ends : (Cursor.mk (a.reverse ++ []) b).EndsBlank := by
      rcases h.apart with hnil | ⟨text, blank, hheader, hblank⟩
      · rw [hnil] at hsplit
        exact absurd (List.append_eq_nil_iff.1 hsplit.symm).2 hb
      · have last : header.getLast? = some blank := by
          have hheader : header = text ++ [blank] := hheader
          simp [hheader]
        rw [hsplit, List.getLast?_append, List.getLast?_eq_some_getLast hb, Option.some_or,
          Option.some.injEq] at last
        refine ⟨b.dropLast, blank, ?_, hblank⟩
        rw [← last, List.dropLast_concat_getLast hb]
    have agree := (createTable?_agree (definition ifNotExists path list).tail ends).1
    rw [alone] at agree
    exact agree
  rw [search?, Cursor.start, Cursor.find?, Cursor.findFrom_append passed,
    Cursor.findFrom_of_some (by rw [List.append_nil]; exact hnext), List.append_nil]
  rfl

/-! ## The name -/

theorem stops_isNameChar_space (list : List Char) : Stops isNameChar (' ' :: '(' :: list) :=
  stops_cons.2 (by decide)

/-- A name is read behind the word `table` or `exists`, up to the column list. -/
theorem tableHead?_append {word : String} (hword : word = "table" ∨ word = "exists")
    (path : WrittenPath) {passed list : List Char} :
    tableHead? ⟨' ' :: passed, word.toList ++ ' ' :: (path.render ++ ' ' :: '(' :: list)⟩ =
      some (path.name.word,
        ⟨' ' :: (path.render.reverse ++ ' ' :: (word.toList.reverse ++ ' ' :: passed)),
          '(' :: list⟩) := by
  have keyword : ((wordAndBlanks? "table"
        ⟨' ' :: passed, word.toList ++ ' ' :: (path.render ++ ' ' :: '(' :: list)⟩).orElse
      fun _ => wordAndBlanks? "exists"
        ⟨' ' :: passed, word.toList ++ ' ' :: (path.render ++ ' ' :: '(' :: list)⟩) =
      some ⟨' ' :: (word.toList.reverse ++ ' ' :: passed), path.render ++ ' ' :: '(' :: list⟩ := by
    rcases hword with rfl | rfl
    · rw [wordAndBlanks?_append (by decide) path.stops_isBlank_render]
      rfl
    · rw [wordAndBlanks?_append (by decide) path.stops_isBlank_render]
      rfl
  have boundary : Cursor.boundary?
      ⟨' ' :: passed, word.toList ++ ' ' :: (path.render ++ ' ' :: '(' :: list)⟩ =
      some ⟨' ' :: passed, word.toList ++ ' ' :: (path.render ++ ' ' :: '(' :: list)⟩ := by
    rcases hword with rfl | rfl <;> rfl
  have noPoint : ((' ' :: '(' :: list).dropWhile isBlank).head? ≠ some '.' := by
    change some '(' ≠ some '.'
    decide
  simp only [tableHead?, boundary, keyword, Option.bind_eq_bind, Option.bind_some,
    path.qualifiedName?_render (stops_isNameChar_space list) noPoint]
  rfl

/-- The search for the name passes the words in front of it, `exists` among them. -/
theorem search?_tableHead (ifNotExists : Bool) (path : WrittenPath) (list : List Char) :
    ∃ place passed, search? tableHead? (definition ifNotExists path list) =
      some (place, path.name.word, ⟨passed, '(' :: list⟩) := by
  cases ifNotExists with
  | false =>
    have create : search? tableHead? (definition false path list) =
        Cursor.findFrom tableHead? (' ' :: "create".toList.reverse)
          ("table".toList ++ ' ' :: (path.render ++ ' ' :: '(' :: list)) := rfl
    rw [create, Cursor.findFrom_of_some (tableHead?_append (.inl rfl) path)]
    exact ⟨_, _, rfl⟩
  | true =>
    have create : search? tableHead? (definition true path list) =
        Cursor.findFrom tableHead? (' ' :: "create table if not".toList.reverse)
          ("exists".toList ++ ' ' :: (path.render ++ ' ' :: '(' :: list)) := rfl
    rw [create, Cursor.findFrom_of_some (tableHead?_append (.inr rfl) path)]
    exact ⟨_, _, rfl⟩

/-! ## The table -/

section Table

variable {header : List Char} {items : List (List Char)}

/-- The whole record that is read from a definition behind a header. -/
theorem table_eq (history : History) (hh : IsHeader header) (ifNotExists : Bool)
    (path : WrittenPath) (h : ∀ item ∈ items, Sql.IsItem item ∧ Sql.IsNested item)
    (tail : List Char) :
    table history (header ++
        definition ifNotExists path ([','].intercalate items ++ ')' :: tail)) =
      let columns := ((items.map trim).filter (!isConstraint ·)).filterMap
        (column? · (suffixOf path.name.word))
      { namedTable history (Tag.scanMap header) path.name.word with
        columns, primaryKey := (columns.find? (·.isPrimaryKey)).map (·.name) } := by
  have create := search?_createTable hh ifNotExists path ([','].intercalate items ++ ')' :: tail)
  obtain ⟨⟨place, next⟩, hcreate, hplace⟩ := Option.map_eq_some_iff.1 create
  simp only at hplace
  obtain ⟨place', passed, hname⟩ :=
    search?_tableHead ifNotExists path ([','].intercalate items ++ ')' :: tail)
  have list := Sql.enclosed?_intercalate (fun item hitem => (h item hitem).2) tail
  have split := Sql.splitList_intercalate fun item hitem => (h item hitem).1
  simp only [table, hcreate, hplace, hname, list, columnsOf, split, List.reverse_reverse,
    namedTable_suffix]

/-- **Reading a table definition.** The columns are those of the items that are no constraints, in
order; the tags are those of the header; and the primary key is the first column marked as one. -/
theorem table_of_definition (history : History) (hh : IsHeader header) (ifNotExists : Bool)
    (path : WrittenPath) (h : ∀ item ∈ items, Sql.IsItem item ∧ Sql.IsNested item)
    (tail : List Char) :
    let read := table history (header ++
      definition ifNotExists path ([','].intercalate items ++ ')' :: tail))
    read.columns = ((items.map trim).filter (!isConstraint ·)).filterMap
        (column? · (suffixOf path.name.word)) ∧
      read.tags = Tag.scanMap header ∧
      read.primaryKey = (read.columns.find? (·.isPrimaryKey)).map (·.name) := by
  intro read
  have whole := table_eq history hh ifNotExists path h tail
  rw [show read = _ from whole]
  exact ⟨rfl, namedTable_tags _ _ _, rfl⟩

/-- A table with a tag, a schema, a comma inside a type and a constraint among its columns. -/
theorem table_of_definition_user_table :
    let header := "/* #audited */ ".toList
    let path : WrittenPath :=
      ⟨some ⟨"public".toList, false, by decide, List.all_eq_true.1 (by decide)⟩,
        ⟨"abct_user_usr".toList, true, by decide, List.all_eq_true.1 (by decide)⟩⟩
    let items := ["usr_id int primary key", " usr_rate numeric(10,2) default round(1, 2)",
      " constraint usr_ck check (usr_rate > 0)"].map String.toList
    let read := table { name := "abct_user_usr" } (header ++
      definition true path ([','].intercalate items ++ ')' :: " with (fillfactor=70);".toList))
    IsHeader header ∧ (∀ item ∈ items, Sql.IsItem item ∧ Sql.IsNested item) ∧
      read.columns.map (·.name) = ["usr_id", "usr_rate"] ∧ read.primaryKey = some "usr_id" := by
  intro header path items read
  have hheader : IsHeader header := ⟨.inr ⟨header.dropLast, ' ', rfl, by decide⟩, by decide +kernel⟩
  have hitems : ∀ item ∈ items, Sql.IsItem item ∧ Sql.IsNested item := by
    have whole : ∀ item ∈ items, Sql.Nesting.KeepsWhole {} item ∧
        Sql.Nesting.StaysInside {} item ∧ trim item ≠ [] ∧
        (Sql.Nesting.after {} item).IsSettled := by
      decide +kernel
    intro item hitem
    obtain ⟨hwhole, hinside, hblank, hsettled⟩ := whole item hitem
    exact ⟨⟨hblank, hwhole, hsettled.isTop⟩, ⟨hinside, hsettled⟩⟩
  obtain ⟨hcolumns, -, hkey⟩ := table_of_definition { name := "abct_user_usr" } hheader true path
    hitems " with (fillfactor=70);".toList
  refine ⟨hheader, hitems, ?_, ?_⟩
  · rw [hcolumns]
    decide +kernel
  · rw [hkey, hcolumns]
    decide +kernel

end Table

end ReleaseSchema.Ddl
