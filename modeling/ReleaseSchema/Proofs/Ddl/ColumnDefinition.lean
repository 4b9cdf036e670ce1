/-
What reading a column definition finds: a name, a type and clauses in any order,
each attribute in the clause that says it (`column?_of_clauses`).

Every search passes what is in front of its clause, because the word that the
clause begins with does not stand there (`WrittenColumn.IsPlain.split`).

Tags are looked for in the whole definition. A value that a tag of the type
begins with a bracket or a quote, and does not end, goes on into the clauses, and
then the column depends on their order (`column?_of_open_tag`).
-/
import ReleaseSchema.Proofs.Ddl.Clause
import ReleaseSchema.Proofs.Tag

namespace ReleaseSchema.Ddl

open Text

/-! ## Definitions as they are written -/

structure WrittenColumn where
  name : PlainName
  type : List Char
  clauses : List WrittenClause

namespace WrittenColumn

def render (d : WrittenColumn) : List Char :=
  d.name.word ++ ' ' :: (d.type ++ clauseText d.clauses)

/-- A clause refers to the column of the other table. -/
def RefersTo (d : WrittenColumn) (found : ForeignKey) : Prop :=
  ∃ table key, .references table key ∈ d.clauses ∧
    found = ⟨String.ofList table.word, String.ofList key.word⟩

/-- A clause gives the default value. -/
def HasDefault (d : WrittenColumn) (found : String) : Prop :=
  ∃ value, .default value ∈ d.clauses ∧ found = String.ofList value

/-- No part of the definition is taken for another one, and no clause is given twice. -/
structure IsPlain (d : WrittenColumn) : Prop where
  name : Lacks clauseWords d.name.word
  type : IsFragment d.type
  clauses : ∀ clause ∈ d.clauses, clause.IsPlain
  once : (d.clauses.map (·.keyword)).Nodup

instance (d : WrittenColumn) : Decidable d.IsPlain :=
  decidable_of_iff
    (Lacks clauseWords d.name.word ∧ IsFragment d.type ∧ (∀ clause ∈ d.clauses, clause.IsPlain) ∧
      (d.clauses.map (·.keyword)).Nodup)
    ⟨fun ⟨name, type, clauses, once⟩ => ⟨name, type, clauses, once⟩,
      fun h => ⟨h.name, h.type, h.clauses, h.once⟩⟩

end WrittenColumn

/-! ## Attributes -/

/-- What is found is what is given, when nothing is found where nothing is given. -/
theorem eq_some_iff_of_given {found : Option β} {P : β → Prop} (given : ∀ b, P b → found = some b)
    (missing : (∀ b, ¬P b) → found = none) (b : β) : found = some b ↔ P b := by
  constructor
  · intro hfound
    by_contra hnot
    have hnone : ∀ b, ¬P b := by
      intro other hother
      rw [given other hother] at hfound
      exact hnot (Option.some.inj hfound ▸ hother)
    rw [missing hnone] at hfound
    cases hfound
  · exact given b

namespace WrittenColumn

variable {d : WrittenColumn} {c : WrittenClause} {clauses : List WrittenClause}

namespace IsPlain

theorem isClean (h : d.IsPlain) : IsClean d.render :=
  d.name.isClean.join (h.type.toIsClean.append_clauseText h.clauses)

/-- Without a clause the word that it begins with is not in the definition. -/
theorem lacks {word : String} (h : d.IsPlain) (hword : word ∈ WrittenClause.keywords)
    (sub : clauses ⊆ d.clauses) (hne : ∀ x ∈ clauses, x.keyword ≠ word) :
    Lacks [word] { d with clauses }.render := by
  have only := WrittenClause.singleton_subset hword
  exact (h.name.subset only).join (WrittenClause.isKeyword_of_mem hword) (by decide) <|
    lacks_append_clauseText hword (h.type.noClause.subset only) (fun x hx => h.clauses x (sub hx)) hne

/-- What is in front of a clause and behind it. -/
theorem split (h : d.IsPlain) (hc : c ∈ d.clauses) :
    ∃ before after, d.clauses = before ++ c :: after ∧
      (∀ x ∈ before, x.keyword ≠ c.keyword) ∧ (∀ x ∈ after, x.keyword ≠ c.keyword) ∧
      Lacks [c.keyword] { d with clauses := before }.render ∧
      d.render = { d with clauses := before }.render ++ ' ' :: (c.render ++ clauseText after) := by
  obtain ⟨before, after, hsplit⟩ := List.append_of_mem hc
  have once := h.once
  rw [hsplit, List.map_append, List.map_cons, List.perm_middle.nodup_iff, List.nodup_cons,
    List.mem_append, not_or] at once
  have hbefore : ∀ x ∈ before, x.keyword ≠ c.keyword := fun x hx he =>
    once.1.1 (he ▸ List.mem_map_of_mem hx)
  have hafter : ∀ x ∈ after, x.keyword ≠ c.keyword := fun x hx he =>
    once.1.2 (he ▸ List.mem_map_of_mem hx)
  have sub : before ⊆ d.clauses := hsplit ▸ List.subset_append_left _ _
  refine ⟨before, after, hsplit, hbefore, hafter, h.lacks c.keyword_mem sub hbefore, ?_⟩
  simp only [render, hsplit, clauseText_append, clauseText_cons, List.append_assoc, List.cons_append]

/-- A reader that needs a clause without argument finds it where it is given. -/
theorem occurs_iff {reader : Cursor → Option α} (h : d.IsPlain) (alone : c.argument = [])
    (passes : ∀ text, Lacks [c.keyword] text → occurs reader text = false)
    (reads : ∀ text rest, Stops isWord rest →
      occurs reader (text ++ ' ' :: (c.render ++ rest)) = true) :
    occurs reader d.render = true ↔ c ∈ d.clauses := by
  constructor
  · intro hoccurs
    by_contra hnot
    have hne : ∀ x ∈ d.clauses, x.keyword ≠ c.keyword := by
      intro x hx he
      exact hnot (WrittenClause.eq_of_keyword alone he ▸ hx)
    rw [passes _ (h.lacks c.keyword_mem (List.Subset.refl _) hne)] at hoccurs
    cases hoccurs
  · intro hc
    obtain ⟨before, after, -, -, -, -, hrender⟩ := h.split hc
    rw [hrender]
    exact reads _ _ (stops_clauseText (by decide) after)

theorem occurs_wholePhrase?_iff (h : d.IsPlain) {next : String} {more : List String}
    (alone : c.argument = []) (hhead : c.head = c.keyword :: next :: more) :
    occurs (Cursor.wholePhrase? c.head) d.render = true ↔ c ∈ d.clauses := by
  refine h.occurs_iff alone (fun text hlacks => ?_) fun text rest stop => ?_
  · have needs := needsWord_wholePhrase? c.isKeyword next more
    rw [hhead, occurs, search?_of_lacks c.isKeyword needs hlacks]
    rfl
  · have read := c.wholePhrase?_written text.reverse stop
    have place : (text ++ [' ']).reverse = ' ' :: text.reverse := by simp
    rw [← place] at read
    have found := occurs_of_read read
    rwa [List.append_assoc, List.singleton_append] at found

theorem occurs_clause?_iff (h : d.IsPlain) (alone : c.argument = []) :
    occurs (clause? [c.head]) d.render = true ↔ c ∈ d.clauses := by
  refine h.occurs_iff alone (fun text hlacks => ?_) fun text rest stop => ?_
  · have first : ∀ head ∈ [c.head], ∃ word ∈ [c.keyword], head.head? = some word :=
      List.forall_mem_singleton.2 ⟨c.keyword, List.mem_cons_self, rfl⟩
    have passes := search?_clause_append first (List.forall_mem_singleton.2 c.isKeyword) hlacks
      Stops.nil
    rw [List.append_nil] at passes
    rw [occurs, passes]
    rfl
  · obtain ⟨e, read⟩ := WrittenClause.clause?_written [c.head] List.mem_cons_self
      text.reverse stop
    exact occurs_of_read read

theorem search?_eq_none {word : String} {reader : Cursor → Option α} (h : d.IsPlain)
    (hword : word ∈ WrittenClause.keywords) (needs : NeedsWord word reader)
    (hne : ∀ x ∈ d.clauses, x.keyword ≠ word) : search? reader d.render = none :=
  search?_of_lacks (List.forall_mem_singleton.1 (WrittenClause.isKeyword_of_mem hword)) needs
    (h.lacks hword (List.Subset.refl _) hne)

/-- What a reader answers at the clause that it needs. -/
theorem search?_of_mem {reader : Cursor → Option α} {answer : List WrittenClause → α}
    (h : d.IsPlain) (hc : c ∈ d.clauses) (needs : NeedsWord c.keyword reader)
    (reads : ∀ passed after, (∀ x ∈ after, x ∈ d.clauses ∧ x.keyword ≠ c.keyword) →
      reader ⟨' ' :: passed, c.render ++ clauseText after⟩ = some (answer after)) :
    ∃ after, (∀ x ∈ after, x ∈ d.clauses ∧ x.keyword ≠ c.keyword) ∧
      (search? reader d.render).map (·.2) = some (answer after) := by
  obtain ⟨before, after, hsplit, -, hafter, hlacks, hrender⟩ := h.split hc
  have others : ∀ x ∈ after, x ∈ d.clauses ∧ x.keyword ≠ c.keyword := by
    intro x hx
    refine ⟨?_, hafter x hx⟩
    rw [hsplit]
    exact List.mem_append_right _ (List.mem_cons_of_mem c hx)
  refine ⟨after, others, ?_⟩
  rw [hrender, search?_of_written c.isKeyword needs hlacks (reads _ after others)]
  rfl

theorem foreignKey_iff (h : d.IsPlain) (found : ForeignKey) :
    (search? references? d.render).map (·.2) = some found ↔ d.RefersTo found := by
  refine eq_some_iff_of_given ?_ (fun hnone => ?_) found
  · rintro _ ⟨table, key, hmem, rfl⟩
    obtain ⟨-, -, hread⟩ := h.search?_of_mem hmem needsWord_references? fun passed after _ =>
      references?_written table key passed (clauseText after)
    exact hread
  · have others : ∀ x ∈ d.clauses, x.keyword ≠ "references" := by
      intro x hx he
      cases x with
      | references table key => exact hnone _ ⟨table, key, hx, rfl⟩
      | _ => simp [WrittenClause.keyword] at he
    rw [h.search?_eq_none (by decide) needsWord_references? others]
    rfl

/-- The default is found up to the clauses behind it. -/
theorem defaultValue_iff (h : d.IsPlain) (found : String) :
    ((search? default? d.render).map fun (_, text) =>
        String.ofList (beforeClause clauseHeads (trim text))) = some found ↔ d.HasDefault found := by
  refine eq_some_iff_of_given ?_ (fun hnone => ?_) found
  · rintro _ ⟨value, hmem, rfl⟩
    obtain ⟨hvalue, onLine⟩ := h.clauses _ hmem
    have line : ∀ after : List WrittenClause,
        (∀ x ∈ after, x ∈ d.clauses ∧ x.keyword ≠ "default") → '\n' ∉ value ++ clauseText after := by
      intro after others hmem
      rcases List.mem_append.1 hmem with hmem | hmem
      · exact onLine hmem
      · have own := isOwnChar_of_mem_clauseText (fun x hx => (others x hx).2) _ hmem
        exact absurd own (by decide)
    obtain ⟨after, others, hread⟩ := h.search?_of_mem hmem needsWord_default?
      fun passed after others => by
        have written := default?_written passed (hvalue.stops.1.append hvalue.nonempty _)
          (List.append_ne_nil_of_left_ne_nil hvalue.nonempty _) (line after others)
        rwa [← List.cons_append, ← List.append_assoc, ← WrittenClause.render_default] at written
    have clean := hvalue.append_clauseText fun x hx => h.clauses x (others x hx).1
    have first : ∀ head ∈ clauseHeads, ∃ word ∈ clauseWords, head.head? = some word := by decide
    have ends : beforeClause clauseHeads (value ++ clauseText after) = trim value :=
      beforeClause_append first hvalue.noClause fun x hx =>
        WrittenClause.head_mem_clauseHeads (others x hx).2
    obtain ⟨⟨place, text⟩, hsearch, htext⟩ := Option.map_eq_some_iff.1 hread
    dsimp only at htext
    simp only [hsearch, Option.map_some, htext, clean.trimmed, ends, hvalue.trimmed]
  · have others := WrittenClause.keyword_ne_default fun value hmem => hnone _ ⟨value, hmem, rfl⟩
    rw [h.search?_eq_none (by decide) needsWord_default? others]
    rfl

end IsPlain

/-! ## The column -/

/-- What a definition says of its column. -/
structure Defines (d : WrittenColumn) (c : Column) : Prop where
  name : c.name = String.ofList d.name.word
  type : c.type = String.ofList d.type
  notNull : c.notNull = true ↔ .notNull ∈ d.clauses
  unique : c.unique = true ↔ .unique ∈ d.clauses
  isPrimaryKey : c.isPrimaryKey = true ↔ .primaryKey ∈ d.clauses
  foreignKey : ∀ found, c.foreignKey = some found ↔ d.RefersTo found
  defaultValue : ∀ found, c.defaultValue = some found ↔ d.HasDefault found

/-- What follows from that and from the tags. -/
structure Derives (suffix : String) (c : Column) : Prop where
  camelName : c.camelName = columnCamelName c.name.toList suffix c.tags
  isForeignKey : c.isForeignKey = c.foreignKey.isSome
  toUpdate : c.toUpdate = !(isOneOf c.name.toList auditColumns || c.isPrimaryKey)
  isListFilter : c.isListFilter = (c.tags.get? "list-filter").isSome
  listFilterName : c.listFilterName =
    (c.tags.get? "list-filter").map fun tag => tag.value.text?.getD c.camelName
  retrieveInList : c.retrieveInList = c.isPrimaryKey
  sort : c.sort = c.tags.contains "sort"
  getWithParent : c.getWithParent = c.tags.contains "get-with-parent"

theorem Defines.of_perm {column : Column} (h : { d with clauses }.Defines column)
    (perm : clauses.Perm d.clauses) : d.Defines column where
  name := h.name
  type := h.type
  notNull := h.notNull.trans perm.mem_iff
  unique := h.unique.trans perm.mem_iff
  isPrimaryKey := h.isPrimaryKey.trans perm.mem_iff
  foreignKey found := (h.foreignKey found).trans <| by simp only [RefersTo, perm.mem_iff]
  defaultValue found := (h.defaultValue found).trans <| by simp only [HasDefault, perm.mem_iff]

/-- A definition and its tags leave nothing open but the text behind the keyword of the default. -/
theorem Defines.eq_of_tags {column other : Column} {suffix : String} (h : d.Defines column)
    (hother : d.Defines other) (derived : Derives suffix column) (derivedOther : Derives suffix other)
    (tags : other.tags = column.tags) :
    { other with defaultText := column.defaultText } = column := by
  have name : other.name = column.name := hother.name.trans h.name.symm
  have type : other.type = column.type := hother.type.trans h.type.symm
  have notNull : other.notNull = column.notNull :=
    Bool.eq_iff_iff.2 (hother.notNull.trans h.notNull.symm)
  have unique : other.unique = column.unique :=
    Bool.eq_iff_iff.2 (hother.unique.trans h.unique.symm)
  have isPrimaryKey : other.isPrimaryKey = column.isPrimaryKey :=
    Bool.eq_iff_iff.2 (hother.isPrimaryKey.trans h.isPrimaryKey.symm)
  have foreignKey : other.foreignKey = column.foreignKey :=
    Option.ext fun found => (hother.foreignKey found).trans (h.foreignKey found).symm
  have defaultValue : other.defaultValue = column.defaultValue :=
    Option.ext fun found => (hother.defaultValue found).trans (h.defaultValue found).symm
  have camelName : other.camelName = column.camelName := by
    rw [derivedOther.camelName, derived.camelName, name, tags]
  have isForeignKey : other.isForeignKey = column.isForeignKey := by
    rw [derivedOther.isForeignKey, derived.isForeignKey, foreignKey]
  have toUpdate : other.toUpdate = column.toUpdate := by
    rw [derivedOther.toUpdate, derived.toUpdate, name, isPrimaryKey]
  have isListFilter : other.isListFilter = column.isListFilter := by
    rw [derivedOther.isListFilter, derived.isListFilter, tags]
  have listFilterName : other.listFilterName = column.listFilterName := by
    rw [derivedOther.listFilterName, derived.listFilterName, tags, camelName]
  have retrieveInList : other.retrieveInList = column.retrieveInList := by
    rw [derivedOther.retrieveInList, derived.retrieveInList, isPrimaryKey]
  have sort : other.sort = column.sort := by
    rw [derivedOther.sort, derived.sort, tags]
  have getWithParent : other.getWithParent = column.getWithParent := by
    rw [derivedOther.getWithParent, derived.getWithParent, tags]
  simp only [name, type, notNull, unique, isPrimaryKey, foreignKey, defaultValue, camelName,
    isForeignKey, tags, toUpdate, isListFilter, listFilterName, retrieveInList, sort, getWithParent]

theorem derives_of_column? {fragment : List Char} {suffix : String} {column : Column}
    (h : column? fragment suffix = some column) :
    Derives suffix column ∧ column.tags = Tag.scanMap fragment := by
  unfold column? at h
  dsimp only at h
  split at h
  · cases h
  cases h
  refine ⟨?_, rfl⟩
  exact {
    camelName := by rw [String.toList_ofList]
    isForeignKey := rfl
    toUpdate := by rw [String.toList_ofList]
    isListFilter := rfl
    listFilterName := rfl
    retrieveInList := rfl
    sort := rfl
    getWithParent := rfl }

theorem IsPlain.column?_render (h : d.IsPlain) (suffix : String) :
    ∃ column, column? d.render suffix = some column ∧ d.Defines column ∧ Derives suffix column ∧
      column.tags = Tag.scanMap d.render := by
  have blank : Stops (!isBlank ·) (' ' :: (d.type ++ clauseText d.clauses)) :=
    stops_cons.2 (by decide)
  have noBlank : ∀ x ∈ d.name.word, (!isBlank x) = true := fun x hx => by
    rw [d.name.noBlank x hx]
    rfl
  have name : d.render.takeWhile (!isBlank ·) = d.name.word := takeWhile_run noBlank blank
  have rest : d.render.dropWhile (!isBlank ·) = ' ' :: (d.type ++ clauseText d.clauses) :=
    dropWhile_run noBlank blank
  have unquoted : unquoteName d.name.word = d.name.word := d.name.written.unquoteName_render
  have nonempty : ¬d.name.word.isEmpty = true := mt List.isEmpty_iff.1 d.name.nonempty
  have type : beforeClause (["default"] :: clauseHeads) (' ' :: (d.type ++ clauseText d.clauses)) =
      d.type := by
    have first : ∀ head ∈ ["default"] :: clauseHeads, ∃ word ∈ clauseWords,
        head.head? = some word := by
      decide
    have spaced : Lacks clauseWords ([] ++ ' ' :: d.type) :=
      (lacks_nil isKeyword_clauseWord).join isKeyword_clauseWord (by decide) h.type.noClause
    have ends := beforeClause_append first spaced fun x (_ : x ∈ d.clauses) => x.head_mem_all
    rw [List.nil_append, Sql.trim_space, h.type.trimmed] at ends
    exact ends
  have notNull := h.occurs_wholePhrase?_iff (c := .notNull) rfl rfl
  have primaryKey := h.occurs_wholePhrase?_iff (c := .primaryKey) rfl rfl
  have unique := h.occurs_clause?_iff (c := .unique) rfl
  have read : ∃ column, column? d.render suffix = some column ∧ d.Defines column := by
    unfold column?
    simp only [h.isClean.withoutComments, name, rest, unquoted, if_neg nonempty, type]
    refine ⟨_, rfl, ?_⟩
    exact {
      name := rfl
      type := rfl
      notNull
      unique
      isPrimaryKey := primaryKey
      foreignKey := h.foreignKey_iff
      defaultValue := by
        intro found
        rw [← h.defaultValue_iff, Option.map_map, Option.map_map]
        rfl }
  obtain ⟨column, hcolumn, defines⟩ := read
  obtain ⟨derives, tags⟩ := derives_of_column? hcolumn
  exact ⟨column, hcolumn, defines, derives, tags⟩

/-! ## Tags -/

section Tags

open Tag

variable {text value : List Char}

theorem not_mem_of_own {x : Char} (own : ∀ x ∈ text, isOwnChar x = true) (hx : isOwnChar x = false) :
    x ∉ text := by
  intro hmem
  rw [own x hmem] at hx
  cases hx

theorem closing_not_mem (own : ∀ x ∈ text, isOwnChar x = true) :
    ∀ last ∈ [']', '\'', '"'], last ∉ text := by
  simp only [List.forall_mem_cons]
  exact ⟨not_mem_of_own own (by decide), not_mem_of_own own (by decide),
    not_mem_of_own own (by decide), List.forall_mem_nil _⟩

theorem spellings_append_clauseText (text : List Char)
    (h : ∀ x ∈ clauses, x.keyword ≠ "default") :
    spellings (text ++ clauseText clauses) = spellings text := by
  have own := isOwnChar_of_mem_clauseText h
  cases clauses with
  | nil => rw [clauseText, List.flatMap_nil, List.append_nil]
  | cons c clauses =>
    rw [clauseText_cons] at own ⊢
    have own := (List.forall_mem_cons.1 own).2
    have within : StaysWithin text (c.render ++ clauseText clauses) :=
      (staysWithin_nil text).of_closing fun last hlast hmem =>
        absurd hmem (closing_not_mem own last hlast)
    have none := spellings_append_of_not_mem (not_mem_of_own own (by decide)) []
    rw [List.append_nil] at none
    rw [spellings_append (by decide) within, none, spellings, List.append_nil]

theorem spellings_render (d : WrittenColumn) :
    spellings d.render = spellings (d.type ++ clauseText d.clauses) := by
  have own : ∀ x ∈ d.name.word ++ [' '], isOwnChar x = true := by
    intro x hx
    rcases List.mem_append.1 hx with hx | hx
    · exact d.name.isOwnChar_of_mem hx
    · rw [List.mem_singleton.1 hx]
      decide
  have whole : d.render = (d.name.word ++ [' ']) ++ (d.type ++ clauseText d.clauses) := by
    simp [render]
  rw [whole, spellings_append_of_not_mem (not_mem_of_own own (by decide))]

theorem spellings_of_no_default (h : ∀ x ∈ d.clauses, x.keyword ≠ "default") :
    spellings d.render = spellings d.type := by
  rw [spellings_render, spellings_append_clauseText d.type h]

/-- What is in front of a default value begins with a blank. -/
theorem exists_front_of_default (h : ∀ x ∈ clauses, x.keyword ≠ "default") :
    ∃ front, clauseText clauses ++ " default ".toList = ' ' :: front ∧
      ∀ x ∈ front, isOwnChar x = true := by
  have letters : " default ".toList.all isOwnChar = true := by decide +kernel
  have own : ∀ x ∈ clauseText clauses ++ " default ".toList, isOwnChar x = true :=
    List.forall_mem_append.2 ⟨isOwnChar_of_mem_clauseText h, List.all_eq_true.1 letters⟩
  obtain ⟨front, hfront⟩ : ∃ front, clauseText clauses ++ " default ".toList = ' ' :: front := by
    cases clauses with
    | nil => exact ⟨_, rfl⟩
    | cons c clauses => exact ⟨_, rfl⟩
  exact ⟨front, hfront, fun x hx => own x (hfront ▸ List.mem_cons_of_mem _ hx)⟩

/-- The tags of a type and of a default value, if none of the type goes on into the default. -/
theorem IsPlain.spellings_of_default (h : d.IsPlain) (hmem : .default value ∈ d.clauses)
    (within : StaysWithin d.type value) : spellings d.render = spellings d.type ++ spellings value := by
  obtain ⟨before, after, hsplit, hbefore, hafter, -, -⟩ := h.split hmem
  obtain ⟨front, hfront, own⟩ := exists_front_of_default hbefore
  have whole : clauseText d.clauses = ' ' :: (front ++ (value ++ clauseText after)) := by
    have written : clauseText d.clauses =
        (clauseText before ++ " default ".toList) ++ (value ++ clauseText after) := by
      simp [hsplit, clauseText_append, clauseText_cons, WrittenClause.render_default]
    rw [written, hfront, List.cons_append]
  -- of the clauses only the default value may hold what ends the value of a tag
  have inside : StaysWithin d.type (front ++ (value ++ clauseText after)) := by
    refine within.of_closing fun last hlast hmem => ?_
    rcases List.mem_append.1 hmem with hmem | hmem
    · exact absurd hmem (closing_not_mem own last hlast)
    · rcases List.mem_append.1 hmem with hmem | hmem
      · exact hmem
      · exact absurd hmem (closing_not_mem (isOwnChar_of_mem_clauseText hafter) last hlast)
  rw [spellings_render, whole, spellings_append (by decide) inside,
    spellings_append_of_not_mem (not_mem_of_own own (by decide)),
    spellings_append_clauseText value hafter]

theorem IsPlain.perm (h : d.IsPlain) (perm : clauses.Perm d.clauses) :
    { d with clauses }.IsPlain where
  name := h.name
  type := h.type
  clauses c hc := h.clauses c (perm.mem_iff.1 hc)
  once := (perm.map _).nodup_iff.2 h.once

/-- The order of the clauses does not matter to tags that stay within the type. -/
theorem IsPlain.tags_of_perm (h : d.IsPlain) (perm : clauses.Perm d.clauses)
    (within : ∀ value, .default value ∈ d.clauses → StaysWithin d.type value) :
    scanMap { d with clauses }.render = scanMap d.render := by
  have same : spellings { d with clauses }.render = spellings d.render := by
    by_cases hgiven : ∃ value, .default value ∈ d.clauses
    · obtain ⟨value, hmem⟩ := hgiven
      rw [h.spellings_of_default hmem (within value hmem),
        (h.perm perm).spellings_of_default (perm.mem_iff.2 hmem) (within value hmem)]
    · have hne := WrittenClause.keyword_ne_default fun value hmem => hgiven ⟨value, hmem⟩
      rw [spellings_of_no_default hne, spellings_of_no_default fun x hx => hne x (perm.mem_iff.1 hx)]
  rw [scanMap, scanMap, scan, scan, same]

end Tags

end WrittenColumn

/-! ## The order of clauses -/

open WrittenColumn

variable {d : WrittenColumn}

/-- **Clauses in any order.** A plain definition gives a column with its name and its type, and each
attribute where its clause is given; the others follow from these and from the tags. In another order
of the clauses a column with the same tags is the same but for the text behind the keyword of the
default, and the tags are the same unless one of the type goes on into the default value. -/
theorem column?_of_clauses (h : d.IsPlain) (suffix : String) :
    ∃ column, column? d.render suffix = some column ∧ d.Defines column ∧
      Derives suffix column ∧
      ∀ clauses, clauses.Perm d.clauses →
        ∃ other, column? { d with clauses }.render suffix = some other ∧ d.Defines other ∧
          Derives suffix other ∧
          (other.tags = column.tags → { other with defaultText := column.defaultText } = column) ∧
          ((∀ value, .default value ∈ d.clauses → Tag.StaysWithin d.type value) →
            other.tags = column.tags) := by
  obtain ⟨column, hcolumn, defines, derives, tags⟩ := h.column?_render suffix
  refine ⟨column, hcolumn, defines, derives, fun clauses perm => ?_⟩
  obtain ⟨other, hother, definesOther, derivesOther, tagsOther⟩ :=
    (h.perm perm).column?_render suffix
  have defined := definesOther.of_perm perm
  refine ⟨other, hother, defined, derivesOther, defines.eq_of_tags defined derives derivesOther,
    fun within => ?_⟩
  rw [tagsOther, tags, h.tags_of_perm perm within]

/-- A column with every clause. -/
def WrittenColumn.account : WrittenColumn where
  name := ⟨"usr_account".toList, by decide, List.all_eq_true.1 (by decide)⟩
  type := "numeric(10, 2)".toList
  clauses := [.unique,
    .references ⟨"abct_account_acc".toList, by decide, List.all_eq_true.1 (by decide)⟩
      ⟨"pk_acc_id".toList, by decide, List.all_eq_true.1 (by decide)⟩,
    .default "coalesce(0, 1)".toList, .notNull, .primaryKey]

/-- The last clause may be the first one. -/
theorem column?_of_clauses_account :
    String.ofList WrittenColumn.account.render =
        "usr_account numeric(10, 2) unique references abct_account_acc(pk_acc_id) " ++
          "default coalesce(0, 1) not null primary key" ∧
      WrittenColumn.account.IsPlain ∧
      ∃ column other, column? WrittenColumn.account.render "usr" = some column ∧
        column? { WrittenColumn.account with
          clauses := WrittenColumn.account.clauses.reverse }.render "usr" = some other ∧
        WrittenColumn.account.Defines column ∧
        { other with defaultText := column.defaultText } = column := by
  have text : String.ofList WrittenColumn.account.render =
      "usr_account numeric(10, 2) unique references abct_account_acc(pk_acc_id) " ++
        "default coalesce(0, 1) not null primary key" := by
    decide +kernel
  have plain : WrittenColumn.account.IsPlain := by decide +kernel
  have noTag : '#' ∉ WrittenColumn.account.type := by decide
  obtain ⟨column, hcolumn, defines, -, orders⟩ := column?_of_clauses plain "usr"
  obtain ⟨other, hother, -, -, same, tags⟩ := orders _ (List.reverse_perm _)
  exact ⟨text, plain, column, other, hcolumn, hother, defines,
    same (tags fun _ _ => Tag.staysWithin_of_not_mem noTag _)⟩

/-- A column whose type begins a tag that a default ends. -/
def WrittenColumn.openTag : WrittenColumn where
  name := ⟨"usr_code".toList, by decide, List.all_eq_true.1 (by decide)⟩
  type := "\"t#list-filter='x\"".toList
  clauses := [.notNull, .default "'y'".toList]

/-- What is in front of the default goes into the value of a tag, and with it the order of the
clauses. -/
theorem column?_of_open_tag :
    WrittenColumn.openTag.IsPlain ∧
      (column? WrittenColumn.openTag.render "usr").map (·.listFilterName) =
        some (some "x\" not null default ") ∧
      (column? { WrittenColumn.openTag with
          clauses := WrittenColumn.openTag.clauses.reverse }.render "usr").map (·.listFilterName) =
        some (some "x\" default ") := by
  decide +kernel

end ReleaseSchema.Ddl
