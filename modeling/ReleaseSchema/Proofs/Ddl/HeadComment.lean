/-
Tag comments in the heads of definitions.

A head is read up to a parenthesis, and no reader of heads passes a slash
(`PassesNoSlash`). So a kept comment anywhere in front of the parenthesis hides
all that the definition says, when the words that begin a head are not behind it
(`table_of_head_comment`, `routine_of_head_comment`).
-/
import ReleaseSchema.Ddl.Table
import ReleaseSchema.Proofs.Ddl.Clause
import ReleaseSchema.Proofs.Ddl.RoutineDefinition

namespace ReleaseSchema.Ddl

open Text

/-! ## Readers of heads -/

section Readers

open Cursor

variable {front behind : List Char} {name : List Char} {c list : Cursor}

/-- Whether the name of a table is read in front of a character that ends it does not change when more
text follows. -/
theorem tableHead?_awaits {x : Char} (more : List Char) (hx : EndsName x)
    (hword : ∀ word ∈ ["table", "exists"], foldCase x ∉ word.toList) (h : c.Awaits x) :
    tableHead? (c.extend more) = (tableHead? c).map (extendSnd more) := by
  suffices Tracks (extendSnd more) (fun _ => True) (tableHead? c) (tableHead? (c.extend more))
    from this.1
  refine Tracks.bind (boundary?_awaits more h) fun b hb => ?_
  refine Tracks.bind (Tracks.orElse
    (wordAndBlanks?_awaits more (hword "table" (by decide)) hx hb)
    (wordAndBlanks?_awaits more (hword "exists" (by decide)) hx hb)) fun n hn => ?_
  refine (qualifiedName?_awaits more hx hn).bind fun a ha => ?_
  have list := skipBlanks_awaits more hx ha
  simp only [extendSnd, list.1, char?_extend more list.2.rest_ne_nil]
  cases a.2.skipBlanks.char? '(' with
  | none => exact .none
  | some _ => exact .some (extendSnd more) trivial

theorem awaits_of_tableHead? (h : tableHead? c = some (name, list)) : c.Awaits '(' := by
  obtain ⟨b, hb, h⟩ := Option.bind_eq_some_iff.1 h
  obtain ⟨n, hn, h⟩ := Option.bind_eq_some_iff.1 h
  obtain ⟨⟨word, d⟩, hword, h⟩ := Option.bind_eq_some_iff.1 h
  obtain ⟨opened, hopened, -⟩ := Option.bind_eq_some_iff.1 h
  obtain ⟨rest, hrest, -⟩ := exists_of_char? hopened
  have opens : '(' ∈ d.skipBlanks.rest := hrest ▸ List.mem_cons_self
  have named : d.skipBlanks.rest <:+ n.rest :=
    (suffix_skipWhile isBlank d).trans (suffix_of_qualifiedName? hword)
  have keyword : n.rest <:+ b.rest := by
    obtain htable | ⟨-, hexists⟩ := (Option.orElse_eq_some _ _ _).1 hn
    · exact suffix_of_wordAndBlanks? htable
    · exact suffix_of_wordAndBlanks? hexists
  exact (named.trans (keyword.trans (suffix_of_boundary? hb))).mem opens

/-- A reader that needs a parenthesis and reads over no slash to find it. -/
structure PassesNoSlash (reader : Cursor → Option α) : Prop where
  awaits : ∀ c a, reader c = some a → c.Awaits '('
  extend : ∀ c more, c.Awaits '/' → reader c = none → reader (c.extend more) = none

theorem PassesNoSlash.eq_none {reader : Cursor → Option α} (h : PassesNoSlash reader)
    {text : List Char} (noParen : '(' ∉ text) (passed more : List Char) :
    reader ⟨passed, text ++ '/' :: more⟩ = none := by
  have cut : reader ⟨passed, text ++ ['/']⟩ = none := by
    by_contra hsome
    obtain ⟨answer, hread⟩ := Option.ne_none_iff_exists'.1 hsome
    have opens : '(' ∈ text ++ ['/'] := h.awaits _ _ hread
    simp [noParen] at opens
  have awaits : Awaits '/' ⟨passed, text ++ ['/']⟩ := List.mem_append_right _ List.mem_cons_self
  have read := h.extend _ more awaits cut
  rw [Cursor.extend, List.append_assoc] at read
  exact read

theorem passesNoSlash_tableHead? : PassesNoSlash tableHead? where
  awaits _ _ h := awaits_of_tableHead? h
  extend _ more h hnone := by rw [tableHead?_awaits more (by decide) (by decide) h, hnone]; rfl

theorem passesNoSlash_routineHead? : PassesNoSlash routineHead? where
  awaits _ _ h := awaits_of_routineHead? h
  extend _ more h hnone := by rw [routineHead?_awaits more (by decide) h, hnone]; rfl

theorem wordAt_of_tableHead? {answer : List Char × Cursor} (h : tableHead? c = some answer) :
    ∃ word ∈ ["table", "exists"], WordAt word c := by
  obtain ⟨b, hb, h⟩ := Option.bind_eq_some_iff.1 h
  obtain ⟨n, hn, -⟩ := Option.bind_eq_some_iff.1 h
  obtain htable | ⟨-, hexists⟩ := (Option.orElse_eq_some _ _ _).1 hn
  · exact ⟨"table", by decide, wordAt_of_wordAndBlanks? (by decide) hb htable⟩
  · exact ⟨"exists", by decide, wordAt_of_wordAndBlanks? (by decide) hb hexists⟩

theorem needsWord_routineHead? : NeedsWord "create" routineHead? := by
  intro c answer h
  obtain ⟨b, hb, h⟩ := Option.bind_eq_some_iff.1 h
  obtain ⟨e, he, -⟩ := Option.bind_eq_some_iff.1 h
  exact wordAt_of_wordAndBlanks? (by decide) hb he

theorem needsWord_createTable? : NeedsWord "create" createTable? := by
  intro c answer h
  obtain ⟨b, hb, h⟩ := Option.bind_eq_some_iff.1 h
  obtain ⟨e, he, -⟩ := Option.bind_eq_some_iff.1 h
  exact wordAt_of_wordAndBlanks? (by decide) hb he

/-- Behind a blank a word stands where it stands in the text behind it. -/
theorem not_wordAt_behind {words : List String} (keywords : ∀ word ∈ words, IsKeyword word)
    {text : List Char} (hlacks : Lacks words text) {a b : List Char} (hsplit : text = a ++ b)
    (passed : List Char) : ∀ word ∈ words, ¬WordAt word ⟨a.reverse ++ passed, b⟩ :=
  fun word hword ⟨hpassed, hrun⟩ =>
    (lacks_iff keywords).1 hlacks word hword a b hsplit ⟨hpassed.of_append, hrun⟩

/-- No head is found that is not behind the first slash, where its words are not. -/
theorem PassesNoSlash.search?_eq_none {reader : Cursor → Option α} {words : List String}
    (h : PassesNoSlash reader) (keywords : ∀ word ∈ words, IsKeyword word)
    (needs : ∀ c a, reader c = some a → ∃ word ∈ words, WordAt word c)
    (noParen : '(' ∉ front) (hlacks : Lacks words ('/' :: behind)) :
    search? reader (front ++ '/' :: behind) = none := by
  refine findFrom_eq_none fun a b hsplit => ?_
  rcases List.append_eq_append_iff.1 hsplit with ⟨m, rfl, hbehind⟩ | ⟨m, rfl, rfl⟩
  · cases hread : reader ⟨(front ++ m).reverse ++ (start (front ++ '/' :: behind)).passed, b⟩ with
    | none => rfl
    | some answer =>
      obtain ⟨word, hword, stands⟩ := needs _ _ hread
      rw [List.reverse_append, List.append_assoc] at stands
      exact absurd stands (not_wordAt_behind keywords hlacks hbehind _ word hword)
  · rw [List.mem_append, not_or] at noParen
    exact h.eq_none noParen.2 _ behind

theorem search?_tableHead_eq_none (noParen : '(' ∉ front)
    (hlacks : Lacks ["table", "exists"] ('/' :: behind)) :
    search? tableHead? (front ++ '/' :: behind) = none :=
  passesNoSlash_tableHead?.search?_eq_none (by decide) (fun _ _ => wordAt_of_tableHead?) noParen hlacks

theorem search?_routineHead_eq_none (noParen : '(' ∉ front)
    (hlacks : Lacks ["create"] ('/' :: behind)) :
    search? routineHead? (front ++ '/' :: behind) = none :=
  passesNoSlash_routineHead?.search?_eq_none (by decide)
    (fun c a h => ⟨"create", List.mem_cons_self, needsWord_routineHead? c a h⟩) noParen hlacks

/-- Behind the words that begin a table no name of one is found either. -/
theorem search?_tableHead_behind {place next : Cursor} (noParen : '(' ∉ front)
    (noTable : Lacks ["table", "exists"] ('/' :: behind)) (noCreate : Lacks ["create"] ('/' :: behind))
    (h : search? createTable? (front ++ '/' :: behind) = some (place, next)) :
    search? tableHead? place.rest = none := by
  obtain ⟨before, after, hsplit, rfl, hread, -⟩ := Cursor.exists_of_findFrom h
  rcases List.append_eq_append_iff.1 hsplit with ⟨m, rfl, hbehind⟩ | ⟨m, rfl, rfl⟩
  · have stands := needsWord_createTable? _ _ hread
    rw [List.reverse_append, List.append_assoc] at stands
    exact absurd stands
      (not_wordAt_behind (by decide) noCreate hbehind _ "create" List.mem_cons_self)
  · rw [List.mem_append, not_or] at noParen
    exact search?_tableHead_eq_none noParen.2 noTable

end Readers

/-! ## Definitions -/

/-- What a definition says of a table in its column list. -/
def tableShape (t : Table) : List Column × Option String := (t.columns, t.primaryKey)

/-- What a definition says of a routine behind its name. -/
def routineShape (r : Routine) :
    List Argument × Option Volatility × ReturnType × Option (List Column) :=
  (r.arguments, r.volatility, r.returnType, r.returnColumns)

section Definitions

variable {front comment back : List Char}

/-- With a comment in front of its column list, a table has no columns. -/
theorem table_of_head_comment (history : History) (kept : Sql.IsKept comment) (noParen : '(' ∉ front)
    (hlacks : Lacks ["create", "table", "exists"] (comment ++ ' ' :: back)) :
    ∃ tags, table history (front ++ ' ' :: (comment ++ ' ' :: back)) =
      namedTable history tags history.name.toList := by
  obtain ⟨behind, hcomment, htext⟩ := kept.exists_cut front back
  rw [hcomment] at hlacks
  rw [htext]
  have noParen : '(' ∉ front ++ [' '] := by simpa using noParen
  have noTable := hlacks.subset (show ["table", "exists"] ⊆ _ by decide)
  have noCreate := hlacks.subset (show ["create"] ⊆ _ by decide)
  unfold table
  cases hcreate : search? createTable? ((front ++ [' ']) ++ '/' :: behind) with
  | none => exact ⟨_, by simp only [search?_tableHead_eq_none noParen noTable]; rfl⟩
  | some found =>
    obtain ⟨place, next⟩ := found
    have noName := search?_tableHead_behind noParen noTable noCreate hcreate
    exact ⟨_, by simp only [noName]; rfl⟩

/-- With a comment in front of its arguments, nothing is read of a routine. -/
theorem routine_of_head_comment (history : History) (kept : Sql.IsKept comment) (noParen : '(' ∉ front)
    (hlacks : Lacks ["create"] (comment ++ ' ' :: back)) :
    routine history (front ++ ' ' :: (comment ++ ' ' :: back)) =
      namedRoutine history history.name.toList := by
  obtain ⟨behind, hcomment, htext⟩ := kept.exists_cut front back
  rw [hcomment] at hlacks
  have noParen : '(' ∉ front ++ [' '] := by simpa using noParen
  rw [htext, routine, search?_routineHead_eq_none noParen hlacks]

theorem tableShape_namedTable (history : History) (tags : TagMap) (name : List Char) :
    tableShape (namedTable history tags name) = ([], none) := by
  unfold namedTable
  split <;> rfl

theorem routineShape_namedRoutine (history : History) (name : List Char) :
    routineShape (namedRoutine history name) = ([], none, .void, none) := by
  unfold namedRoutine
  split <;> rfl

theorem primaryKey_of_columns (history : History) (sql : List Char) :
    (table history sql).primaryKey =
      ((table history sql).columns.find? (·.isPrimaryKey)).map (·.name) := by
  have named : ∀ tags name, (namedTable history tags name).primaryKey =
      ((namedTable history tags name).columns.find? (·.isPrimaryKey)).map (·.name) := by
    intro tags name
    unfold namedTable
    split <;> rfl
  unfold table
  dsimp only
  split
  · exact named _ _
  split
  · exact named _ _
  · rfl

theorem tableShape_eq_iff (history : History) (sql : List Char) :
    tableShape (table history sql) = ([], none) ↔ (table history sql).columns = [] := by
  rw [tableShape, primaryKey_of_columns, Prod.mk.injEq]
  refine and_iff_left_of_imp fun hnone => ?_
  rw [hnone]
  rfl

end Definitions

end ReleaseSchema.Ddl
