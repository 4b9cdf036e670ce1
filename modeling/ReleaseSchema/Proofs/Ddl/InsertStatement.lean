/-
The targets of insert statements. A statement is read from its keyword to the end of the
name of its table (`insertTarget?_written`), and no other one begins in what is left of it
(`InsertStatement.quiet_behind`). So the search through a script of such statements finds
the name of each of them and nothing else (`searchAllFrom_render`).
-/
import ReleaseSchema.Ddl.Data
import ReleaseSchema.Proofs.Ddl.Argument
import ReleaseSchema.Proofs.Distinct

namespace ReleaseSchema.Ddl

open Text

/-! ## Statements -/

/-- A keyword in any case. -/
structure Spelling (word : String) where
  letters : List Char
  folds : letters.map foldCase = word.toList

/-- Blanks, or nothing. -/
structure Blanks where
  run : List Char
  blank : ∀ c ∈ run, isBlank c = true

/-- What stands between two words: one blank or more. -/
structure Gap extends Blanks where
  nonempty : run ≠ []

/-- A schema and the point behind it, with the blanks around the point. -/
structure WrittenSchema where
  name : WrittenName
  before : Blanks
  behind : Blanks

def WrittenSchema.render (s : WrittenSchema) : List Char :=
  s.name.render ++ (s.before.run ++ '.' :: s.behind.run)

/-- The text begins with `insert`, blanks and `into`, in any case. -/
def BeginsInsert (text : List Char) : Prop :=
  ∃ (insert : Spelling "insert") (gap : Gap) (into : Spelling "into") (after : List Char),
    text = insert.letters ++ (gap.run ++ (into.letters ++ after))

/-- No insert statement begins in the text. -/
def NoInsert (text : List Char) : Prop := ∀ suffix, suffix <:+ text → ¬BeginsInsert suffix

/-- An insert statement as it is written. The name of its table ends where the rest begins, as it
does in front of a blank or a parenthesis, and is not taken for a schema by a point; in the rest no
other insert statement begins. -/
structure InsertStatement where
  lead : Blanks
  insert : Spelling "insert"
  first : Gap
  into : Spelling "into"
  second : Gap
  schema : Option WrittenSchema
  name : WrittenName
  rest : List Char
  ends : Stops isNameChar rest
  noPoint : (rest.dropWhile isBlank).head? ≠ some '.'
  alone : NoInsert rest

namespace InsertStatement

/-- The statement up to the end of the name. -/
def head (s : InsertStatement) : List Char :=
  s.insert.letters ++ (s.first.run ++ (s.into.letters ++ (s.second.run ++
    ((s.schema.elim [] WrittenSchema.render) ++ s.name.render))))

def render (s : InsertStatement) : List Char := s.lead.run ++ (s.head ++ (s.rest ++ [';']))

/-- The name of the table, without quotes and schema. -/
def target (s : InsertStatement) : String := String.ofList s.name.word

end InsertStatement

/-! ## Reading a statement -/

section Reading

variable {passed rest more : List Char}

theorem isKeyword_insert : IsKeyword "insert" := by decide

theorem isKeyword_into : IsKeyword "into" := by decide

namespace Spelling

variable {word : String} (spelling : Spelling word)

theorem exists_cons (h : IsKeyword word) :
    ∃ c letters, spelling.letters = c :: letters ∧ isWord c = true := by
  obtain ⟨hne, hword⟩ := isWord_of_map_foldCase h spelling.folds
  obtain ⟨c, letters, hletters⟩ := List.exists_cons_of_ne_nil hne
  exact ⟨c, letters, hletters, hword c (hletters ▸ List.mem_cons_self)⟩

theorem stops_isBlank (h : IsKeyword word) (rest : List Char) :
    Stops isBlank (spelling.letters ++ rest) := by
  obtain ⟨c, letters, hletters, hword⟩ := spelling.exists_cons h
  rw [hletters, List.cons_append, stops_cons, ← Bool.not_eq_true]
  intro hblank
  rw [isWord_of_isBlank hblank] at hword
  cases hword

theorem spelled?_append :
    Cursor.spelled? word ⟨passed, spelling.letters ++ rest⟩ =
      some ⟨spelling.letters.reverse ++ passed, rest⟩ :=
  letters?_eq_some_iff.2 ⟨_, _, rfl, spelling.folds, rfl⟩

theorem wordAndBlanks?_gap (gap : Gap) (stop : Stops isBlank rest) :
    wordAndBlanks? word ⟨passed, spelling.letters ++ (gap.run ++ rest)⟩ =
      some ⟨gap.run.reverse ++ (spelling.letters.reverse ++ passed), rest⟩ :=
  wordAndBlanks?_run spelling.spelled?_append gap.nonempty gap.blank stop

end Spelling

/-- What is read of a keyword and the blanks after it was written so. -/
theorem exists_of_wordAndBlanks? {word : String} {c : Cursor}
    (h : wordAndBlanks? word ⟨passed, rest⟩ = some c) :
    ∃ (spelling : Spelling word) (gap : Gap), rest = spelling.letters ++ (gap.run ++ c.rest) := by
  obtain ⟨d, hspelled, hblanks⟩ := Option.bind_eq_some_iff.1 h
  obtain ⟨letters, more, rfl, folds, rfl⟩ := letters?_eq_some_iff.1 hspelled
  obtain ⟨⟨run, e⟩, hrun, rfl⟩ := Option.map_eq_some_iff.1 hblanks
  obtain ⟨nonempty, blank, after, hmore, rfl⟩ := Cursor.exists_of_run? hrun
  exact ⟨⟨letters, folds⟩, ⟨⟨run, blank⟩, nonempty⟩, by rw [← hmore]⟩

theorem quoteHere_of_stops (stop : Stops (· == '"') rest) :
    quotedName?.quoteHere ⟨passed, rest⟩ = [] := by
  cases rest with
  | nil => rfl
  | cons c rest => simp [quotedName?.quoteHere, stops_cons.1 stop]

theorem quoteHere_cons : quotedName?.quoteHere ⟨passed, '"' :: rest⟩ = ['"'] := rfl

theorem quotedName?_render (n : WrittenName) (stop : Stops isNameChar rest) :
    quotedName? ⟨passed, n.render ++ rest⟩ =
      some (n.render, ⟨n.render.reverse ++ passed, rest⟩) := by
  unfold quotedName? WrittenName.render
  split
  · have quote : Stops isWord ('"' :: rest) := stops_cons.2 (by decide)
    simp only [List.cons_append, List.append_assoc, List.nil_append, WrittenName.skipChar_cons,
      quoteHere_cons]
    rw [Cursor.word?, Cursor.run?_append n.nonempty n.allWord quote]
    simp [WrittenName.skipChar_cons, quoteHere_cons]
  · have behind := WrittenName.stops_quote stop
    rw [WrittenName.skipChar_of_stops n.word_stops_quote, Cursor.word?,
      Cursor.run?_append n.nonempty n.allWord (WrittenName.stops_isWord stop),
      quoteHere_of_stops n.word_stops_quote]
    simp [WrittenName.skipChar_of_stops behind, quoteHere_of_stops behind]

namespace InsertStatement

variable (s : InsertStatement)

theorem stops_isNameChar_rest (more : List Char) : Stops isNameChar (s.rest ++ ';' :: more) := by
  cases hrest : s.rest with
  | nil => exact stops_cons.2 (by decide)
  | cons c rest =>
    have ends := s.ends
    rw [hrest] at ends
    exact ends.append (List.cons_ne_nil _ _) _

theorem head?_behind_blanks (more : List Char) :
    ((s.rest ++ ';' :: more).dropWhile isBlank).head? ≠ some '.' := by
  have noPoint := s.noPoint
  have stop : Stops isBlank (';' :: more) := stops_cons.2 (by decide)
  rw [dropWhile_append_of_stops stop]
  cases hrest : s.rest.dropWhile isBlank with
  | nil => simp
  | cons c rest => simpa [hrest] using noPoint

/-- A statement is read up to the end of the name, which is kept with its quotes. -/
theorem insertTarget?_written (start : Stops isWord passed) (more : List Char) :
    insertTarget? ⟨passed, s.head ++ (s.rest ++ ';' :: more)⟩ =
      some (s.name.render, ⟨s.head.reverse ++ passed, s.rest ++ ';' :: more⟩) := by
  obtain ⟨hne, hword⟩ := isWord_of_map_foldCase isKeyword_insert s.insert.folds
  have stop := s.stops_isNameChar_rest more
  have noPoint := s.head?_behind_blanks more
  have target : Stops isBlank ((s.schema.elim [] WrittenSchema.render) ++
      (s.name.render ++ (s.rest ++ ';' :: more))) := by
    cases s.schema with
    | none => exact s.name.stops_isBlank_render
    | some schema =>
      simp only [Option.elim_some, WrittenSchema.render, List.append_assoc]
      exact schema.name.stops_isBlank_render
  simp only [head, List.append_assoc]
  unfold insertTarget?
  obtain ⟨c, hstart⟩ := Option.isSome_iff_exists.1 ((boundary?_before hne hword passed
    (s.first.run ++ (s.into.letters ++ (s.second.run ++ ((s.schema.elim [] WrittenSchema.render) ++
      (s.name.render ++ (s.rest ++ ';' :: more))))))).2 start)
  obtain rfl := eq_of_boundary? hstart
  rw [hstart]
  simp only [Option.bind_eq_bind, Option.bind_some,
    s.insert.wordAndBlanks?_gap s.first (s.into.stops_isBlank isKeyword_into _),
    s.into.wordAndBlanks?_gap s.second target]
  cases s.schema with
  | none =>
    simp only [Option.elim_none, List.nil_append]
    rw [WrittenPath.qualifier?_of_no_point s.name stop noPoint, Option.bind_none,
      Option.orElse_none, quotedName?_render s.name stop]
    simp
  | some schema =>
    simp only [Option.elim_some, WrittenSchema.render, List.append_assoc, List.cons_append]
    rw [WrittenPath.qualifier?_blanks schema.name s.name schema.before.blank schema.behind.blank,
      Option.bind_some, quotedName?_render s.name stop]
    simp

end InsertStatement

end Reading

/-! ## Texts in which no statement begins -/

section Between

variable {text passed more : List Char}

theorem beginsInsert_of_insertTarget? {answer : List Char × Cursor}
    (h : insertTarget? ⟨passed, text⟩ = some answer) : BeginsInsert text := by
  obtain ⟨start, hstart, h⟩ := Option.bind_eq_some_iff.1 h
  obtain ⟨c, hinsert, h⟩ := Option.bind_eq_some_iff.1 h
  obtain ⟨d, hinto, -⟩ := Option.bind_eq_some_iff.1 h
  obtain rfl := eq_of_boundary? hstart
  obtain ⟨insert, gap, rfl⟩ := exists_of_wordAndBlanks? hinsert
  obtain ⟨into, after, hrest⟩ := exists_of_wordAndBlanks? hinto
  exact ⟨insert, gap, into, _, by rw [hrest]⟩

theorem beginsInsert_iff : BeginsInsert text ↔
    ((wordAndBlanks? "insert" (.start text)).bind (·.spelled? "into")).isSome = true := by
  constructor
  · rintro ⟨insert, gap, into, after, rfl⟩
    rw [Cursor.start, insert.wordAndBlanks?_gap gap (into.stops_isBlank isKeyword_into _),
      Option.bind_some, into.spelled?_append]
    rfl
  · intro h
    obtain ⟨d, hread⟩ := Option.isSome_iff_exists.1 h
    obtain ⟨c, hinsert, hinto⟩ := Option.bind_eq_some_iff.1 hread
    obtain ⟨insert, gap, rfl⟩ := exists_of_wordAndBlanks? hinsert
    obtain ⟨letters, after, hrest, folds, -⟩ := letters?_eq_some_iff.1 hinto
    exact ⟨insert, gap, ⟨letters, folds⟩, after, by rw [hrest]⟩

instance (text : List Char) : Decidable (BeginsInsert text) :=
  decidable_of_iff _ beginsInsert_iff.symm

instance (text : List Char) : Decidable (NoInsert text) :=
  decidable_of_iff (∀ suffix ∈ text.tails, ¬BeginsInsert suffix) (by simp [NoInsert])

theorem insertTarget?_eq_none (h : ¬BeginsInsert text) : insertTarget? ⟨passed, text⟩ = none := by
  cases hread : insertTarget? ⟨passed, text⟩ with
  | none => rfl
  | some answer => exact absurd (beginsInsert_of_insertTarget? hread) h

theorem not_beginsInsert_nil : ¬BeginsInsert [] := by
  rintro ⟨insert, gap, into, after, hnil⟩
  obtain ⟨c, letters, hletters, -⟩ := insert.exists_cons isKeyword_insert
  simp [hletters] at hnil

theorem not_beginsInsert_of_blank {c : Char} (h : isBlank c = true) (text : List Char) :
    ¬BeginsInsert (c :: text) := by
  rintro ⟨insert, gap, into, after, hsplit⟩
  obtain ⟨d, letters, hletters, hword⟩ := insert.exists_cons isKeyword_insert
  rw [hletters, List.cons_append] at hsplit
  obtain ⟨rfl, -⟩ := List.cons.inj hsplit
  rw [isWord_of_isBlank h] at hword
  cases hword

/-- No statement begins in front of a semicolon that does not begin there without it. -/
theorem BeginsInsert.of_semicolon (h : BeginsInsert (text ++ ';' :: more)) : BeginsInsert text := by
  obtain ⟨insert, gap, into, after, hsplit⟩ := h
  have noWord {word : String} (hkey : IsKeyword word) (spelling : Spelling word) :
      ';' ∉ spelling.letters := by
    intro hmem
    have hword := (isWord_of_map_foldCase hkey spelling.folds).2 _ hmem
    revert hword
    decide
  have noBlank : ';' ∉ gap.run := by
    intro hmem
    have hblank := gap.blank _ hmem
    revert hblank
    decide
  have absent : ';' ∉ insert.letters ++ (gap.run ++ into.letters) := by
    simp [noWord isKeyword_insert insert, noWord isKeyword_into into, noBlank]
  have hsplit : text ++ ';' :: more = (insert.letters ++ (gap.run ++ into.letters)) ++ after := by
    simp [hsplit]
  rcases List.append_eq_append_iff.1 hsplit with ⟨behind, hwords, hbehind⟩ | ⟨behind, htext, -⟩
  · cases behind with
    | nil => exact ⟨insert, gap, into, [], by simp [hwords]⟩
    | cons c behind =>
      obtain ⟨rfl, -⟩ := List.cons.inj hbehind
      rw [hwords] at absent
      simp at absent
  · exact ⟨insert, gap, into, behind, by simp [htext]⟩

/-- No statement begins in the text, whatever follows it. -/
def Quiet (text : List Char) : Prop :=
  ∀ a b, text = a ++ b → b ≠ [] → ∀ more, ¬BeginsInsert (b ++ more)

theorem quiet_nil : Quiet [] :=
  fun _ _ hsplit hne => absurd (List.append_eq_nil_iff.1 hsplit.symm).2 hne

theorem Quiet.append_blanks (h : Quiet text) (blanks : Blanks) : Quiet (text ++ blanks.run) := by
  have inside : ∀ a b, blanks.run = a ++ b → b ≠ [] → ∀ more, ¬BeginsInsert (b ++ more) := by
    intro a b hsplit hne more
    obtain ⟨c, b, rfl⟩ := List.exists_cons_of_ne_nil hne
    exact not_beginsInsert_of_blank (blanks.blank c (by simp [hsplit])) _
  intro a b hsplit hne more
  rcases List.append_eq_append_iff.1 hsplit with ⟨behind, -, hbehind⟩ | ⟨behind, htext, rfl⟩
  · exact inside behind b hbehind hne more
  · by_cases hbehind : behind = []
    · subst hbehind
      exact inside [] _ rfl hne more
    · rw [List.append_assoc]
      exact h a behind htext hbehind _

/-- A search passes a text in which no statement begins. -/
theorem findFrom_of_quiet (h : Quiet text) (rest : List Char) :
    Cursor.findFrom insertTarget? passed (text ++ rest) =
      Cursor.findFrom insertTarget? (text.reverse ++ passed) rest :=
  Cursor.findFrom_append fun a b hsplit hne => insertTarget?_eq_none (h a b hsplit hne rest)

end Between

/-! ## Scripts -/

section Scripts

variable {passed between : List Char}

namespace InsertStatement

/-- Behind the name of a statement and up to its end no other one begins. -/
theorem quiet_behind (s : InsertStatement) : Quiet (s.rest ++ [';']) := by
  intro a b hsplit hne more
  obtain ⟨inside, last, rfl⟩ := (List.eq_nil_or_concat b).resolve_left hne
  rw [List.concat_eq_append] at hsplit ⊢
  rw [← List.append_assoc] at hsplit
  obtain ⟨hrest, hlast⟩ := List.append_inj' hsplit rfl
  obtain ⟨rfl, -⟩ := List.cons.inj hlast
  rw [List.append_assoc]
  exact fun begins => s.alone inside ⟨a, hrest.symm⟩ begins.of_semicolon

/-- A search finds the name of the statement that comes next, and goes on behind it. -/
theorem exists_find?_render (s : InsertStatement) (quiet : Quiet between)
    (start : Stops isWord (between.reverse ++ passed)) (more : List Char) :
    ∃ place behind, Cursor.find? insertTarget? ⟨passed, between ++ (s.render ++ more)⟩ =
      some (place, s.name.render, ⟨behind, (s.rest ++ [';']) ++ more⟩) := by
  have lead : Stops isWord ((between ++ s.lead.run).reverse ++ passed) := by
    rw [List.reverse_append, List.append_assoc]
    cases hlead : s.lead.run.reverse with
    | nil => exact start
    | cons c blanks =>
      have hc := s.lead.blank c (List.mem_reverse.1 (hlead ▸ List.mem_cons_self))
      exact stops_cons.2 (isWord_of_isBlank hc)
  have text : between ++ (s.render ++ more) =
      (between ++ s.lead.run) ++ (s.head ++ (s.rest ++ ';' :: more)) := by
    simp [render]
  have found := Cursor.findFrom_of_some (s.insertTarget?_written lead more)
  rw [← findFrom_of_quiet (quiet.append_blanks s.lead), ← text] at found
  rw [List.append_assoc, List.singleton_append]
  exact ⟨_, _, found⟩

/-- A search through statements finds the name of each of them. -/
theorem searchAllFrom_render (statements : List InsertStatement) {fuel : Nat}
    (enough : statements.length ≤ fuel) (quiet : Quiet between)
    (start : Stops isWord (between.reverse ++ passed)) :
    searchAllFrom insertTarget? fuel ⟨passed, between ++ statements.flatMap render⟩ =
      statements.map (·.name.render) := by
  induction statements generalizing fuel passed between with
  | nil =>
    cases fuel with
    | zero => rfl
    | succ fuel =>
      have nothing : Cursor.findFrom insertTarget? passed (between ++ []) = none := by
        rw [findFrom_of_quiet quiet, Cursor.findFrom, insertTarget?_eq_none not_beginsInsert_nil]
        rfl
      simp only [List.flatMap_nil, searchAllFrom, Cursor.find?, nothing, List.map_nil]
  | cons s statements ih =>
    cases fuel with
    | zero => exact absurd enough (Nat.not_succ_le_zero _)
    | succ fuel =>
      obtain ⟨place, behind, found⟩ :=
        s.exists_find?_render quiet start (statements.flatMap render)
      have others := @ih behind (s.rest ++ [';']) fuel (Nat.le_of_succ_le_succ enough)
        s.quiet_behind (by simpa using stops_cons.2 (by decide))
      rw [List.flatMap_cons, searchAllFrom, found]
      simp only [others, List.map_cons]

theorem length_le_length_flatMap (statements : List InsertStatement) :
    statements.length ≤ (statements.flatMap render).length := by
  induction statements with
  | nil => exact Nat.le_refl 0
  | cons s statements ih =>
    have closed : 0 < s.render.length := by
      simp only [render, List.length_append, List.length_singleton]
      omega
    rw [List.flatMap_cons, List.length_append, List.length_cons]
    omega

theorem searchAll_render (statements : List InsertStatement) :
    searchAll insertTarget? (statements.flatMap render) = statements.map (·.name.render) :=
  searchAllFrom_render statements (Nat.le_succ_of_le (length_le_length_flatMap statements))
    quiet_nil Stops.nil

/-- **Targets.** A script of insert statements has the names of their tables as its targets, each
once and in the order in which they come first. -/
theorem targets_of_inserts (history : History) (statements : List InsertStatement) :
    (dataScript history (statements.flatMap render)).targets = distinct (statements.map target) ∧
    (dataScript history (statements.flatMap render)).targets.Nodup ∧
    (∀ name, name ∈ (dataScript history (statements.flatMap render)).targets ↔
      ∃ s ∈ statements, s.target = name) ∧
    (dataScript history (statements.flatMap render)).targets.Pairwise fun a b =>
      (statements.map target).idxOf a < (statements.map target).idxOf b := by
  have targets : (dataScript history (statements.flatMap render)).targets =
      distinct (statements.map target) := by
    rw [dataScript, insertTargets, searchAll_render, List.map_map]
    refine congrArg distinct (List.map_congr_left fun s _ => ?_)
    rw [Function.comp_apply, s.name.unquoteName_render, target]
  rw [targets]
  refine ⟨rfl, nodup_distinct _, fun name => ?_, pairwise_idxOf_distinct _⟩
  rw [mem_distinct, List.mem_map]

/-- A statement in small letters. -/
def intoRoles : InsertStatement where
  lead := ⟨[], List.all_eq_true.1 (by decide)⟩
  insert := ⟨"insert".toList, by decide⟩
  first := ⟨⟨[' '], List.all_eq_true.1 (by decide)⟩, by decide⟩
  into := ⟨"into".toList, by decide⟩
  second := ⟨⟨[' '], List.all_eq_true.1 (by decide)⟩, by decide⟩
  schema := none
  name := ⟨"abct_role_rol".toList, false, by decide, List.all_eq_true.1 (by decide)⟩
  rest := " (rol_name) values ('admin')".toList
  ends := by decide
  noPoint := by decide
  alone := by decide +kernel

/-- A statement with a schema and quotes, whose values hold the keywords but not one after the
other. -/
def intoPersons : InsertStatement where
  lead := ⟨['\n'], List.all_eq_true.1 (by decide)⟩
  insert := ⟨"INSERT".toList, by decide⟩
  first := ⟨⟨[' ', '\n', ' '], List.all_eq_true.1 (by decide)⟩, by decide⟩
  into := ⟨"Into".toList, by decide⟩
  second := ⟨⟨['\t'], List.all_eq_true.1 (by decide)⟩, by decide⟩
  schema := some ⟨⟨"public".toList, false, by decide, List.all_eq_true.1 (by decide)⟩,
    ⟨[], List.all_eq_true.1 (by decide)⟩, ⟨[' '], List.all_eq_true.1 (by decide)⟩⟩
  name := ⟨"abct_person_per".toList, true, by decide, List.all_eq_true.1 (by decide)⟩
  rest := "(per_email) values ('insert', 'into')".toList
  ends := by decide
  noPoint := by decide
  alone := by decide +kernel

/-- The roles are inserted into twice. -/
theorem targets_of_inserts_roles_persons :
    [intoRoles, intoPersons].map (fun s => String.ofList s.render) =
      ["insert into abct_role_rol (rol_name) values ('admin');",
        "\nINSERT \n Into\tpublic. \"abct_person_per\"(per_email) values ('insert', 'into');"] ∧
    (dataScript default ([intoRoles, intoPersons, intoRoles].flatMap render)).targets =
      ["abct_role_rol", "abct_person_per"] := by
  refine ⟨rfl, ?_⟩
  rw [(targets_of_inserts default [intoRoles, intoPersons, intoRoles]).1]
  decide

end InsertStatement

end Scripts

end ReleaseSchema.Ddl
