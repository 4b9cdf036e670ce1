/-
Tag comments among the attributes of a routine.

The volatility is the first keyword of the attributes, and a blank cuts the
search in two (`firstVolatility?_append`), so a comment in front of the written
keyword has the first say. What is returned is looked for at the beginning only:
a comment in front of it hides it, and one behind a type goes into the type up to
the next attribute (`returned_commented`).

With the heads of definitions this tells what is the same with and without a
comment between two words (`shape_of_tag_comment`).
-/
import ReleaseSchema.Proofs.Ddl.HeadComment
import ReleaseSchema.Proofs.Schema.Routine

namespace ReleaseSchema.Ddl

open Text

/-! ## The volatility -/

section Volatility

variable {a b text : List Char}

theorem volatilityWord?_eq (c : Cursor) :
    volatilityWord? c = Volatility.all.findSome? fun v =>
      (Cursor.wholePhrase? [v.name] c).map fun _ => c.rest.take v.name.length := by
  cases hstart : c.boundary? with
  | none =>
    simp only [volatilityWord?, Cursor.wholePhrase?, hstart, Option.bind_eq_bind, Option.bind_none,
      Option.map_none]
    exact (List.findSome?_eq_none_iff.2 fun _ _ => rfl).symm
  | some start =>
    obtain rfl := eq_of_boundary? hstart
    simp only [volatilityWord?, Cursor.wholePhrase?, hstart, Option.bind_eq_bind, Option.bind_some,
      Option.map_eq_bind, Option.bind_assoc, Cursor.phrase?]
    rfl

/-- The same keyword is read where the same keywords stand. -/
theorem volatilityWord?_congr {c d : Cursor}
    (same : ∀ word ∈ volatilityWords, WordAt word c ↔ WordAt word d)
    (take : ∀ word ∈ volatilityWords, WordAt word c →
      c.rest.take word.length = d.rest.take word.length) :
    volatilityWord? c = volatilityWord? d := by
  have each : ∀ v ∈ Volatility.all,
      ((Cursor.wholePhrase? [v.name] c).map fun _ => c.rest.take v.name.length) =
        (Cursor.wholePhrase? [v.name] d).map fun _ => d.rest.take v.name.length := by
    intro v hv
    have hmem : v.name ∈ volatilityWords := List.mem_map_of_mem hv
    have keyword := isKeyword_volatility v.name hmem
    by_cases stands : WordAt v.name c
    · obtain ⟨e, he⟩ := Option.isSome_iff_exists.1 ((wholePhrase?_isSome_iff keyword).2 stands)
      obtain ⟨f, hf⟩ := Option.isSome_iff_exists.1
        ((wholePhrase?_isSome_iff keyword).2 ((same v.name hmem).1 stands))
      rw [he, hf, Option.map_some, Option.map_some, take v.name hmem stands]
    · rw [(wholePhrase?_eq_none_iff keyword).2 stands,
        (wholePhrase?_eq_none_iff keyword).2 (mt (same v.name hmem).2 stands)]
      rfl
  rw [volatilityWord?_eq, volatilityWord?_eq]
  generalize Volatility.all = all at each ⊢
  induction all with
  | nil => rfl
  | cons v all ih =>
    obtain ⟨first, others⟩ := List.forall_mem_cons.1 each
    rw [List.findSome?_cons, List.findSome?_cons, first, ih others]

/-- The first keyword of volatility in a text, as it is written. -/
def firstVolatility? (text : List Char) : Option (List Char) :=
  (search? volatilityWord? text).map (·.2)

theorem volatility?_eq (text : List Char) :
    volatility? text = (firstVolatility? text).bind Volatility.ofKeyword? := by
  rw [volatility?, firstVolatility?]
  cases search? volatilityWord? text <;> rfl

/-- The first keyword is in front of a blank, or else behind it. -/
theorem firstVolatility?_append (a b : List Char) :
    firstVolatility? (a ++ ' ' :: b) = (firstVolatility? a).or (firstVolatility? b) := by
  refine Cursor.answer_append b (fun passed text => ?_) (fun text passed rest => ?_) a
  · refine volatilityWord?_congr (fun word _ => wordAt_append (stops_cons.2 (by decide))) ?_
    intro word _ stands
    rw [wordAt_append (stops_cons.2 (by decide))] at stands
    have letters := congrArg List.length stands.2
    have short := (List.takeWhile_prefix isWord (l := text)).length_le
    rw [List.length_map, String.length_toList] at letters
    exact List.take_append_of_le_length (by dsimp only at letters; omega)
  · refine volatilityWord?_congr (fun word _ => ?_) fun _ _ _ => rfl
    have start : Stops isWord (text ++ ' ' :: passed) ↔ Stops isWord text := by
      cases text with
      | nil => exact iff_of_true (stops_cons.2 (by decide)) Stops.nil
      | cons x text => exact stops_cons.trans stops_cons.symm
    exact and_congr_left' start

theorem volatility?_space (text : List Char) : volatility? (' ' :: text) = volatility? text := by
  have split := firstVolatility?_append [] text
  rw [List.nil_append] at split
  rw [volatility?_eq, split, volatility?_eq]
  rfl

/-- A comment behind attributes without a keyword of volatility comes before all that is behind it. -/
theorem volatility?_comment {front comment rest : List Char} (h : Lacks volatilityWords front) :
    volatility? (front ++ ' ' :: (comment ++ ' ' :: rest)) =
      match firstVolatility? comment with
      | some word => Volatility.ofKeyword? word
      | none => volatility? rest := by
  have none : firstVolatility? front = none := by
    rw [firstVolatility?, search?_volatilityWord_of_lacks h]
    rfl
  rw [volatility?_eq, firstVolatility?_append, firstVolatility?_append, none, Option.none_or]
  cases firstVolatility? comment with
  | none => rw [Option.none_or, ← volatility?_eq]
  | some word => rfl

end Volatility

/-! ## What a routine returns -/

section Returned

variable {declared text rest more : List Char}

theorem slash_mem_ofText : '/' ∈ (ReturnType.ofText text).render.toList ↔ '/' ∈ text := by
  have inside : '/' ∈ trim text ↔ '/' ∈ text := mem_trim_iff (by decide)
  have letters : ∀ a b : List Char, lowerAscii a = lowerAscii b → '/' ∉ lowerAscii b → '/' ∉ a := by
    intro a b heq hb hmem
    exact hb (heq ▸ List.mem_map_of_mem (f := Char.toLower) hmem)
  rw [← inside]
  unfold ReturnType.ofText
  dsimp only
  split
  next void =>
    refine iff_of_false (by decide) (letters _ _ (sameLetters_iff.1 void) (by decide))
  split
  next table =>
    refine iff_of_false (by decide) (letters _ _ (sameLetters_iff.1 table) (by decide))
  split
  next setOf =>
    -- the slash is behind the letters of the keyword
    obtain ⟨more, hmore⟩ := List.isPrefixOf_iff_prefix.1 setOf
    have front : '/' ∉ (trim text).take "setof ".length := by
      refine letters _ "setof ".toList ?_ (by decide)
      have := congrArg (List.take "setof ".length) hmore
      rw [lowerAscii, List.map_take]
      exact this.symm
    have cut : '/' ∈ trim text ↔ '/' ∈ (trim text).drop "setof ".length := by
      have whole := List.take_append_drop "setof ".length (trim text)
      rw [← whole, List.mem_append, or_iff_right front, whole]
    have keyword : '/' ∉ "setof ".toList := by decide
    rw [cut, ReturnType.render_setOf, List.mem_append, or_iff_right keyword,
      mem_trim_iff (by decide)]
  next => rw [ReturnType.render, String.toList_ofList]

theorem endsType_slash {blanks : List Char} (h : ∀ c ∈ blanks, isBlank c = true) (rest : List Char) :
    endsType (blanks ++ '/' :: rest) = false := by
  have skipped : (blanks ++ '/' :: rest).dropWhile isBlank = '/' :: rest :=
    dropWhile_run h (stops_cons.2 (by decide))
  have stop : Stops isWord ('/' :: rest) := stops_cons.2 (by decide)
  have noWord : attributeWords.any (fun word =>
      ((Cursor.start ('/' :: rest)).wholePhrase? [word]).isSome) = false := by
    rw [List.any_eq_false]
    intro word hword
    have keyword := isKeyword_attribute word (List.mem_cons_of_mem _ hword)
    have nothing := (wholePhrase?_eq_none_iff keyword).2
      (@not_wordAt_of_stops word [] _ keyword stop)
    rw [Cursor.start, nothing]
    decide
  unfold endsType
  rw [skipped]
  simp only [noWord, Bool.and_false, Bool.or_false]
  rfl

/-- On one line a return type is read up to where it may end. -/
theorem declaredFrom?_onLine {read b : List Char} (hne : read ≠ []) (onLine : '\n' ∉ b)
    (ends : endsType rest = true) : ∃ p, declaredFrom? read.reverse (b ++ rest) = some (read ++ p) := by
  induction b generalizing read with
  | nil => exact ⟨[], by rw [List.nil_append, List.append_nil, declaredFrom?_ends hne ends]⟩
  | cons c b ih =>
    rw [List.mem_cons, not_or] at onLine
    rw [List.cons_append, declaredFrom?]
    split
    · exact ⟨[], by simp⟩
    · rw [if_neg (Ne.symm onLine.1)]
      obtain ⟨p, hp⟩ := @ih (read ++ [c]) (by simp) onLine.2
      rw [List.reverse_append] at hp
      exact ⟨c :: p, by simpa using hp⟩

/-- No return type ends among the blanks in front of a slash. -/
theorem endsType_trail {trail a b : List Char} (htrail : ∀ c ∈ trail, isBlank c = true)
    (hsplit : trail ++ [' ', '/'] = a ++ b) (hb : b ≠ []) (rest : List Char) :
    endsType (b ++ rest) = false := by
  obtain ⟨blanks, y, rfl⟩ := List.eq_nil_or_concat b |>.resolve_left hb
  rw [List.concat_eq_append] at hsplit ⊢
  have halves : (trail ++ [' ']) ++ ['/'] = (a ++ blanks) ++ [y] := by simpa using hsplit
  obtain ⟨hblanks, hy⟩ := List.append_inj' halves rfl
  obtain rfl := List.singleton_inj.1 hy
  rw [List.append_assoc]
  refine endsType_slash (fun c hc => ?_) rest
  rcases List.mem_append.1 (hblanks ▸ List.mem_append_right a hc) with hmem | hmem
  · exact htrail c hmem
  · rw [List.mem_singleton.1 hmem]
    decide

/-- A type with a comment behind it is read up to the next attribute, or to an end in the comment. -/
theorem declaredFrom?_comment (h : (WrittenReturns.type declared).IsPlain) {trail : List Char}
    (htrail : ∀ c ∈ trail, isBlank c = true) (noBreak : '\n' ∉ trail) (onLine : '\n' ∉ text)
    (more : List Char) :
    ∃ p, declaredFrom? [] (trim declared ++
        (trail ++ ' ' :: '/' :: (text ++ (" language ".toList ++ more)))) =
      some (trim declared ++ (trail ++ [' ', '/']) ++ p) := by
  have line : '\n' ∉ trail ++ [' ', '/'] := by simpa using noBreak
  rw [declaredFrom?_trim h (stops_isWord_trail htrail), List.append_cons, List.append_cons,
    List.append_assoc trail]
  have passes := @declaredFrom?_passes (text ++ (" language ".toList ++ more)) (trim declared)
    (trail ++ [' ', '/']) (fun a b hsplit hb _ => endsType_trail htrail hsplit hb _) line
  rw [List.singleton_append, passes]
  exact declaredFrom?_onLine (by simp) onLine (@endsType_language [] (by simp) more)

/-- A comment behind a return type is taken into it. -/
theorem returned_type_comment (h : (WrittenReturns.type declared).IsPlain) (onLine : '\n' ∉ text)
    (more : List Char) :
    ∃ found, '/' ∈ found ∧
      returned (" returns ".toList ++ (declared ++ ' ' :: '/' :: (text ++ (" language ".toList ++ more)))) =
        (.ofText found, none) := by
  obtain ⟨lead, trail, whole, hlead, htrail⟩ := exists_trim declared
  generalize hrest : text ++ (" language ".toList ++ more) = rest
  have written : " returns ".toList ++ (declared ++ ' ' :: '/' :: rest) =
      " returns".toList ++ (' ' :: lead ++ (trim declared ++ (trail ++ ' ' :: '/' :: rest))) := by
    calc " returns ".toList ++ (declared ++ ' ' :: '/' :: rest)
        = " returns ".toList ++ (lead ++ (trim declared ++ trail) ++ ' ' :: '/' :: rest) :=
          congrArg (" returns ".toList ++ · ++ _) whole
      _ = _ := by
          simp only [List.append_assoc]
          rfl
  have noBreak : '\n' ∉ trail := fun hmem =>
    h.2.1 (whole ▸ List.mem_append_right _ (List.mem_append_right _ hmem))
  obtain ⟨p, hp⟩ := declaredFrom?_comment h htrail noBreak onLine more
  rw [hrest] at hp
  have read := returned_declared h.1 (h.2.2.2.2.trim isKeyword_attribute) hlead
    (stops_isWord_trail htrail) hp
  exact ⟨_, by simp, written ▸ read⟩

end Returned

/-! ## Places of comments -/

/-- What a comment is behind of. -/
inductive AttributePlace where
  | arguments
  | returns
  | language
  deriving DecidableEq, Repr

namespace AttributePlace

/-- The attributes in front of the place, and those behind it up to the volatility. -/
def around (s : Signature) : AttributePlace → List Char × List Char
  | .arguments => ([], s.front)
  | .returns => (s.returns.render, " language ".toList ++ s.language)
  | .language => (s.front, [])

/-- What is returned is the same with and without a comment at the place. -/
def Spares (clause : WrittenReturns) : AttributePlace → Prop
  | .arguments => clause.returned = (.void, none)
  | .returns => ∀ declared, clause ≠ .type declared
  | .language => True

end AttributePlace

/-- The attributes of a signature with a comment at a place. -/
def Signature.commented (s : Signature) (place : AttributePlace) (comment : List Char) : List Char :=
  (place.around s).1 ++ ' ' :: (comment ++ ((place.around s).2 ++ s.ending))

section Places

variable {s : Signature} {comment tail : List Char} {place : AttributePlace}

theorem around_eq (s : Signature) (place : AttributePlace) :
    (place.around s).1 ++ (place.around s).2 = s.front := by
  cases place <;> simp [AttributePlace.around, Signature.front]

theorem noDollar_commented (h : s.IsPlain) (noDollar : '$' ∉ comment) (place : AttributePlace) :
    '$' ∉ s.commented place comment := by
  have attributes := noDollar_attributes h
  rw [attributes_eq, ← around_eq s place] at attributes
  simp only [List.mem_append, not_or] at attributes
  have space : '$' ≠ ' ' := by decide
  simp only [Signature.commented, List.mem_append, List.mem_cons, not_or]
  exact ⟨attributes.1.1, space, noDollar, attributes.1.2, attributes.2⟩

theorem exists_behind (s : Signature) (place : AttributePlace) (tail : List Char) :
    ∃ rest, (place.around s).2 ++ (s.ending ++ tail) = ' ' :: rest := by
  have ending : ∃ rest, s.ending ++ tail = ' ' :: rest := by
    unfold Signature.ending
    cases s.volatility <;> exact ⟨_, rfl⟩
  cases place with
  | arguments =>
    rw [AttributePlace.around, Signature.front]
    cases s.returns <;> exact ⟨_, rfl⟩
  | returns => exact ⟨_, rfl⟩
  | language => exact ending

theorem lacks_around (h : s.IsPlain) (place : AttributePlace) :
    Lacks volatilityWords (place.around s).1 ∧ Lacks volatilityWords (place.around s).2 := by
  have nil := lacks_nil isKeyword_volatility
  cases place with
  | arguments => exact ⟨nil, lacks_front h⟩
  | returns =>
    have language : Lacks volatilityWords (" language ".toList ++ s.language) :=
      nil.join isKeyword_volatility (by decide) (lacks_language h)
    exact ⟨lacks_returns h.returns, language⟩
  | language => exact ⟨lacks_front h, nil⟩

/-- Behind a comment the volatility is read as it is written, unless the comment holds a keyword. -/
theorem volatility?_commented (h : s.IsPlain) (htail : Lacks volatilityWords tail)
    (place : AttributePlace) (comment : List Char) :
    volatility? (s.commented place comment ++ ' ' :: tail) =
      match firstVolatility? comment with
      | some word => Volatility.ofKeyword? word
      | none => s.volatility := by
  obtain ⟨front, behind⟩ := lacks_around h place
  obtain ⟨rest, hrest⟩ := exists_behind s place (' ' :: tail)
  have written : s.commented place comment ++ ' ' :: tail =
      (place.around s).1 ++ ' ' :: (comment ++ ' ' :: rest) := by
    simp only [Signature.commented, ← hrest, List.append_assoc, List.cons_append]
  have read : volatility? rest = s.volatility := by
    rw [← volatility?_space, ← hrest, volatility?_ending behind htail]
  rw [written, volatility?_comment front, read]

/-- Without a comment in front of it, or one behind a type, what is returned is read as it is written. -/
theorem returned_commented (h : s.IsPlain) (kept : Sql.IsKept comment)
    (noSlash : ∀ declared, s.returns = .type declared → '/' ∉ declared) (place : AttributePlace)
    (tail : List Char) :
    returned (s.commented place comment ++ tail) = s.returns.returned ↔ place.Spares s.returns := by
  have onLine := kept.onLine
  obtain ⟨inside, rfl⟩ := kept.exists_eq
  have hidden : ∀ more, returned (' ' :: '/' :: more) = (.void, none) := fun _ => rfl
  cases place with
  | arguments => exact eq_comm
  | returns =>
    have plain := h.returns
    cases hreturns : s.returns with
    | nothing =>
      refine iff_of_true ?_ (by simp [AttributePlace.Spares])
      simp only [Signature.commented, AttributePlace.around, hreturns]
      exact hidden _
    | type declared =>
      refine iff_of_false (fun same => ?_) (by simp [AttributePlace.Spares])
      rw [hreturns] at plain
      have line : '\n' ∉ inside := fun hmem => onLine (List.mem_cons_of_mem _ hmem)
      obtain ⟨found, hslash, hfound⟩ :=
        returned_type_comment plain line (s.language ++ (s.ending ++ tail))
      have written : s.commented .returns ('/' :: inside) ++ tail = " returns ".toList ++ (declared ++
          ' ' :: '/' :: (inside ++ (" language ".toList ++ (s.language ++ (s.ending ++ tail))))) := by
        simp only [Signature.commented, AttributePlace.around, hreturns, WrittenReturns.render_type,
          List.append_assoc, List.cons_append]
      rw [written, hfound] at same
      have type : ReturnType.ofText found = .ofText declared := (Prod.mk.inj same).1
      exact noSlash declared hreturns (slash_mem_ofText.1 (type ▸ slash_mem_ofText.2 hslash))
    | table columns =>
      refine iff_of_true ?_ (by simp [AttributePlace.Spares])
      rw [hreturns] at plain
      simp only [Signature.commented, AttributePlace.around, hreturns, WrittenReturns.render_table,
        List.append_assoc]
      exact returned_table plain _
  | language =>
    refine iff_of_true ?_ trivial
    simp only [Signature.commented, AttributePlace.around, Signature.front, List.append_assoc]
    exact returned_render h.returns _

/-- What a comment among the attributes leaves of a routine. -/
theorem routineShape_commented (history : History) (h : s.IsPlain) (body : WrittenBody)
    (noDollar : '$' ∉ comment) (place : AttributePlace) (tailDollar : '$' ∉ tail)
    (noVolatility : Lacks volatilityWords tail) :
    routineShape (routine history (s.opening (s.commented place comment ++ (body.render ++ tail)))) =
      (s.arguments.map (·.argument),
        match firstVolatility? comment with
        | some word => Volatility.ofKeyword? word
        | none => s.volatility,
        returned (s.commented place comment ++ ' ' :: tail)) := by
  have bodies := withoutBodies_render body (noDollar_commented h noDollar place) tailDollar
  rw [routine_of_opening history h.arguments, bodies]
  simp only [routineShape, volatility?_commented h noVolatility]

end Places

/-- **Tag comments between the words of a definition.** In front of the column list of a table, or of
the arguments of a routine, a comment hides all that the definition says, and nothing is the same
unless there is nothing to say. Behind the arguments the arguments are the same; what is returned is
the same if nothing is returned, if it is a table in front of the comment, or if the comment is behind
the language; and the volatility is the same unless the comment holds a keyword of another one. -/
theorem shape_of_tag_comment (history : History) {comment : List Char} (kept : Sql.IsKept comment) :
    (∀ front back, '(' ∉ front → Lacks ["create", "table", "exists"] (comment ++ ' ' :: back) →
      let read := tableShape (table history (front ++ ' ' :: (comment ++ ' ' :: back)))
      let without := tableShape (table history (front ++ ' ' :: back))
      read = ([], none) ∧ (read = without ↔ without.1 = [])) ∧
    (∀ front back, '(' ∉ front → Lacks ["create"] (comment ++ ' ' :: back) →
      let read := routineShape (routine history (front ++ ' ' :: (comment ++ ' ' :: back)))
      let without := routineShape (routine history (front ++ ' ' :: back))
      read = ([], none, .void, none) ∧ (read = without ↔ without = ([], none, .void, none))) ∧
    ∀ (s : Signature) (place : AttributePlace) (body : WrittenBody) (tail : List Char), s.IsPlain →
      (∀ declared, s.returns = .type declared → '/' ∉ declared) → '$' ∉ comment → '$' ∉ tail →
      Lacks volatilityWords tail →
      let read := routineShape
        (routine history (s.opening (s.commented place comment ++ (body.render ++ tail))))
      let without := routineShape (routine history (s.render body ++ tail))
      read.1 = without.1 ∧
        (read = without ↔ place.Spares s.returns ∧
          ∀ word ∈ firstVolatility? comment, Volatility.ofKeyword? word = s.volatility) := by
  refine ⟨fun front back noParen hlacks => ?_, fun front back noParen hlacks => ?_, ?_⟩
  · obtain ⟨tags, hidden⟩ := table_of_head_comment history kept noParen hlacks
    have nothing : tableShape (table history (front ++ ' ' :: (comment ++ ' ' :: back))) =
        ([], none) := by
      rw [hidden, tableShape_namedTable]
    refine ⟨nothing, ?_⟩
    rw [nothing, eq_comm]
    exact tableShape_eq_iff history _
  · have nothing : routineShape (routine history (front ++ ' ' :: (comment ++ ' ' :: back))) =
        ([], none, .void, none) := by
      rw [routine_of_head_comment history kept noParen hlacks, routineShape_namedRoutine]
    refine ⟨nothing, ?_⟩
    rw [nothing]
    exact eq_comm
  · intro s place body tail h noSlash noDollar tailDollar noVolatility
    have read := routineShape_commented history h body noDollar place tailDollar noVolatility
    have without : routineShape (routine history (s.render body ++ tail)) =
        (s.arguments.map (·.argument), s.volatility, s.returns.returned) := by
      rw [routine_render history h body tailDollar noVolatility]
      rfl
    have same := returned_commented h kept noSlash place (' ' :: tail)
    rw [read, without]
    refine ⟨rfl, ?_⟩
    rw [Prod.mk.injEq, Prod.mk.injEq, same, and_iff_right rfl, and_comm]
    cases firstVolatility? comment with
    | none => simp
    | some word => simp

/-- A comment in front of a column list, one in front of a name, and one behind the language of a
routine that returns a type. -/
theorem shape_of_tag_comment_kept :
    let comment := "/* #no-delete */".toList
    let s : Signature :=
      { replaces := false
        path := ⟨none, ⟨"shof_total".toList, false, by decide, List.all_eq_true.1 (by decide)⟩⟩
        arguments := []
        returns := .type "numeric(10, 2)".toList
        language := "sql".toList
        volatility := some .stable }
    let body : WrittenBody :=
      ⟨[], "select 1".toList, (by rintro _ _ h; cases h), by decide⟩
    let written := routine { name := "shof_total" } (s.render body ++ ";".toList)
    let commented := fun place => routine { name := "shof_total" }
      (s.opening (s.commented place comment ++ (body.render ++ ";".toList)))
    Sql.IsKept comment ∧ s.IsPlain ∧
      tableShape (table { name := "abct_user_usr" } ("create table abct_user_usr".toList ++
        ' ' :: (comment ++ ' ' :: "(usr_id int primary key);".toList))) = ([], none) ∧
      routineShape (routine { name := "shof_total" } ("create function".toList ++
        ' ' :: (comment ++ ' ' :: "shof_total(p_id int) returns int;".toList))) =
          ([], none, .void, none) ∧
      routineShape (commented .language) = routineShape written ∧
      routineShape (commented .arguments) ≠ routineShape written := by
  intro comment s body written commented
  have kept : Sql.IsKept comment := ⟨"#no-delete".toList, by decide +kernel⟩
  have plain : s.IsPlain := by decide +kernel
  have noSlash : ∀ declared, s.returns = .type declared → '/' ∉ declared := by
    intro declared h
    cases h
    decide
  have noDollar : '$' ∉ comment ∧ '$' ∉ ";".toList := by decide
  have noVolatility : Lacks volatilityWords ";".toList := by decide
  have noKeyword : firstVolatility? comment = none := by decide +kernel
  obtain ⟨hidden, -, -⟩ := shape_of_tag_comment { name := "abct_user_usr" } kept
  obtain ⟨-, head, attributes⟩ := shape_of_tag_comment { name := "shof_total" } kept
  have places := fun place =>
    (attributes s place body ";".toList plain noSlash noDollar.1 noDollar.2 noVolatility).2
  refine ⟨kept, plain, (hidden _ _ (by decide) (by decide +kernel)).1,
    (head _ _ (by decide) (by decide +kernel)).1, ?_, ?_⟩
  · exact (places .language).2 ⟨trivial, by simp [noKeyword]⟩
  · intro same
    have spared : s.returns.returned = (.void, none) := ((places .arguments).1 same).1
    exact absurd spared (by decide +kernel)

/-- A comment in front of a column list takes the columns, and one in front of a clause what is
returned. -/
theorem shape_of_tag_comment_between :
    (tableShape (table { name := "abct_user_usr" }
        "create table abct_user_usr /* #no-delete */ (usr_id int primary key);".toList) = ([], none) ∧
      (tableShape (table { name := "abct_user_usr" }
        "create table abct_user_usr (usr_id int primary key);".toList)).2 = some "usr_id") ∧
    (routineShape (routine { name := "shof_total" }
        "create function shof_total() /* #stable */ returns int language sql as $$select 1$$;".toList) =
          ([], some .stable, .void, none) ∧
      routineShape (routine { name := "shof_total" }
        "create function shof_total() returns int language sql as $$select 1$$;".toList) =
          ([], none, .scalar "int", none)) := by
  decide +kernel

end ReleaseSchema.Ddl
