/-
What reading the definition of a routine finds: the signature that is written
(`routine_of_signature`).

The attributes behind the arguments are read by three searches, none of which
looks into the body: it is taken out first (`withoutBodies_render`). The search
for the volatility passes texts without its keywords, and a return type ends at
the word `language` because no attribute stands in it.
-/
import ReleaseSchema.Proofs.Ddl.Argument
import ReleaseSchema.Proofs.Ddl.RoutineBody

namespace ReleaseSchema.Ddl

open Text

/-! ## Definitions as they are written -/

/-- The clause that says what a routine returns, if there is one. -/
inductive WrittenReturns where
  | nothing
  | type (declared : List Char)
  | table (columns : List (List Char))

/-- What a routine declares in front of its body. -/
structure Signature where
  replaces : Bool
  path : WrittenPath
  arguments : List WrittenArgument
  returns : WrittenReturns
  language : List Char
  volatility : Option Volatility

/-- A body between two equal dollar tags. -/
structure WrittenBody where
  tag : List Char
  text : List Char
  isTag : ∀ c rest, tag = c :: rest → startsTag c = true ∧ ∀ x ∈ rest, isWord x = true
  noDollar : '$' ∉ text

def volatilityWords : List String := Volatility.all.map (·.name)

namespace WrittenReturns

def render : WrittenReturns → List Char
  | nothing => []
  | type declared => " returns ".toList ++ declared
  | table columns => " returns table (".toList ++ (Sql.listed columns ++ [')'])

theorem render_type (declared : List Char) :
    (type declared).render = " returns ".toList ++ declared := rfl

theorem render_table (columns : List (List Char)) :
    (table columns).render = " returns table (".toList ++ (Sql.listed columns ++ [')']) := rfl

/-- What is read: the type, and the columns of a table. -/
def returned : WrittenReturns → ReturnType × Option (List Column)
  | nothing => (.void, none)
  | type declared => (.ofText declared, none)
  | table columns => (.table, some ((columns.map trim).filterMap (column? · "")))

/-- No part of the clause is taken for the end of it, and the columns can be told apart. -/
def IsPlain : WrittenReturns → Prop
  | nothing => True
  | type declared =>
    trim declared ≠ [] ∧ '\n' ∉ declared ∧ '$' ∉ declared ∧ ';' ∉ declared ∧
      Lacks ("table" :: attributeWords) declared
  | table columns =>
    ∀ column ∈ columns, Sql.IsItem column ∧ Sql.IsNested column ∧ '$' ∉ column ∧
      ¬"/*".toList <:+: column ∧ Lacks volatilityWords column

instance : (returns : WrittenReturns) → Decidable returns.IsPlain
  | nothing => isTrue trivial
  | type declared => inferInstanceAs (Decidable
      (trim declared ≠ [] ∧ '\n' ∉ declared ∧ '$' ∉ declared ∧ ';' ∉ declared ∧
        Lacks ("table" :: attributeWords) declared))
  | table columns => inferInstanceAs (Decidable
      (∀ column ∈ columns, Sql.IsItem column ∧ Sql.IsNested column ∧ '$' ∉ column ∧
        ¬"/*".toList <:+: column ∧ Lacks volatilityWords column))

end WrittenReturns

def WrittenBody.render (b : WrittenBody) : List Char :=
  '$' :: (b.tag ++ '$' :: (b.text ++ '$' :: (b.tag ++ ['$'])))

namespace Signature

/-- The attributes up to the volatility. -/
def front (s : Signature) : List Char :=
  s.returns.render ++ (" language ".toList ++ s.language)

/-- The attributes in front of the body. -/
def attributes (s : Signature) : List Char :=
  match s.volatility with
  | some v => s.front ++ ' ' :: (v.name.toList ++ " as ".toList)
  | none => s.front ++ " as ".toList

/-- The attributes behind the language. -/
def ending (s : Signature) : List Char :=
  match s.volatility with
  | some v => ' ' :: (v.name.toList ++ " as ".toList)
  | none => " as ".toList

/-- The head and the arguments, in front of any text. -/
def opening (s : Signature) (behind : List Char) : List Char :=
  "create".toList ++ ' ' :: ((if s.replaces then "or replace ".toList else []) ++
    ("function".toList ++ ' ' :: (s.path.render ++
      '(' :: (Sql.listed (s.arguments.map (·.render)) ++ ')' :: behind))))

def render (s : Signature) (body : WrittenBody) : List Char :=
  "create".toList ++ ' ' :: ((if s.replaces then "or replace ".toList else []) ++
    ("function".toList ++ ' ' :: (s.path.render ++
      '(' :: (Sql.listed (s.arguments.map (·.render)) ++ ')' :: (s.attributes ++ body.render)))))

/-- The routine that is written. -/
def routine (s : Signature) (history : History) : Routine :=
  { namedRoutine history s.path.name.word with
    replaces := s.replaces
    arguments := s.arguments.map (·.argument)
    volatility := s.volatility
    returnType := s.returns.returned.1
    returnColumns := s.returns.returned.2 }

/-- No part of the signature is taken for another one. -/
structure IsPlain (s : Signature) : Prop where
  arguments : ∀ a ∈ s.arguments, a.IsPlain
  returns : s.returns.IsPlain
  noDollar : '$' ∉ s.language
  noVolatility : Lacks volatilityWords s.language

instance (s : Signature) : Decidable s.IsPlain :=
  decidable_of_iff
    ((∀ a ∈ s.arguments, a.IsPlain) ∧ s.returns.IsPlain ∧ '$' ∉ s.language ∧
      Lacks volatilityWords s.language)
    ⟨fun ⟨arguments, returns, noDollar, noVolatility⟩ =>
        ⟨arguments, returns, noDollar, noVolatility⟩,
      fun h => ⟨h.arguments, h.returns, h.noDollar, h.noVolatility⟩⟩

end Signature

/-! ## The head -/

section Head

variable {passed rest : List Char}

/-- The words in front of the arguments, behind the ones that may replace an older routine. -/
theorem name_of_function (path : WrittenPath) :
    ((wordAndBlanks? "function"
        ⟨passed, "function".toList ++ ' ' :: (path.render ++ '(' :: rest)⟩).orElse fun _ =>
      wordAndBlanks? "procedure"
        ⟨passed, "function".toList ++ ' ' :: (path.render ++ '(' :: rest)⟩).bind qualifiedName? =
      some (path.name.word,
        ⟨path.render.reverse ++ ' ' :: ("function".toList.reverse ++ passed), '(' :: rest⟩) := by
  have stop : Stops isNameChar ('(' :: rest) := stops_cons.2 (by decide)
  have noPoint : (('(' :: rest).dropWhile isBlank).head? ≠ some '.' := by
    change some '(' ≠ some '.'
    decide
  rw [wordAndBlanks?_append (by decide) path.stops_isBlank_render]
  exact path.qualifiedName?_render stop noPoint

theorem routineHead?_render (replaces : Bool) (path : WrittenPath) (rest : List Char) :
    ∃ passed, routineHead? (Cursor.start ("create".toList ++ ' ' ::
      ((if replaces then "or replace ".toList else []) ++
        ("function".toList ++ ' ' :: (path.render ++ '(' :: rest))))) =
      some (replaces, path.name.word, ⟨passed, '(' :: rest⟩) := by
  have stop : Stops isBlank ('(' :: rest) := stops_cons.2 (by decide)
  have opening : ∀ passed, Cursor.char? '(' ⟨passed, '(' :: rest⟩ = some ⟨'(' :: passed, rest⟩ :=
    fun _ => rfl
  have boundary : ∀ more, Cursor.boundary? (Cursor.start ("create".toList ++ more)) =
      some (Cursor.start ("create".toList ++ more)) := fun _ => rfl
  have create : ∀ more, Stops isBlank more →
      wordAndBlanks? "create" (Cursor.start ("create".toList ++ ' ' :: more)) =
        some ⟨' ' :: ("create".toList.reverse ++ []), more⟩ :=
    fun more hmore => wordAndBlanks?_append (by decide) hmore
  cases replaces with
  | false =>
    have created := create ("function".toList ++ ' ' :: (path.render ++ '(' :: rest))
      (stops_cons.2 (by decide))
    obtain ⟨d, hfunction, hname⟩ := Option.bind_eq_some_iff.1
      (@name_of_function (' ' :: ("create".toList.reverse ++ [])) rest path)
    have replacing : (Cursor.phrase? ["or", "replace"] ⟨' ' :: ("create".toList.reverse ++ []),
        "function".toList ++ ' ' :: (path.render ++ '(' :: rest)⟩).bind (·.blanks?) = none := rfl
    simp only [routineHead?, boundary, Option.bind_eq_bind, Option.bind_some, Bool.false_eq_true,
      if_false, List.nil_append, created, replacing, Option.getD_none, hfunction, hname, Cursor.skipBlanks,
      Cursor.skipWhile_of_stops stop, opening]
    exact ⟨_, rfl⟩
  | true =>
    have created := create
      ("or replace ".toList ++ ("function".toList ++ ' ' :: (path.render ++ '(' :: rest)))
      (stops_cons.2 (by decide))
    obtain ⟨d, hfunction, hname⟩ := Option.bind_eq_some_iff.1
      (@name_of_function ("or replace ".toList.reverse ++ ' ' :: ("create".toList.reverse ++ []))
        rest path)
    have replacing : (Cursor.phrase? ["or", "replace"] ⟨' ' :: ("create".toList.reverse ++ []),
        "or replace ".toList ++ ("function".toList ++ ' ' :: (path.render ++ '(' :: rest))⟩).bind
          (·.blanks?) =
        some ⟨"or replace ".toList.reverse ++ ' ' :: ("create".toList.reverse ++ []),
          "function".toList ++ ' ' :: (path.render ++ '(' :: rest)⟩ := rfl
    simp only [routineHead?, boundary, Option.bind_eq_bind, Option.bind_some, if_true,
      created, replacing, Option.getD_some, hfunction, hname, Cursor.skipBlanks,
      Cursor.skipWhile_of_stops stop, opening]
    exact ⟨_, rfl⟩

end Head

/-! ## Bodies -/

section Bodies

variable {front tail : List Char}

theorem withoutBodies_render (body : WrittenBody) (hfront : '$' ∉ front) (htail : '$' ∉ tail) :
    withoutBodies (front ++ (body.render ++ tail)) = front ++ ' ' :: tail := by
  have closed : Closes ('$' :: (body.tag ++ ['$'])) body.text := closes_of_not_mem body.noDollar
  have taken := withoutBodies_closed hfront ⟨body.tag, body.isTag, rfl⟩ closed tail
  rw [withoutBodies_of_not_mem htail] at taken
  simpa [WrittenBody.render] using taken

end Bodies

/-! ## The volatility -/

section Volatility

variable {front rest : List Char}

theorem isKeyword_volatility : ∀ word ∈ volatilityWords, IsKeyword word := by decide

theorem volatilityWord?_eq_none {c : Cursor} (h : ∀ word ∈ volatilityWords, ¬WordAt word c) :
    volatilityWord? c = none := by
  cases hstart : c.boundary? with
  | none =>
    rw [volatilityWord?, hstart]
    rfl
  | some start =>
    have nothing : ∀ v ∈ Volatility.all, (start.spelled? v.name).bind Cursor.boundary? = none := by
      intro v hv
      have hmem : v.name ∈ volatilityWords := List.mem_map_of_mem hv
      have hnone := (wholePhrase?_eq_none_iff (isKeyword_volatility v.name hmem)).2 (h v.name hmem)
      rw [Cursor.wholePhrase?, hstart] at hnone
      exact hnone
    rw [volatilityWord?, hstart]
    simp only [Option.bind_eq_bind, Option.bind_some]
    rw [List.findSome?_eq_none_iff.2]
    intro v hv
    rw [← Option.bind_assoc]
    exact congrArg (Option.bind · _) (nothing v hv)

theorem search?_volatilityWord_of_lacks (h : Lacks volatilityWords front) :
    search? volatilityWord? front = none := by
  refine Cursor.findFrom_eq_none fun a b hsplit => volatilityWord?_eq_none fun word hword => ?_
  rw [Cursor.start, List.append_nil]
  exact (lacks_iff isKeyword_volatility).1 h word hword a b hsplit

theorem volatility?_of_lacks (h : Lacks volatilityWords front) : volatility? front = none := by
  rw [volatility?, search?_volatilityWord_of_lacks h]
  rfl

theorem volatility?_written (h : Lacks volatilityWords front) (v : Volatility) :
    volatility? (front ++ ' ' :: (v.name.toList ++ ' ' :: rest)) = some v := by
  have passes : ∀ a b, front ++ [' '] = a ++ b → b ≠ [] →
      volatilityWord? ⟨a.reverse ++ [], b ++ (v.name.toList ++ ' ' :: rest)⟩ = none := by
    intro a b hsplit hb
    refine volatilityWord?_eq_none fun word hword => ?_
    -- the space in front of the keyword belongs to no word
    obtain ⟨last, y, rfl⟩ := List.eq_nil_or_concat b |>.resolve_left hb
    rw [List.concat_eq_append, ← List.append_assoc] at hsplit
    obtain ⟨hfront, hy⟩ := List.append_inj' hsplit rfl
    obtain rfl := List.singleton_inj.1 hy
    have stop : Stops isWord (' ' :: (v.name.toList ++ ' ' :: rest)) := stops_cons.2 (by decide)
    rw [List.concat_eq_append, List.append_assoc, List.singleton_append, List.append_nil,
      wordAt_append stop]
    exact (lacks_iff isKeyword_volatility).1 h word hword a last hfront
  have here : volatilityWord? ⟨' ' :: front.reverse, v.name.toList ++ ' ' :: rest⟩ =
      some v.name.toList := by
    cases v <;> rfl
  have keyword : Volatility.ofKeyword? v.name.toList = some v := by
    cases v <;> decide
  have written : front ++ ' ' :: (v.name.toList ++ ' ' :: rest) =
      (front ++ [' ']) ++ (v.name.toList ++ ' ' :: rest) := by simp
  have reversed : (front ++ [' ']).reverse ++ [] = ' ' :: front.reverse := by simp
  rw [volatility?, search?, Cursor.find?, Cursor.start, written, Cursor.findFrom_append passes,
    reversed, Cursor.findFrom_of_some here]
  exact keyword

end Volatility

/-! ## What a routine returns -/

section Returned

variable {declared read rest : List Char}

theorem isKeyword_attribute : ∀ word ∈ "table" :: attributeWords, IsKeyword word := by decide

/-- A return type does not end in front of a word that is no attribute. -/
theorem endsType_eq_false {a b : List Char} (h : Lacks ("table" :: attributeWords) (a ++ b))
    (noDollar : '$' ∉ b) (noSemicolon : ';' ∉ b) (finish : Stops isBlank b.reverse) (hb : b ≠ [])
    (stop : Stops isWord rest) : endsType (b ++ rest) = false := by
  obtain ⟨x, left, hleft, whole⟩ := exists_dropWhile_isBlank finish hb
  have skipped : (b ++ rest).dropWhile isBlank = x :: (left ++ rest) := by
    have stopped : Stops isBlank (x :: left ++ rest) :=
      (hleft ▸ stops_dropWhile isBlank b).append (List.cons_ne_nil x left) rest
    have blanks : ∀ c ∈ b.takeWhile isBlank, isBlank c = true :=
      fun c hc => List.mem_takeWhile_imp hc
    rw [← whole, List.append_assoc]
    exact dropWhile_run blanks stopped
  have hx : x ∈ b := whole ▸ List.mem_append_right _ List.mem_cons_self
  have noAttribute : (b ++ rest).head?.any isBlank = true →
      ∀ word ∈ attributeWords, Cursor.wholePhrase? [word] ⟨[], x :: left ++ rest⟩ = none := by
    intro hblank word hword
    have hmem : word ∈ "table" :: attributeWords := List.mem_cons_of_mem _ hword
    rw [wholePhrase?_eq_none_iff (isKeyword_attribute word hmem), wordAt_append stop]
    rintro ⟨-, hrun⟩
    refine (lacks_iff isKeyword_attribute).1 h word hmem (a ++ b.takeWhile isBlank) (x :: left)
      (by rw [List.append_assoc, whole]) ⟨?_, hrun⟩
    -- a blank is in front of the word
    obtain ⟨y, text, rfl⟩ := List.exists_cons_of_ne_nil hb
    have hy : isBlank y = true := by simpa using hblank
    have nonempty : (y :: text).takeWhile isBlank ≠ [] := by
      rw [List.takeWhile_cons_of_pos hy]
      exact List.cons_ne_nil _ _
    obtain ⟨z, reversed, hreverse⟩ :=
      List.exists_cons_of_ne_nil (List.reverse_ne_nil_iff.2 nonempty)
    have hz : isBlank z = true :=
      List.mem_takeWhile_imp (List.mem_reverse.1 (hreverse ▸ List.mem_cons_self))
    rw [List.reverse_append, hreverse, List.cons_append]
    exact stops_cons.2 (isWord_of_isBlank hz)
  have noWord : ((b ++ rest).head?.any isBlank && attributeWords.any fun word =>
      (Cursor.wholePhrase? [word] (Cursor.start (x :: (left ++ rest)))).isSome) = false := by
    by_cases hblank : (b ++ rest).head?.any isBlank = true
    · rw [hblank, Bool.true_and, List.any_eq_false]
      intro word hword
      have := noAttribute hblank word hword
      rw [List.cons_append] at this
      simp [Cursor.start, this]
    · rw [Bool.not_eq_true] at hblank
      rw [hblank, Bool.false_and]
  have noDollar : (x == '$') = false := beq_eq_false_iff_ne.2 fun h => noDollar (h ▸ hx)
  have noSemicolon : (x == ';') = false := beq_eq_false_iff_ne.2 fun h => noSemicolon (h ▸ hx)
  unfold endsType
  simp only [skipped, noDollar, noSemicolon, noWord, Bool.or_false]

/-- A text in which a return type does not end is passed. -/
theorem declaredFrom?_passes {read b : List Char}
    (h : ∀ a' b', b = a' ++ b' → b' ≠ [] → read ++ a' ≠ [] → endsType (b' ++ rest) = false)
    (onLine : '\n' ∉ b) :
    declaredFrom? read.reverse (b ++ rest) = declaredFrom? (read ++ b).reverse rest := by
  induction b generalizing read with
  | nil => rw [List.nil_append, List.append_nil]
  | cons c b ih =>
    rw [List.mem_cons, not_or] at onLine
    have goesOn : (!read.reverse.isEmpty && endsType (c :: (b ++ rest))) = false := by
      by_cases ha : read = []
      · rw [ha]
        rfl
      · have := h [] (c :: b) rfl (List.cons_ne_nil c b) (by rwa [List.append_nil])
        rw [List.cons_append] at this
        rw [this, Bool.and_false]
    have next := @ih (read ++ [c])
      (fun a' b' hsplit hb _ => h (c :: a') b' (congrArg (c :: ·) hsplit) hb (by simp)) onLine.2
    rw [List.cons_append, declaredFrom?, goesOn, if_neg (by decide), if_neg (Ne.symm onLine.1)]
    simpa using next

theorem declaredFrom?_ends {read : List Char} (hne : read ≠ []) (ends : endsType rest = true) :
    declaredFrom? read.reverse rest = some read := by
  cases rest with
  | nil => simp [declaredFrom?, hne]
  | cons c rest => simp [declaredFrom?, hne, ends]

theorem endsType_language {trail : List Char} (h : ∀ c ∈ trail, isBlank c = true)
    (more : List Char) : endsType (trail ++ (" language ".toList ++ more)) = true := by
  have blanks : ∀ c ∈ trail ++ [' '], isBlank c = true := by
    intro c hc
    rcases List.mem_append.1 hc with hc | hc
    · exact h c hc
    · rw [List.mem_singleton.1 hc]
      decide
  have written : trail ++ (" language ".toList ++ more) =
      (trail ++ [' ']) ++ 'l' :: ("anguage ".toList ++ more) := by
    rw [List.append_assoc]
    rfl
  have skipped : (trail ++ (" language ".toList ++ more)).dropWhile isBlank =
      'l' :: ("anguage ".toList ++ more) := by
    rw [written]
    exact dropWhile_run blanks (stops_cons.2 (by decide))
  have first : (trail ++ (" language ".toList ++ more)).head?.any isBlank = true := by
    cases trail with
    | nil => rfl
    | cons c trail => simpa using h c List.mem_cons_self
  have hattribute : attributeWords.any (fun word => (Cursor.wholePhrase? [word]
      (Cursor.start ('l' :: ("anguage ".toList ++ more)))).isSome) = true :=
    List.any_eq_true.2 ⟨"language", by decide, rfl⟩
  unfold endsType
  simp only [skipped, first, hattribute, Bool.and_true, Bool.or_true]

/-- A word that is no keyword of tables begins no list of columns. -/
theorem spelled?_table {passed text : List Char} (h : ¬WordAt "table" ⟨[], text⟩)
    (stop : Stops isWord rest) :
    ((Cursor.spelled? "table" ⟨passed, text ++ rest⟩).bind fun c =>
      (c.skipBlanks.char? '(').bind fun _ => some c.skipBlanks.rest) = none := by
  rw [← wordAt_append stop] at h
  cases hread : Cursor.spelled? "table" ⟨passed, text ++ rest⟩ with
  | none => rfl
  | some c =>
    obtain ⟨run, more, hsplit, hrun, rfl⟩ := letters?_eq_some_iff.1 hread
    have hword := (@isWord_of_map_foldCase "table" (by decide) _ hrun).2
    rw [Option.bind_some]
    cases hchar : (Cursor.skipBlanks ⟨run.reverse ++ passed, more⟩).char? '(' with
    | none => rfl
    | some d =>
      -- no word goes on with a blank or a parenthesis
      have ends : Stops isWord more := by
        cases more with
        | nil => exact Stops.nil
        | cons y more =>
          refine stops_cons.2 ?_
          by_cases hy : isBlank y = true
          · exact isWord_of_isBlank hy
          · have hparenthesis : y = '(' := by
              by_contra hne
              simp [Cursor.skipBlanks, Cursor.skipWhile, Cursor.char?, hy, hne] at hchar
            rw [hparenthesis]
            decide
      refine absurd ⟨Stops.nil, ?_⟩ h
      dsimp only
      rw [hsplit, takeWhile_run hword ends, hrun]

/-- A return type is declared behind the blanks in front of it, whatever is behind it. -/
theorem returned_declared {lead found : List Char} (nonblank : trim declared ≠ [])
    (noKeyword : Lacks ("table" :: attributeWords) (trim declared))
    (hlead : ∀ c ∈ lead, isBlank c = true) (stop : Stops isWord rest)
    (type : declaredFrom? [] (trim declared ++ rest) = some found) :
    returned (" returns".toList ++ (' ' :: lead ++ (trim declared ++ rest))) =
      (.ofText found, none) := by
  have start : returns? (" returns".toList ++ (' ' :: lead ++ (trim declared ++ rest))) =
      some ⟨" returns".toList.reverse, ' ' :: lead ++ (trim declared ++ rest)⟩ := rfl
  have blanks : ∀ c ∈ ' ' :: lead, isBlank c = true := List.forall_mem_cons.2 ⟨by decide, hlead⟩
  have noBlank : Stops isBlank (trim declared ++ rest) := (stops_trim declared).append nonblank rest
  have noTable : returnsTable? (" returns".toList ++ (' ' :: lead ++ (trim declared ++ rest))) =
      none := by
    have hlacks := (lacks_iff isKeyword_attribute).1 noKeyword "table" List.mem_cons_self [] _ rfl
    have skipped : Cursor.blanks?
        ⟨" returns".toList.reverse, ' ' :: lead ++ (trim declared ++ rest)⟩ =
        some ⟨(' ' :: lead).reverse ++ " returns".toList.reverse, trim declared ++ rest⟩ := by
      rw [Cursor.blanks?, Cursor.run?_append (List.cons_ne_nil ' ' lead) blanks noBlank]
      rfl
    simp only [returnsTable?, start, Option.bind_eq_bind, Option.bind_some, skipped]
    exact spelled?_table hlacks stop
  have count : (' ' :: lead ++ (trim declared ++ rest)).takeWhile isBlank = ' ' :: lead :=
    takeWhile_run blanks noBlank
  have dropped : (' ' :: lead ++ (trim declared ++ rest)).drop (' ' :: lead).length =
      trim declared ++ rest := List.drop_left
  rw [returned, noTable]
  simp only [start, count]
  rw [List.length_cons] at dropped ⊢
  rw [declaredBehind?, dropped, type]

/-- A return type does not end in front of its last character, when no word goes on behind it. -/
theorem declaredFrom?_trim (h : (WrittenReturns.type declared).IsPlain) (stop : Stops isWord rest) :
    declaredFrom? [] (trim declared ++ rest) = declaredFrom? (trim declared).reverse rest := by
  obtain ⟨nonblank, onLine, noDollar, noSemicolon, noKeyword⟩ := h
  have noKeyword := noKeyword.trim isKeyword_attribute
  obtain ⟨lead, trail, whole, -, -⟩ := exists_trim declared
  have inner : ∀ c, c ∉ declared → c ∉ trim declared := fun c hc hmem =>
    hc (whole ▸ List.mem_append_right _ (List.mem_append_left _ hmem))
  refine @declaredFrom?_passes rest [] (trim declared) ?_ (inner _ onLine)
  intro a b hsplit hb _
  have outer : ∀ c, c ∉ trim declared → c ∉ b := fun c hc hmem =>
    hc (hsplit ▸ List.mem_append_right a hmem)
  have finish := stops_reverse_trim declared
  rw [hsplit, List.reverse_append] at finish
  exact @endsType_eq_false rest a b (hsplit ▸ noKeyword) (outer _ (inner _ noDollar))
    (outer _ (inner _ noSemicolon)) finish.of_append hb stop

theorem stops_isWord_trail {trail more : List Char} (h : ∀ c ∈ trail, isBlank c = true) :
    Stops isWord (trail ++ ' ' :: more) := by
  cases trail with
  | nil => exact stops_cons.2 (by decide)
  | cons c trail => exact stops_cons.2 (isWord_of_isBlank (h c List.mem_cons_self))

theorem returned_type (h : (WrittenReturns.type declared).IsPlain) (more : List Char) :
    returned (" returns ".toList ++ (declared ++ (" language ".toList ++ more))) =
      (.ofText declared, none) := by
  obtain ⟨lead, trail, whole, hlead, htrail⟩ := exists_trim declared
  have written : " returns ".toList ++ (declared ++ (" language ".toList ++ more)) =
      " returns".toList ++ (' ' :: lead ++ (trim declared ++ (trail ++
        (" language ".toList ++ more)))) := by
    calc " returns ".toList ++ (declared ++ (" language ".toList ++ more))
        = " returns ".toList ++ (lead ++ (trim declared ++ trail) ++ (" language ".toList ++ more)) :=
          congrArg (" returns ".toList ++ · ++ _) whole
      _ = _ := by
          simp only [List.append_assoc]
          rfl
  have stop : Stops isWord (trail ++ (" language ".toList ++ more)) := stops_isWord_trail htrail
  have type : declaredFrom? [] (trim declared ++ (trail ++ (" language ".toList ++ more))) =
      some (trim declared) :=
    (declaredFrom?_trim h stop).trans (declaredFrom?_ends h.1 (endsType_language htrail more))
  rw [written, returned_declared h.1 (h.2.2.2.2.trim isKeyword_attribute) hlead stop type]
  simp only [ReturnType.ofText, trim_trim]

theorem returned_table {columns : List (List Char)} (h : (WrittenReturns.table columns).IsPlain)
    (more : List Char) :
    returned (" returns table (".toList ++ (Sql.listed columns ++ ')' :: more)) =
      (.table, some ((columns.map trim).filterMap (column? · ""))) := by
  have list : returnsTable? (" returns table (".toList ++ (Sql.listed columns ++ ')' :: more)) =
      some ('(' :: (Sql.listed columns ++ ')' :: more)) := rfl
  have enclosed := Sql.enclosed?_listed (fun column hcolumn => (h column hcolumn).2.1) more
  have items := Sql.splitList_listed fun column hcolumn => (h column hcolumn).1
  simp only [returned, list, enclosed, items]

theorem returned_nothing (more : List Char) :
    returned (" language ".toList ++ more) = (.void, none) := rfl

end Returned

/-! ## The routine -/

section Definition

variable {s : Signature} {tail : List Char}

theorem attributes_eq (s : Signature) : s.attributes = s.front ++ s.ending := by
  unfold Signature.attributes Signature.ending
  cases s.volatility <;> rfl

theorem render_eq (s : Signature) (body : WrittenBody) (tail : List Char) :
    s.render body ++ tail = s.opening (s.attributes ++ (body.render ++ tail)) := by
  unfold Signature.render Signature.opening
  simp only [List.append_assoc, List.cons_append]

theorem noDollar_returns {returns : WrittenReturns} (h : returns.IsPlain) : '$' ∉ returns.render := by
  cases returns with
  | nothing => exact List.not_mem_nil
  | type declared =>
    obtain ⟨-, -, noDollar, -⟩ := h
    have clause : '$' ∉ " returns ".toList := by decide
    rw [WrittenReturns.render_type, List.mem_append, not_or]
    exact ⟨clause, noDollar⟩
  | table columns =>
    have clause : '$' ∉ " returns table (".toList := by decide
    have list : '$' ∉ Sql.listed columns :=
      Sql.not_mem_listed (by decide) fun column hcolumn => (h column hcolumn).2.2.1
    rw [WrittenReturns.render_table, List.mem_append, List.mem_append, not_or, not_or]
    exact ⟨clause, list, by decide⟩

theorem noDollar_ending (s : Signature) : '$' ∉ s.ending := by
  unfold Signature.ending
  cases s.volatility with
  | none => decide
  | some v => cases v <;> decide

theorem noDollar_attributes (h : s.IsPlain) : '$' ∉ s.attributes := by
  have language : '$' ∉ " language ".toList := by decide
  rw [attributes_eq, Signature.front]
  simp only [List.mem_append, not_or]
  exact ⟨⟨noDollar_returns h.returns, language, h.noDollar⟩, noDollar_ending s⟩

theorem lacks_listed {items : List (List Char)} (h : ∀ item ∈ items, Lacks volatilityWords item) :
    Lacks volatilityWords (Sql.listed items) := by
  induction items with
  | nil => exact lacks_nil isKeyword_volatility
  | cons item items ih =>
    have first := h item List.mem_cons_self
    have others := ih fun other hother => h other (List.mem_cons_of_mem _ hother)
    cases items with
    | nil =>
      rw [Sql.listed_singleton]
      exact first
    | cons next items =>
      rw [Sql.listed_cons_cons]
      refine first.join isKeyword_volatility (by decide) ?_
      exact (lacks_nil isKeyword_volatility).join isKeyword_volatility (by decide) others

theorem lacks_returns {returns : WrittenReturns} (h : returns.IsPlain) :
    Lacks volatilityWords returns.render := by
  have nil := lacks_nil isKeyword_volatility
  have words : Lacks volatilityWords " returns".toList ∧ Lacks volatilityWords " returns table ".toList :=
    by decide +kernel
  cases returns with
  | nothing => exact nil
  | type declared =>
    obtain ⟨-, -, -, -, noKeyword⟩ := h
    have hdeclared : Lacks volatilityWords declared := noKeyword.subset (by decide)
    have written : " returns ".toList = " returns".toList ++ [' '] := by decide +kernel
    rw [WrittenReturns.render_type, written, List.append_assoc, List.singleton_append]
    exact words.1.join isKeyword_volatility (by decide) hdeclared
  | table columns =>
    have list := lacks_listed fun column hcolumn => (h column hcolumn).2.2.2.2
    have written : " returns table (".toList = " returns table ".toList ++ ['('] := by decide +kernel
    rw [WrittenReturns.render_table, written, List.append_assoc, List.singleton_append]
    exact words.2.join isKeyword_volatility (by decide)
      (list.join isKeyword_volatility (by decide) nil)

theorem lacks_language (h : s.IsPlain) : Lacks volatilityWords ("language ".toList ++ s.language) := by
  have word : Lacks volatilityWords "language".toList := by decide +kernel
  have written : "language ".toList = "language".toList ++ [' '] := by decide +kernel
  rw [written, List.append_assoc, List.singleton_append]
  exact word.join isKeyword_volatility (by decide) h.noVolatility

theorem lacks_front (h : s.IsPlain) : Lacks volatilityWords s.front :=
  (lacks_returns h.returns).join isKeyword_volatility (by decide) (lacks_language h)

theorem volatility?_ending {front : List Char} (hfront : Lacks volatilityWords front)
    (htail : Lacks volatilityWords tail) :
    volatility? (front ++ (s.ending ++ ' ' :: tail)) = s.volatility := by
  unfold Signature.ending
  cases s.volatility with
  | none =>
    have nil := lacks_nil isKeyword_volatility
    have ending : Lacks volatilityWords ("as".toList ++ ' ' :: ([] ++ ' ' :: tail)) :=
      Lacks.join isKeyword_volatility (by decide) (by decide)
        (nil.join isKeyword_volatility (by decide) htail)
    exact volatility?_of_lacks (hfront.join isKeyword_volatility (show isWord ' ' = false by decide) ending)
  | some v =>
    have written := @volatility?_written front ("as ".toList ++ ' ' :: tail) hfront v
    simpa using written

theorem volatility?_attributes (h : s.IsPlain) (htail : Lacks volatilityWords tail) :
    volatility? (s.attributes ++ ' ' :: tail) = s.volatility := by
  rw [attributes_eq, List.append_assoc]
  exact volatility?_ending (lacks_front h) htail

theorem returned_render {returns : WrittenReturns} (h : returns.IsPlain) (more : List Char) :
    returned (returns.render ++ (" language ".toList ++ more)) = returns.returned := by
  cases returns with
  | nothing => exact returned_nothing more
  | type declared =>
    rw [WrittenReturns.render_type, List.append_assoc]
    exact returned_type h more
  | table columns =>
    rw [WrittenReturns.render_table, List.append_assoc, List.append_assoc]
    exact returned_table h (" language ".toList ++ more)

theorem returned_attributes (h : s.IsPlain) (tail : List Char) :
    returned (s.attributes ++ ' ' :: tail) = s.returns.returned := by
  have read := returned_render h.returns (s.language ++ (s.ending ++ ' ' :: tail))
  rwa [attributes_eq, Signature.front, List.append_assoc, List.append_assoc, List.append_assoc]

theorem filterMap_argument? {arguments : List WrittenArgument} (h : ∀ a ∈ arguments, a.IsPlain) :
    ((arguments.map (·.render)).map trim).filterMap argument? = arguments.map (·.argument) := by
  induction arguments with
  | nil => rfl
  | cons a arguments ih =>
    have first := WrittenArgument.argument?_render (h a List.mem_cons_self)
    have others := ih fun other hother => h other (List.mem_cons_of_mem _ hother)
    rw [List.map_cons, List.map_cons, List.filterMap_cons, first, others]
    rfl

/-- What is read of a definition is the head, the arguments, and the attributes behind them without
bodies. -/
theorem routine_of_opening (history : History) (h : ∀ a ∈ s.arguments, a.IsPlain)
    (behind : List Char) :
    routine history (s.opening behind) =
      let attributes := withoutBodies behind
      { namedRoutine history s.path.name.word with
        replaces := s.replaces
        arguments := s.arguments.map (·.argument)
        volatility := volatility? attributes
        returnType := (returned attributes).1
        returnColumns := (returned attributes).2 } := by
  obtain ⟨passed, hhead⟩ := routineHead?_render s.replaces s.path
    (Sql.listed (s.arguments.map (·.render)) ++ ')' :: behind)
  have head : search? routineHead? (s.opening behind) = some (Cursor.start (s.opening behind), _) :=
    Cursor.findFrom_of_some hhead
  have nested : ∀ argument ∈ s.arguments.map (·.render), Sql.IsNested argument := by
    intro argument hargument
    obtain ⟨a, ha, rfl⟩ := List.mem_map.1 hargument
    exact (h a ha).nested
  have item : ∀ argument ∈ s.arguments.map (·.render), Sql.IsItem argument := by
    intro argument hargument
    obtain ⟨a, ha, rfl⟩ := List.mem_map.1 hargument
    exact (h a ha).isItem
  rw [routine, head]
  simp only [Sql.enclosed?_listed nested behind, Sql.splitList_listed item, filterMap_argument? h]

theorem routine_render (history : History) (h : s.IsPlain) (body : WrittenBody)
    (noDollar : '$' ∉ tail) (noVolatility : Lacks volatilityWords tail) :
    routine history (s.render body ++ tail) = s.routine history := by
  have bodies := withoutBodies_render body (noDollar_attributes h) noDollar
  rw [render_eq, routine_of_opening history h.arguments, bodies]
  simp only [volatility?_attributes h noVolatility, returned_attributes h tail]
  rfl

/-- **Reading a routine.** The signature is read as it is written: whether the routine replaces another
one, its arguments in order, what it returns and its volatility. Every column of a table that is
returned is read as a column. -/
theorem routine_of_signature (history : History) (h : s.IsPlain) (body : WrittenBody)
    (noDollar : '$' ∉ tail) (noVolatility : Lacks volatilityWords tail) :
    routine history (s.render body ++ tail) = s.routine history ∧
      ∀ columns, s.returns = .table columns →
        ∀ column ∈ columns, (column? (trim column) "").isSome = true := by
  refine ⟨routine_render history h body noDollar noVolatility, ?_⟩
  intro columns hcolumns column hcolumn
  have plain := h.returns
  rw [hcolumns] at plain
  obtain ⟨item, -, -, noComment, -⟩ := plain column hcolumn
  refine column?_isSome ?_ ""
  rw [withoutComments_of_no_mark noComment]
  exact item.notBlank

/-- The function `create or replace function shof_order_totals(p_since timestamp with time zone, inout
"p_discount" numeric(10, 2) default round(0, 2)) returns table (ord_id integer, ord_total numeric(10,
2)) language plpgsql volatile as $body$ begin return query select immutable; end $body$;` -/
theorem routine_of_signature_order_totals :
    let first : WrittenArgument :=
      ⟨none, ⟨"p_since".toList, false, by decide, List.all_eq_true.1 (by decide)⟩,
        ⟨["timestamp", "with", "time", "zone"].map String.toList, by decide, by decide⟩, none⟩
    let second : WrittenArgument :=
      ⟨some .inOut, ⟨"p_discount".toList, true, by decide, List.all_eq_true.1 (by decide)⟩,
        ⟨["numeric(10,", "2)"].map String.toList, by decide, by decide⟩, some "round(0, 2)".toList⟩
    let s : Signature :=
      { replaces := true
        path := ⟨none, ⟨"shof_order_totals".toList, false, by decide, List.all_eq_true.1 (by decide)⟩⟩
        arguments := [first, second]
        returns := .table ["ord_id integer".toList, "ord_total numeric(10, 2)".toList]
        language := "plpgsql".toList
        volatility := some .volatile }
    let body : WrittenBody :=
      ⟨"body".toList, " begin return query select immutable; end ".toList,
        by rintro _ _ h; cases h; exact ⟨by decide, List.all_eq_true.1 (by decide)⟩, by decide⟩
    let read := routine { name := "shof_order_totals" } (s.render body ++ ";".toList)
    s.IsPlain ∧ read.replaces = true ∧ read.volatility = some .volatile ∧
      read.arguments =
        [⟨.in, "p_since", "timestamp with time zone", none⟩,
          ⟨.inOut, "p_discount", "numeric(10, 2)", some "round(0, 2)"⟩] ∧
      read.returnType = .table ∧
      read.returnColumns.map (·.map (·.name)) = some ["ord_id", "ord_total"] := by
  intro first second s body read
  have plain : s.IsPlain := by decide +kernel
  have noDollar : '$' ∉ ";".toList := by decide
  have noVolatility : Lacks volatilityWords ";".toList := by decide
  obtain ⟨hread, -⟩ := routine_of_signature { name := "shof_order_totals" } plain body noDollar
    noVolatility
  refine ⟨plain, ?_⟩
  rw [show read = _ from hread]
  decide +kernel

end Definition

end ReleaseSchema.Ddl
