/-
What is read from a written argument of a routine: its mode, name, type and
default value, whatever blanks stand around the value
(`argument?_render`).

The search for the default passes the words in front of it because none of them
is the keyword, and no equals sign is among them.
-/
import Mathlib.Data.List.Infix
import ReleaseSchema.Ddl.Routine
import ReleaseSchema.Proofs.Ddl.Name
import ReleaseSchema.Proofs.Sql.Comment
import ReleaseSchema.Proofs.Sql.Items
import ReleaseSchema.Proofs.Text.Trim
import ReleaseSchema.Proofs.Text.WholeWord

namespace ReleaseSchema.Ddl

open Text

/-! ## Arguments as they are written -/

/-- A type of one or more words. -/
structure WrittenType where
  words : List (List Char)
  nonempty : words ≠ []
  areWords : ∀ word ∈ words, word ≠ [] ∧ word.all (!isBlank ·) = true

def WrittenType.render (t : WrittenType) : List Char := [' '].intercalate t.words

structure WrittenArgument where
  mode : Option ArgumentMode
  name : WrittenName
  type : WrittenType
  defaultValue : Option (List Char)

namespace WrittenArgument

/-- The words in front of the default value. -/
def headWords (a : WrittenArgument) : List (List Char) :=
  (a.mode.map (·.name.toList)).toList ++ a.name.render :: a.type.words

def head (a : WrittenArgument) : List Char := [' '].intercalate a.headWords

def render (a : WrittenArgument) : List Char :=
  match a.defaultValue with
  | some value => a.head ++ " default ".toList ++ value
  | none => a.head

/-- The argument that is written, with the mode `in` if none is. -/
def argument (a : WrittenArgument) : Argument where
  mode := a.mode.getD .in
  name := String.ofList a.name.word
  type := String.ofList a.type.render
  defaultValue := a.defaultValue.map fun value => String.ofList (trim value)

/-- Nothing in the argument is taken for a comment, for another part of it or for a part of another
argument. -/
structure IsPlain (a : WrittenArgument) : Prop where
  noMark : '=' ∉ a.head
  noDefault : Lacks ["default"] a.head
  noMode : a.mode = none → ArgumentMode.ofKeyword? a.name.render = none
  noComment : ¬"/*".toList <:+: a.render
  valueNonblank : ∀ value ∈ a.defaultValue, trim value ≠ []
  valueOnLine : ∀ value ∈ a.defaultValue, '\n' ∉ value
  nested : Sql.IsNested a.render
  whole : Sql.Nesting.KeepsWhole {} a.render

instance (a : WrittenArgument) : Decidable a.IsPlain :=
  decidable_of_iff
    ('=' ∉ a.head ∧ Lacks ["default"] a.head ∧
      (a.mode = none → ArgumentMode.ofKeyword? a.name.render = none) ∧
      ¬"/*".toList <:+: a.render ∧ (∀ value ∈ a.defaultValue, trim value ≠ []) ∧
      (∀ value ∈ a.defaultValue, '\n' ∉ value) ∧ Sql.IsNested a.render ∧
      Sql.Nesting.KeepsWhole {} a.render)
    ⟨fun ⟨noMark, noDefault, noMode, noComment, nonblank, onLine, nested, whole⟩ =>
        ⟨noMark, noDefault, noMode, noComment, nonblank, onLine, nested, whole⟩,
      fun h => ⟨h.noMark, h.noDefault, h.noMode, h.noComment, h.valueNonblank, h.valueOnLine,
        h.nested, h.whole⟩⟩

end WrittenArgument

section Fragments

variable {text head passed rest : List Char}

theorem blankComments_of_no_mark (h : ¬"/*".toList <:+: text) : Sql.blankComments text = text :=
  Sql.blankComments_of_not_holds fun ⟨inside, begins, _⟩ =>
    h ((List.prefix_append "/*".toList inside).isInfix.trans begins.isInfix)

theorem withoutComments_of_no_mark (h : ¬"/*".toList <:+: text) :
    Sql.withoutComments (trim text) = trim text := by
  obtain ⟨lead, trail, whole, -, -⟩ := exists_trim text
  have inner : ¬"/*".toList <:+: trim text := fun hinner =>
    h (whole ▸ hinner.trans (List.infix_append' lead (trim text) trail))
  rw [Sql.withoutComments, blankComments_of_no_mark inner, trim_trim]

theorem column?_isSome (h : Sql.withoutComments text ≠ []) (suffix : String) :
    (column? text suffix).isSome = true := by
  obtain ⟨c, rest, hclean⟩ := List.exists_cons_of_ne_nil h
  have start : isBlank c = false := by
    have stops := stops_trim (Sql.blankComments text)
    rw [← Sql.withoutComments, hclean] at stops
    exact stops_cons.1 stops
  simp [column?, hclean, start]

/-! ## Default values -/

/-- No default begins in front of a word that neither is the keyword nor begins with an equals sign. -/
theorem defaultHere?_eq_none (noMark : '=' ∉ head) (noDefault : Lacks ["default"] head)
    (finish : Stops isBlank head.reverse) (stop : Stops isWord rest) {a b : List Char}
    (hsplit : head = a ++ b) (hb : b ≠ []) : defaultHere? ⟨a.reverse, b ++ rest⟩ = none := by
  have last : Stops isBlank b.reverse := by
    rw [hsplit, List.reverse_append] at finish
    exact finish.of_append
  obtain ⟨x, left, hleft, whole⟩ := exists_dropWhile_isBlank last hb
  have skipped : Cursor.skipBlanks ⟨a.reverse, b ++ rest⟩ =
      ⟨(a ++ b.takeWhile isBlank).reverse, x :: left ++ rest⟩ := by
    have stopped : Stops isBlank (x :: left ++ rest) :=
      (hleft ▸ stops_dropWhile isBlank b).append (List.cons_ne_nil x left) rest
    have blanks : ∀ c ∈ b.takeWhile isBlank, isBlank c = true :=
      fun c hc => List.mem_takeWhile_imp hc
    have text : b ++ rest = b.takeWhile isBlank ++ (x :: left ++ rest) := by
      rw [← List.append_assoc, whole]
    rw [Cursor.skipBlanks, Cursor.skipWhile, text, takeWhile_run blanks stopped,
      dropWhile_run blanks stopped, List.reverse_append]
  have place : head = (a ++ b.takeWhile isBlank) ++ x :: left := by
    rw [hsplit, List.append_assoc, whole]
  have noWord : Cursor.wholePhrase? ["default"]
      ⟨(a ++ b.takeWhile isBlank).reverse, x :: left ++ rest⟩ = none := by
    rw [wholePhrase?_eq_none_iff (by decide), wordAt_append stop]
    exact (lacks_iff (by decide)).1 noDefault "default" List.mem_cons_self _ _ place
  have hx : x ≠ '=' := by
    rintro rfl
    exact noMark (place ▸ List.mem_append_right _ List.mem_cons_self)
  have noSign : Cursor.char? '=' ⟨(a ++ b.takeWhile isBlank).reverse, x :: left ++ rest⟩ = none :=
    if_neg hx
  rw [defaultHere?, skipped, defaultMark?, noWord, Option.orElse_none, noSign]
  rfl

/-- The search for a default passes a text in which none begins. -/
theorem splitDefaultFrom?_append (h : ∀ a b, head = a ++ b → b ≠ [] →
      defaultHere? ⟨a.reverse ++ passed, b ++ rest⟩ = none) (onLine : '\n' ∉ head) :
    splitDefaultFrom? passed (head ++ rest) = splitDefaultFrom? (head.reverse ++ passed) rest := by
  induction head generalizing passed with
  | nil => rfl
  | cons c head ih =>
    rw [List.mem_cons, not_or] at onLine
    have here : defaultHere? ⟨passed, c :: (head ++ rest)⟩ = none :=
      h [] (c :: head) rfl (List.cons_ne_nil _ _)
    rw [List.cons_append, splitDefaultFrom?, here]
    simp only [if_neg (Ne.symm onLine.1)]
    rw [ih _ onLine.2]
    · simp
    · intro a b hsplit hb
      have := h (c :: a) b (by rw [hsplit, List.cons_append]) hb
      simpa using this

/-- A default is read behind its keyword, from the first character that is no blank. -/
theorem defaultHere?_written {lead value : List Char} (hlead : ∀ c ∈ lead, isBlank c = true)
    (start : Stops isBlank value) (hvalue : value ≠ []) (onLine : '\n' ∉ value) :
    defaultHere? ⟨passed, " default ".toList ++ (lead ++ value)⟩ = some value := by
  have mark : defaultMark? (Cursor.skipBlanks ⟨passed, " default ".toList ++ (lead ++ value)⟩) =
      some ⟨"default".toList.reverse ++ ' ' :: passed, ' ' :: (lead ++ value)⟩ := rfl
  have blanks : ∀ c ∈ ' ' :: lead, isBlank c = true := List.forall_mem_cons.2 ⟨by decide, hlead⟩
  have skipped : (Cursor.skipBlanks
      ⟨"default".toList.reverse ++ ' ' :: passed, ' ' :: (lead ++ value)⟩).rest = value :=
    @dropWhile_run isBlank (' ' :: lead) value blanks start
  rw [defaultHere?, mark]
  simp only [Option.bind_eq_bind, Option.bind_some, skipped]
  simp [hvalue, onLine]

end Fragments

/-! ## Arguments -/

namespace WrittenName

variable (n : WrittenName)

theorem unquoteName_render : unquoteName n.render = n.word := by
  unfold unquoteName render
  split
  · simp [between?]
  · cases hword : n.word with
    | nil => exact absurd hword n.nonempty
    | cons c word =>
      have hc : c ≠ '"' := by
        rintro rfl
        have quote : isWord '"' = true := n.allWord '"' (by simp [hword])
        exact absurd quote (by decide)
      simp [between?, hc]

theorem render_noBlank : n.render ≠ [] ∧ ∀ c ∈ n.render, isBlank c = false := by
  have word : ∀ c ∈ n.word, isBlank c = false := by
    intro c hc
    refine Bool.eq_false_iff.2 fun hblank => ?_
    have hword := n.allWord c hc
    rw [isWord_of_isBlank hblank] at hword
    cases hword
  have quote : isBlank '"' = false := by decide
  unfold render
  split
  · refine ⟨List.cons_ne_nil _ _, List.forall_mem_cons.2 ⟨quote, fun c hc => ?_⟩⟩
    rcases List.mem_append.1 hc with hc | hc
    · exact word c hc
    · rw [List.mem_singleton.1 hc, quote]
  · exact ⟨n.nonempty, word⟩

end WrittenName

namespace WrittenArgument

variable {a : WrittenArgument}

theorem headWords_noBlank (a : WrittenArgument) :
    ∀ word ∈ a.headWords, word ≠ [] ∧ ∀ c ∈ word, isBlank c = false := by
  have modes : ∀ mode : ArgumentMode, mode.name.toList ≠ [] ∧
      mode.name.toList.all (!isBlank ·) = true := by
    intro mode
    cases mode <;> decide
  have noBlank : ∀ word : List Char, word.all (!isBlank ·) = true → ∀ c ∈ word, isBlank c = false := by
    intro word hword c hc
    simpa using List.all_eq_true.1 hword c hc
  intro word hword
  rcases List.mem_append.1 hword with hword | hword
  · rw [Option.mem_toList, Option.map_eq_some_iff] at hword
    obtain ⟨mode, -, rfl⟩ := hword
    exact ⟨(modes mode).1, noBlank _ (modes mode).2⟩
  · rcases List.mem_cons.1 hword with rfl | hword
    · exact a.name.render_noBlank
    · obtain ⟨nonempty, hall⟩ := a.type.areWords word hword
      exact ⟨nonempty, noBlank word hall⟩

theorem words_head (a : WrittenArgument) : words a.head = a.headWords :=
  words_intercalate a.headWords_noBlank

theorem stops_head (a : WrittenArgument) :
    a.head ≠ [] ∧ Stops isBlank a.head ∧ Stops isBlank a.head.reverse ∧ '\n' ∉ a.head := by
  have hne : a.headWords ≠ [] := List.append_ne_nil_of_right_ne_nil _ (List.cons_ne_nil _ _)
  obtain ⟨nonempty, start, finish, spaces⟩ := stops_intercalate hne a.headWords_noBlank
  exact ⟨nonempty, start, finish, fun hline => absurd (spaces '\n' hline (by decide)) (by decide)⟩

theorem IsPlain.isItem (h : a.IsPlain) : Sql.IsItem a.render := by
  refine ⟨fun hblank => ?_, h.whole, h.nested.settled.isTop⟩
  obtain ⟨nonempty, start, -⟩ := a.stops_head
  obtain ⟨c, head, hhead⟩ := List.exists_cons_of_ne_nil nonempty
  rw [hhead, stops_cons] at start
  have hc : c ∈ a.render := by
    unfold render
    split
    · rw [hhead]
      exact List.mem_append_left _ (List.mem_append_left _ List.mem_cons_self)
    · rw [hhead]
      exact List.mem_cons_self
  rw [all_isBlank_of_trim hblank c hc] at start
  cases start

theorem splitDefault?_render (h : a.IsPlain) :
    splitDefault? (trim a.render) = a.defaultValue.map fun value => (a.head, trim value) := by
  obtain ⟨nonempty, start, finish, onLine⟩ := a.stops_head
  have passes : ∀ rest, Stops isWord rest →
      splitDefault? (a.head ++ rest) = splitDefaultFrom? a.head.reverse rest := by
    intro rest stop
    rw [splitDefault?, splitDefaultFrom?_append _ onLine, List.append_nil]
    intro front back hsplit hback
    rw [List.append_nil]
    exact defaultHere?_eq_none h.noMark h.noDefault finish stop hsplit hback
  unfold render
  cases hvalue : a.defaultValue with
  | none =>
    have nothing : defaultHere? ⟨a.head.reverse, []⟩ = none := by
      have noWord : Cursor.wholePhrase? ["default"] ⟨a.head.reverse, []⟩ = none :=
        (wholePhrase?_eq_none_iff (by decide)).2 (not_wordAt_of_stops (by decide) Stops.nil)
      have mark : defaultMark? ⟨a.head.reverse, []⟩ = none := by
        rw [defaultMark?, noWord]
        rfl
      rw [defaultHere?, Cursor.skipBlanks, Cursor.skipWhile_of_stops Stops.nil, mark]
      rfl
    have read := passes [] Stops.nil
    rw [List.append_nil] at read
    simp only [Option.map_none]
    rw [trim_eq_self start finish, read, splitDefaultFrom?, nothing]
    rfl
  | some value =>
    obtain ⟨lead, trail, whole, hlead, htrail⟩ := exists_trim value
    have hcore := h.valueNonblank value hvalue
    have coreLine : '\n' ∉ trim value := fun hline =>
      h.valueOnLine value hvalue (whole ▸ List.mem_append_right _ (List.mem_append_left _ hline))
    have written : a.head ++ " default ".toList ++ value =
        (a.head ++ (" default ".toList ++ (lead ++ trim value))) ++ trail :=
      calc a.head ++ " default ".toList ++ value
          = a.head ++ " default ".toList ++ (lead ++ (trim value ++ trail)) := congrArg _ whole
        _ = (a.head ++ (" default ".toList ++ (lead ++ trim value))) ++ trail := by
          simp only [List.append_assoc]
    have ends : Stops isBlank (a.head ++ (" default ".toList ++ (lead ++ trim value))).reverse := by
      simp only [List.reverse_append, List.append_assoc]
      exact (stops_reverse_trim value).append (List.reverse_ne_nil_iff.2 hcore) _
    have here := @defaultHere?_written a.head.reverse lead (trim value) hlead (stops_trim value) hcore
      coreLine
    have space : Stops isWord (" default ".toList ++ (lead ++ trim value)) :=
      stops_cons.2 (by decide)
    simp only [Option.map_some]
    rw [written, trim_append_blanks (start.append nonempty _) ends htrail, passes _ space]
    change splitDefaultFrom? a.head.reverse (' ' :: ("default ".toList ++ (lead ++ trim value))) = _
    change defaultHere? ⟨a.head.reverse, ' ' :: ("default ".toList ++ (lead ++ trim value))⟩ = _ at here
    rw [splitDefaultFrom?, here]
    simp only [List.reverse_reverse]

/-- **Reading an argument.** It is read as it was written, with blanks around the default left out. -/
theorem argument?_render (h : a.IsPlain) : argument? (trim a.render) = some a.argument := by
  have split := splitDefault?_render h
  have clean := withoutComments_of_no_mark h.noComment
  have alone : a.defaultValue = none → trim a.render = a.head := by
    intro hnone
    obtain ⟨-, start, finish, -⟩ := a.stops_head
    rw [render, hnone]
    exact trim_eq_self start finish
  have modes : ∀ mode : ArgumentMode, ArgumentMode.ofKeyword? mode.name.toList = some mode := by
    intro mode
    cases mode <;> decide
  have hwords := a.words_head
  obtain ⟨first, others, htype⟩ := List.exists_cons_of_ne_nil a.type.nonempty
  have type : [' '].intercalate (first :: others) = a.type.render := by
    rw [← htype]
    rfl
  unfold argument?
  simp only [clean, split]
  cases hmode : a.mode with
  | none =>
    simp only [headWords, hmode, htype, Option.map_none, Option.toList_none, List.nil_append] at hwords
    cases hvalue : a.defaultValue with
    | none =>
      simp only [Option.map_none, alone hvalue, hwords, h.noMode hmode, type,
        a.name.unquoteName_render, argument, hvalue, hmode, Option.getD_none]
    | some value =>
      simp only [Option.map_some, hwords, h.noMode hmode, type, a.name.unquoteName_render, trim_trim,
        argument, hvalue, hmode, Option.getD_none]
  | some mode =>
    simp only [headWords, hmode, htype, Option.map_some, Option.toList_some, List.cons_append,
      List.nil_append] at hwords
    cases hvalue : a.defaultValue with
    | none =>
      simp only [Option.map_none, alone hvalue, hwords, modes, type, a.name.unquoteName_render,
        argument, hvalue, hmode, Option.getD_some]
    | some value =>
      simp only [Option.map_some, hwords, modes, type, a.name.unquoteName_render, trim_trim, argument,
        hvalue, hmode, Option.getD_some]

end WrittenArgument

end ReleaseSchema.Ddl
