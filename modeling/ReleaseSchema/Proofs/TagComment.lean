/-
Tags as they are written in a comment: flags, texts in single quotes and lists
of such texts, with blanks between them. A tag is read up to its own end whatever
its value holds (`WrittenTag.spelled?_append`), so the tags of a comment are the
ones that were written, in their order (`TagComment.scan_exact`). Of several tags
of one name a map keeps the last (`Tag.get?_scanMap`).
-/
import ReleaseSchema.Proofs.SortedMap
import ReleaseSchema.Proofs.Tag
import ReleaseSchema.Proofs.Text.Trim

namespace ReleaseSchema

open Text

/-- The value of a tag as it is written. -/
inductive WrittenValue where
  | flag
  | text (content : List Char)
  | list (items : List (List Char))

namespace WrittenValue

def quoted (content : List Char) : List Char := '\'' :: (content ++ ['\''])

/-- What is between the brackets of a list. -/
def inside (items : List (List Char)) : List Char := [','].intercalate (items.map quoted)

def listText (items : List (List Char)) : List Char := '[' :: (inside items ++ [']'])

def render : WrittenValue → List Char
  | flag => []
  | text content => '=' :: quoted content
  | list items => '=' :: listText items

/-- The value that is read. A list is kept as it is written. -/
def value : WrittenValue → TagValue
  | flag => .flag true
  | text content => .text (String.ofList content)
  | list items => .text (String.ofList (listText items))

/-- Nothing in the value ends it early: no quote, no line end, and in a list no bracket. -/
def IsPlain : WrittenValue → Prop
  | flag => True
  | text content => ∀ c ∈ content, c ≠ '\'' ∧ c ≠ '\n'
  | list items => ∀ item ∈ items, ∀ c ∈ item, c ≠ '\'' ∧ c ≠ '\n' ∧ c ≠ ']'

instance : DecidablePred IsPlain
  | flag => .isTrue trivial
  | text content => List.decidableBAll _ content
  | list items => @List.decidableBAll _ _ (fun item => List.decidableBAll _ item) items

/-! ## Quoted texts and lists -/

section Lists

variable {content rest : List Char} {items : List (List Char)}

/-- What holds of quotes, commas and the characters of the items holds between the brackets. -/
theorem forall_mem_inside {P : Char → Prop} (quote : P '\'') (comma : P ',')
    (h : ∀ item ∈ items, ∀ c ∈ item, P c) : ∀ c ∈ inside items, P c := by
  have parts : ∀ item ∈ items, ∀ c ∈ quoted item, P c := by
    intro item hitem
    refine List.forall_mem_cons.2 ⟨quote, List.forall_mem_append.2 ⟨h item hitem, ?_⟩⟩
    exact List.forall_mem_singleton.2 quote
  unfold inside
  induction items with
  | nil => exact List.forall_mem_nil P
  | cons item items ih =>
    obtain ⟨first, others⟩ := List.forall_mem_cons.1 parts
    cases items with
    | nil =>
      rw [List.map_singleton, List.intercalate_singleton]
      exact first
    | cons next items =>
      rw [List.map_cons, List.map_cons, List.intercalate_cons_cons, ← List.map_cons]
      refine List.forall_mem_append.2 ⟨List.forall_mem_append.2 ⟨first, ?_⟩, ?_⟩
      · exact List.forall_mem_singleton.2 comma
      · exact ih (fun other hother => h other (List.mem_cons_of_mem _ hother)) others

/-- A text is cut at the first character that it does not hold. -/
theorem cut_of_not_mem {last : Char} (h : last ∉ content) (rest : List Char) :
    (content ++ last :: rest).takeWhile (· != last) = content ∧
      (content ++ last :: rest).dropWhile (· != last) = last :: rest := by
  have run : ∀ c ∈ content, (c != last) = true := by
    intro c hc
    rw [bne_iff_ne]
    rintro rfl
    exact h hc
  have stop : Stops (· != last) (last :: rest) := stops_cons.2 (by simp)
  exact ⟨takeWhile_run run stop, dropWhile_run run stop⟩

/-- A value in delimiters is read up to the first closing one, whatever is behind it. -/
theorem value?_enclosed {first last : Char} (closes : Tag.closing? first = some last)
    (h : last ∉ content) (rest : List Char) :
    Tag.value? (first :: (content ++ last :: rest)) = some (first :: (content ++ [last]), rest) := by
  obtain ⟨before, after⟩ := cut_of_not_mem h rest
  rw [Tag.value?, Tag.enclosed?_cons, closes]
  simp only [Option.bind_some, Tag.delimited?, before, after, List.cons_append]

theorem items_quoted (h : '\'' ∉ content) (rest : List Char) :
    Tag.items (quoted content ++ rest) = content :: Tag.items rest := by
  obtain ⟨before, after⟩ := cut_of_not_mem h rest
  have closed : ((content ++ '\'' :: rest).contains '\'') = true := by simp
  have written : quoted content ++ rest = '\'' :: (content ++ '\'' :: rest) := by simp [quoted]
  rw [written, Tag.items, if_pos ⟨.inl rfl, closed⟩, before, after, List.tail_cons]

theorem items_comma (rest : List Char) : Tag.items (',' :: rest) = Tag.items rest := by
  have noQuote : ¬(',' = '\'' ∨ ',' = '"') := by decide
  rw [Tag.items, if_neg fun h => noQuote h.1, if_neg (by decide)]

theorem items_inside (h : ∀ item ∈ items, '\'' ∉ item) : Tag.items (inside items) = items := by
  unfold inside
  induction items with
  | nil => rw [List.map_nil, List.intercalate_nil, Tag.items]
  | cons item items ih =>
    obtain ⟨first, others⟩ := List.forall_mem_cons.1 h
    cases items with
    | nil =>
      have alone := items_quoted first []
      rw [List.append_nil, Tag.items] at alone
      rw [List.map_singleton, List.intercalate_singleton, alone]
    | cons next items =>
      rw [List.map_cons, List.map_cons, List.intercalate_cons_cons, List.append_assoc,
        List.singleton_append, ← List.map_cons, items_quoted first, items_comma, ih others]

end Lists

variable {v : WrittenValue}

/-- A value that is no flag stands between delimiters, on one line. -/
theorem IsPlain.cases (h : v.IsPlain) :
    v = flag ∨ ∃ first content last, v.render = '=' :: first :: (content ++ [last]) ∧
      Tag.closing? first = some last ∧ last ∉ content ∧ '\n' ∉ content := by
  cases v with
  | flag => exact .inl rfl
  | text content =>
    exact .inr ⟨'\'', content, '\'', rfl, rfl, fun hmem => (h _ hmem).1 rfl, fun hmem => (h _ hmem).2 rfl⟩
  | list items =>
    have all := forall_mem_inside (P := fun c => c ≠ ']' ∧ c ≠ '\n') (by decide) (by decide)
      fun item hitem c hc => ⟨(h item hitem c hc).2.2, (h item hitem c hc).2.1⟩
    exact .inr ⟨'[', inside items, ']', rfl, rfl, fun hmem => (all _ hmem).1 rfl,
      fun hmem => (all _ hmem).2 rfl⟩

/-- The quotes of a text are taken off, and a list is left as it is written. -/
theorem value_eq_text {written : List Char} (h : v.render = '=' :: written) :
    v.value = .text (String.ofList (Tag.unquoteValue written)) := by
  cases v with
  | flag => cases h
  | text content =>
    cases h
    simp [value, quoted, Tag.unquoteValue, between?]
  | list items =>
    cases h
    simp [value, listText, Tag.unquoteValue, between?]

theorem listValues_list {items : List (List Char)} (h : (list items).IsPlain) (name : String) :
    (Tag.mk name (list items).value).listValues = items.map String.ofList := by
  have noQuote : ∀ item ∈ items, '\'' ∉ item := fun item hitem hmem => (h item hitem _ hmem).1 rfl
  have trimmed : trim (listText items) = listText items := by
    refine trim_eq_self (stops_cons.2 (by decide)) ?_
    rw [listText, List.reverse_cons, List.reverse_append]
    exact stops_cons.2 (by decide)
  have between : between? '[' ']' (listText items) = some (inside items) := by
    simp [listText, between?]
  simp only [Tag.listValues, value, String.toList_ofList, trimmed, between, items_inside noQuote]

end WrittenValue

/-! ## Tags -/

/-- A tag as it is written: a name that begins with a letter, and a value that is read whole. -/
structure WrittenTag where
  initial : Char
  others : List Char
  value : WrittenValue
  letter : isAsciiLetter initial = true
  nameChars : others.all Tag.isNameChar = true
  plain : value.IsPlain

namespace WrittenTag

variable (t : WrittenTag) {rest : List Char}

def name : List Char := t.initial :: t.others

/-- The tag without its number sign. -/
def body : List Char := t.name ++ t.value.render

def render : List Char := '#' :: t.body

/-- The tag that is read. -/
def tag : Tag := ⟨String.ofList t.name, t.value.value⟩

/-- A name or a flag goes on with the character. -/
def goesOn (c : Char) : Bool := Tag.isNameChar c || c == '='

/-- Neither a name nor a flag goes on with a blank. -/
theorem stops_blanks {blanks : List Char} (h : blanks.all isBlank = true) (stop : Stops goesOn rest) :
    Stops goesOn (blanks ++ rest) := by
  cases blanks with
  | nil => exact stop
  | cons c blanks =>
    have blank : isBlank c = true := List.all_eq_true.1 h c List.mem_cons_self
    exact stops_cons.2 (of_isBlank blank (P := fun c => goesOn c = false) (by decide +kernel))

theorem name?_append (stop : Stops Tag.isNameChar rest) :
    Tag.name? (t.name ++ rest) = some (t.name, rest) := by
  have chars := List.all_eq_true.1 t.nameChars
  rw [name, List.cons_append, Tag.name?, if_pos t.letter, takeWhile_run chars stop,
    dropWhile_run chars stop]

/-- A tag is read up to its own end. -/
theorem spelled?_append (stop : Stops goesOn rest) :
    Tag.spelled? (t.body ++ rest) = some (t.body, rest) := by
  unfold body
  rcases t.plain.cases with hflag | ⟨first, content, last, written, closes, noClose, -⟩
  · have stopName : Stops Tag.isNameChar rest := stop.imp fun c hc => by simp [goesOn, hc]
    rw [hflag, WrittenValue.render, List.append_nil, Tag.spelled?, t.name?_append stopName]
    cases rest with
    | nil => rfl
    | cons c rest =>
      have noEquals : c ≠ '=' := by
        rintro rfl
        exact absurd (stops_cons.1 stop) (by decide)
      simp [noEquals]
  · have stopName : Stops Tag.isNameChar ('=' :: first :: (content ++ last :: rest)) :=
      stops_cons.2 (by decide)
    have whole : t.name ++ '=' :: first :: (content ++ [last]) ++ rest =
        t.name ++ '=' :: first :: (content ++ last :: rest) := by simp
    rw [written, whole, Tag.spelled?, t.name?_append stopName]
    simp only [WrittenValue.value?_enclosed closes noClose]

theorem noBlank_name : ∀ c ∈ t.name, isBlank c = false := by
  have initial : ∀ c, isBlank c = true → isAsciiLetter c = false := fun c hc =>
    of_isBlank hc (P := fun c => isAsciiLetter c = false) (by decide)
  have other : ∀ c, isBlank c = true → Tag.isNameChar c = false := fun c hc =>
    of_isBlank hc (P := fun c => Tag.isNameChar c = false) (by decide +kernel)
  refine List.forall_mem_cons.2 ⟨?_, fun c hc => ?_⟩
  · rw [← Bool.not_eq_true]
    exact fun blank => absurd t.letter (by simp [initial _ blank])
  · rw [← Bool.not_eq_true]
    exact fun blank => absurd (List.all_eq_true.1 t.nameChars c hc) (by simp [other c blank])

theorem trim_render : trim t.render = t.render := by
  refine trim_eq_self (stops_cons.2 (by decide)) ?_
  rcases t.plain.cases with hflag | ⟨first, content, last, written, closes, -⟩
  · have noBlank : ∀ c ∈ t.render, isBlank c = false := by
      rw [render, body, hflag, WrittenValue.render, List.append_nil, List.forall_mem_cons]
      exact ⟨by decide, t.noBlank_name⟩
    exact fun c hc => noBlank c (List.mem_reverse.1 (List.mem_of_mem_head? hc))
  · have ends : t.render.reverse = last :: ('#' :: (t.name ++ '=' :: first :: content)).reverse := by
      simp [render, body, written]
    rw [ends, stops_cons]
    unfold Tag.closing? at closes
    split at closes <;> cases closes <;> decide

theorem ofText?_render : Tag.ofText? t.render = some t.tag := by
  unfold Tag.ofText?
  rw [t.trim_render, render, body]
  rcases t.plain.cases with hflag | ⟨first, content, last, written, closes, -, onLine⟩
  · have name := t.name?_append Stops.nil
    rw [List.append_nil] at name
    simp [tag, hflag, WrittenValue.render, WrittenValue.value, name]
  · have stop : Stops Tag.isNameChar t.value.render := written ▸ stops_cons.2 (by decide)
    have name := t.name?_append stop
    rw [written] at name ⊢
    have line : '\n' ∉ first :: (content ++ [last]) := by
      rw [List.mem_cons, List.mem_append, List.mem_singleton, not_or, not_or]
      unfold Tag.closing? at closes
      split at closes <;> cases closes <;> exact ⟨by decide, onLine, by decide⟩
    simp only [name, tag, WrittenValue.value_eq_text written, List.isEmpty_cons, Bool.false_or,
      List.contains_eq_mem, decide_eq_true_eq, if_neg line]

theorem listValues_tag {items : List (List Char)} (h : t.value = .list items) :
    t.tag.listValues = items.map String.ofList := by
  have plain := t.plain
  rw [h] at plain
  rw [tag, h, WrittenValue.listValues_list plain]

end WrittenTag

/-! ## Comments -/

/-- A tag and the blanks in front of it. -/
structure SpacedTag extends WrittenTag where
  blanks : List Char
  allBlank : blanks.all isBlank = true

namespace SpacedTag

open Tag (spellings)

def spaced (t : SpacedTag) : List Char := t.blanks ++ t.render

variable {back : List Char}

theorem not_mem_blanks (t : SpacedTag) : '#' ∉ t.blanks :=
  fun h => absurd (List.all_eq_true.1 t.allBlank _ h) (by decide)

theorem stops_spaced (t : SpacedTag) (rest : List Char) :
    Stops WrittenTag.goesOn (t.spaced ++ rest) := by
  rw [spaced, List.append_assoc]
  exact WrittenTag.stops_blanks t.allBlank (stops_cons.2 (by decide))

theorem stops_flatMap (tags : List SpacedTag) (stop : Stops WrittenTag.goesOn back) :
    Stops WrittenTag.goesOn (tags.flatMap spaced ++ back) := by
  cases tags with
  | nil => exact stop
  | cons t tags =>
    rw [List.flatMap_cons, List.append_assoc]
    exact t.stops_spaced _

/-- The spellings of the tags of a text are those that were written. -/
theorem spellings_flatMap (tags : List SpacedTag) (stop : Stops WrittenTag.goesOn back)
    (noMark : '#' ∉ back) :
    spellings (tags.flatMap spaced ++ back) = tags.map (·.render) := by
  induction tags with
  | nil =>
    have nothing := Tag.spellings_append_of_not_mem noMark []
    rw [List.append_nil, spellings] at nothing
    exact nothing
  | cons t tags ih =>
    have own := t.spelled?_append (stops_flatMap tags stop)
    rw [List.flatMap_cons, List.append_assoc, spaced, List.append_assoc,
      Tag.spellings_append_of_not_mem t.not_mem_blanks, WrittenTag.render, List.cons_append,
      Tag.spellings_of_some own, ih]
    rfl

end SpacedTag

/-- Of several tags of one name the last one of the text is kept. -/
theorem Tag.get?_scanMap (text : List Char) (name : String) :
    (scanMap text).get? name = (scan text).reverse.find? (·.name == name) := by
  have last : ∀ tags : List Tag, (tags.map fun tag => (tag.name, tag)).lookup name =
      tags.find? (·.name == name) := by
    intro tags
    induction tags with
    | nil => rfl
    | cons tag tags ih =>
      rw [List.map_cons, Bindings.lookup_cons, ih]
      by_cases h : tag.name = name
      · rw [if_pos h.symm]
        exact (List.find?_cons_of_pos (p := fun tag : Tag => tag.name == name) (beq_iff_eq.2 h)).symm
      · rw [if_neg (Ne.symm h)]
        exact (List.find?_cons_of_neg (p := fun tag : Tag => tag.name == name) (mt beq_iff_eq.1 h)).symm
  rw [scanMap, SortedMap.get?_ofList, ← List.map_reverse, last]

/-- The marks of a comment. -/
inductive CommentMarks where
  | block
  | line

namespace CommentMarks

def opening : CommentMarks → List Char
  | block => ['/', '*']
  | line => ['-', '-']

def closing : CommentMarks → List Char
  | block => ['*', '/']
  | line => []

end CommentMarks

/-- A comment of tags, with blanks between them and at its end. -/
structure TagComment where
  marks : CommentMarks
  tags : List SpacedTag
  trail : List Char
  allBlank : trail.all isBlank = true

namespace TagComment

variable (c : TagComment)

def render : List Char :=
  c.marks.opening ++ (c.tags.flatMap SpacedTag.spaced ++ (c.trail ++ c.marks.closing))

theorem not_mem_opening : '#' ∉ c.marks.opening := by
  cases c.marks <;> decide

theorem not_mem_end : '#' ∉ c.trail ++ c.marks.closing := by
  rw [List.mem_append, not_or]
  refine ⟨fun h => absurd (List.all_eq_true.1 c.allBlank _ h) (by decide), ?_⟩
  cases c.marks <;> decide

theorem stops_end : Stops WrittenTag.goesOn (c.trail ++ c.marks.closing) := by
  refine WrittenTag.stops_blanks c.allBlank ?_
  cases c.marks
  · exact stops_cons.2 (by decide)
  · exact Stops.nil

/-- **A comment is read as the tags that were written**: all of them in their order, a flag as a
flag, a text without its quotes and a list as it stands, whose values are its items. Of several
tags of one name the map keeps the last. -/
theorem scan_exact :
    Tag.scan c.render = c.tags.map (·.tag) ∧
      (∀ t ∈ c.tags, ∀ items, t.value = .list items →
        t.tag.listValues = items.map String.ofList) ∧
      ∀ name, (Tag.scanMap c.render).get? name =
        (c.tags.map (·.tag)).reverse.find? (·.name == name) := by
  have found : Tag.scan c.render = c.tags.map (·.tag) := by
    rw [Tag.scan, render, Tag.spellings_append_of_not_mem c.not_mem_opening,
      SpacedTag.spellings_flatMap c.tags c.stops_end c.not_mem_end, List.filterMap_map,
      ← List.filterMap_eq_map]
    exact congrArg (List.filterMap · c.tags) (funext fun t => t.ofText?_render)
  refine ⟨found, fun t _ items hitems => t.listValues_tag hitems, fun name => ?_⟩
  rw [Tag.get?_scanMap, found]

/-- A comment whose values hold the marks that tags and lists are made of. -/
def marked : TagComment where
  marks := .block
  tags := [
    ⟨⟨'s', "ort".toList, .flag, by decide, by decide +kernel, trivial⟩, [' '], by decide⟩,
    ⟨⟨'l', "abel".toList, .text "a=#b [c], \"d\"".toList, by decide, by decide +kernel,
      by decide +kernel⟩, ['\n', ' '], by decide⟩,
    ⟨⟨'r', "oles".toList, .list ["ad,min".toList, [], "#x=\"[y".toList], by decide,
      by decide +kernel, by decide +kernel⟩, [' '], by decide⟩,
    ⟨⟨'n', "o-one".toList, .list [], by decide, by decide +kernel, by decide +kernel⟩, [' '],
      by decide⟩,
    ⟨⟨'s', "ort".toList, .text [], by decide, by decide +kernel, by decide +kernel⟩, [' '],
      by decide⟩]
  trail := [' ']
  allBlank := by decide

theorem scan_exact_marked :
    let text := "/* #sort\n #label='a=#b [c], \"d\"' #roles=['ad,min','','#x=\"[y'] #no-one=[] #sort='' */"
    let roles : Tag := ⟨"roles", .text "['ad,min','','#x=\"[y']"⟩
    Tag.scan text.toList = [⟨"sort", .flag true⟩, ⟨"label", .text "a=#b [c], \"d\""⟩, roles,
        ⟨"no-one", .text "[]"⟩, ⟨"sort", .text ""⟩] ∧
      roles.listValues = ["ad,min", "", "#x=\"[y"] ∧
      (Tag.mk "no-one" (.text "[]")).listValues = [] ∧
      (Tag.scanMap text.toList).get? "sort" = some ⟨"sort", .text ""⟩ := by
  have ⟨found, values, last⟩ := scan_exact marked
  exact ⟨found, values _ (.tail _ (.tail _ (.head _))) _ rfl,
    values _ (.tail _ (.tail _ (.tail _ (.head _)))) _ rfl, last "sort"⟩

end TagComment

end ReleaseSchema
