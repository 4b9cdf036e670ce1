/-
The body of a routine has no part in what is read of it: two definitions that
differ in the body between two equal dollar tags define the same routine
(`routine_of_bodies`).

The head and the arguments are read before the body begins, and do not change
when it follows: every reader of the head stops before the parenthesis that
opens the arguments (`search?_routineHead_more`). What is read behind the
arguments is read of a text without bodies, and the one that begins first ends
at its own tag, whatever other tags, quotes or parentheses stand in it
(`withoutBodies_closed`).
-/
import Mathlib.Data.Option.Basic
import ReleaseSchema.Ddl.Routine
import ReleaseSchema.Proofs.Ddl.Name
import ReleaseSchema.Proofs.Sql.Items
import ReleaseSchema.Proofs.Text.Search

namespace ReleaseSchema.Ddl

open Text

/-! ## Dollar tags -/

/-- What stands between the two signs of a dollar tag: nothing, or a word that begins with no digit. -/
def IsTagName (name : List Char) : Prop :=
  ∀ c rest, name = c :: rest → startsTag c = true ∧ ∀ x ∈ rest, isWord x = true

def IsDollarTag (tag : List Char) : Prop := ∃ name, IsTagName name ∧ tag = '$' :: (name ++ ['$'])

section Bodies

variable {name front rest body tag : List Char}

theorem dollarTag?_of_isTagName (h : IsTagName name) (inside : List Char) :
    dollarTag? (name ++ '$' :: inside) = some (name, inside) := by
  cases name with
  | nil => rfl
  | cons c name =>
    obtain ⟨hc, hword⟩ := h c name rfl
    have stop : Stops isWord ('$' :: inside) := stops_cons.2 (by decide)
    have notDollar : c ≠ '$' := by
      rintro rfl
      exact absurd hc (by decide)
    rw [List.cons_append, dollarTag?, if_neg notDollar, if_pos hc]
    simp only [dropWhile_run hword stop, takeWhile_run hword stop]

theorem withoutBodies_append (h : '$' ∉ front) :
    withoutBodies (front ++ rest) = front ++ withoutBodies rest := by
  induction front with
  | nil => rfl
  | cons c front ih =>
    rw [List.mem_cons, not_or] at h
    rw [List.cons_append, withoutBodies, if_neg (Ne.symm h.1), ih h.2, List.cons_append]

theorem withoutBodies_of_not_mem (h : '$' ∉ front) : withoutBodies front = front := by
  have := @withoutBodies_append front [] h
  rwa [List.append_nil, withoutBodies, List.append_nil] at this

theorem withoutBodies_closed (hfront : '$' ∉ front) (htag : IsDollarTag tag)
    (hbody : Closes tag body) (tail : List Char) :
    withoutBodies (front ++ (tag ++ (body ++ (tag ++ tail)))) =
      front ++ ' ' :: withoutBodies tail := by
  obtain ⟨name, hname, rfl⟩ := htag
  have opening := dollarTag?_of_isTagName hname (body ++ ('$' :: (name ++ ['$']) ++ tail))
  have closing := splitAt?_of_closes hbody (List.cons_ne_nil _ _) tail
  have written : '$' :: (name ++ ['$']) ++ (body ++ ('$' :: (name ++ ['$']) ++ tail)) =
      '$' :: (name ++ '$' :: (body ++ ('$' :: (name ++ ['$']) ++ tail))) := by
    simp
  rw [withoutBodies_append hfront, written, withoutBodies, if_pos rfl]
  split
  next found inside htag =>
    rw [opening] at htag
    cases htag
    split
    next before after hsplit =>
      rw [closing] at hsplit
      cases hsplit
      rfl
    next hsplit =>
      rw [closing] at hsplit
      cases hsplit
  next htag =>
    rw [opening] at htag
    cases htag

end Bodies

/-! ## The head in front of a body -/

section Head

open Cursor

variable {header name : List Char} {replaces : Bool} {c place list : Cursor}

/-- The head that was read, at the same place when more text follows. -/
def extendHead (more : List Char) (head : Bool × List Char × Cursor) : Bool × List Char × Cursor :=
  (head.1, extendSnd more head.2)

/-- A character that the head of a definition does not pass. -/
def EndsHead (x : Char) : Prop :=
  EndsName x ∧ ∀ word ∈ ["create", "or", "replace", "function", "procedure"], foldCase x ∉ word.toList

instance (x : Char) : Decidable (EndsHead x) := inferInstanceAs (Decidable (_ ∧ _))

/-- Whether a head is read in front of such a character does not change when more text follows. -/
theorem routineHead?_awaits {x : Char} (more : List Char) (hx : EndsHead x) (h : c.Awaits x) :
    routineHead? (c.extend more) = (routineHead? c).map (extendHead more) := by
  obtain ⟨hname, hword⟩ := hx
  suffices Tracks (extendHead more) (fun _ => True) (routineHead? c) (routineHead? (c.extend more))
    from this.1
  refine Tracks.bind (boundary?_awaits more h) fun b hb => ?_
  refine Tracks.bind (wordAndBlanks?_awaits more (hword "create" (by decide)) hname hb) fun e he => ?_
  have replacing : Agree more (Awaits x) ((e.phrase? ["or", "replace"]).bind (·.blanks?))
      (((e.extend more).phrase? ["or", "replace"]).bind (·.blanks?)) :=
    (phrase?_awaits more hname.notBlank
      (fun word hmem => hword word (List.mem_cons_of_mem _ (List.mem_append_left _ hmem))) he).bind
      fun _ hd => blanks?_awaits more hname.notBlank hd
  have kind := replacing.getD he
  have replaces : (((e.extend more).phrase? ["or", "replace"]).bind (·.blanks?)).isSome =
      ((e.phrase? ["or", "replace"]).bind (·.blanks?)).isSome := by
    rw [replacing.1, Option.isSome_map]
  simp only [kind.2, replaces]
  refine Tracks.bind (Tracks.orElse
    (wordAndBlanks?_awaits more (hword "function" (by decide)) hname kind.1)
    (wordAndBlanks?_awaits more (hword "procedure" (by decide)) hname kind.1)) fun n hn => ?_
  refine (qualifiedName?_awaits more hname hn).bind fun a ha => ?_
  have list := skipBlanks_awaits more hname ha
  simp only [extendSnd, list.1, char?_extend more list.2.rest_ne_nil]
  cases a.2.skipBlanks.char? '(' with
  | none => exact .none
  | some _ => exact .some (extendHead more) trivial

theorem awaits_of_routineHead? (h : routineHead? c = some (replaces, name, list)) :
    c.Awaits '(' := by
  obtain ⟨b, hb, h⟩ := Option.bind_eq_some_iff.1 h
  obtain ⟨e, he, h⟩ := Option.bind_eq_some_iff.1 h
  obtain ⟨n, hn, h⟩ := Option.bind_eq_some_iff.1 h
  obtain ⟨⟨word, d⟩, hword, h⟩ := Option.bind_eq_some_iff.1 h
  obtain ⟨opened, hopened, -⟩ := Option.bind_eq_some_iff.1 h
  obtain ⟨rest, hrest, -⟩ := exists_of_char? hopened
  have opens : '(' ∈ d.skipBlanks.rest := hrest ▸ List.mem_cons_self
  have named : d.skipBlanks.rest <:+ n.rest :=
    (suffix_skipWhile isBlank d).trans (suffix_of_qualifiedName? hword)
  have kind : n.rest <:+ e.rest := by
    have replacing : (((e.phrase? ["or", "replace"]).bind (·.blanks?)).getD e).rest <:+ e.rest := by
      refine suffix_getD fun r hr => ?_
      obtain ⟨words, hwords, hblanks⟩ := Option.bind_eq_some_iff.1 hr
      exact (suffix_of_blanks? hblanks).trans (suffix_of_phrase? hwords)
    obtain hfunction | ⟨-, hprocedure⟩ := (Option.orElse_eq_some _ _ _).1 hn
    · exact (suffix_of_wordAndBlanks? hfunction).trans replacing
    · exact (suffix_of_wordAndBlanks? hprocedure).trans replacing
  have begun : e.rest <:+ c.rest :=
    (suffix_of_wordAndBlanks? he).trans (suffix_of_boundary? hb)
  exact (named.trans (kind.trans begun)).mem opens

theorem search?_routineHead_more (more : List Char)
    (h : search? routineHead? header = some (place, replaces, name, list)) :
    search? routineHead? (header ++ more) =
      some (place.extend more, replaces, name, list.extend more) := by
  obtain ⟨before, after, rfl, rfl, hread, hbefore⟩ := exists_of_findFrom h
  have opens : '(' ∈ after := awaits_of_routineHead? hread
  have here : routineHead? ⟨before.reverse ++ [], after ++ more⟩ =
      some (replaces, name, list.extend more) := by
    have := routineHead?_awaits more (by decide) (awaits_of_routineHead? hread)
    rw [hread] at this
    exact this
  have passes : ∀ x y, before = x ++ y → y ≠ [] →
      routineHead? ⟨x.reverse ++ [], y ++ (after ++ more)⟩ = none := by
    intro x y hsplit hy
    have awaits : Awaits '(' ⟨x.reverse ++ [], y ++ after⟩ := List.mem_append_right y opens
    have nothing : routineHead? ⟨x.reverse ++ [], y ++ after⟩ = none := hbefore x y hsplit hy
    have := routineHead?_awaits more (by decide) awaits
    rwa [nothing, extend, List.append_assoc] at this
  rw [search?, find?, start, List.append_assoc, findFrom_append passes, findFrom_of_some here]
  rfl

end Head

/-! ## Two bodies -/

/-- What follows the arguments of the routine that a text defines. -/
def behindArguments? (sql : List Char) : Option (List Char) := do
  let (_, _, _, list) ← search? routineHead? sql
  let (_, behind) ← Sql.enclosed? list.rest
  return behind

section Routine

variable {header behind tag body other : List Char}

theorem routine_of_body (history : History) (closed : behindArguments? header = some behind)
    (noDollar : '$' ∉ behind) (htag : IsDollarTag tag) (hbody : Closes tag body)
    (tail : List Char) :
    routine history (header ++ (tag ++ (body ++ (tag ++ tail)))) =
      routine history (header ++ ' ' :: tail) := by
  obtain ⟨⟨place, replaces, name, list⟩, head, h⟩ := Option.bind_eq_some_iff.1 closed
  obtain ⟨⟨arguments, behind⟩, enclosed, h⟩ := Option.bind_eq_some_iff.1 h
  cases h
  have bodies := withoutBodies_closed noDollar htag hbody tail
  have space : withoutBodies (behind ++ ' ' :: tail) = behind ++ ' ' :: withoutBodies tail := by
    rw [withoutBodies_append noDollar, withoutBodies, if_neg (by decide)]
  simp only [routine, search?_routineHead_more _ head, Cursor.extend, Sql.enclosed?_more _ enclosed,
    bodies, space]

/-- **A body is not read.** Two definitions that differ in a body only define the same routine. The
body is the first one behind the arguments, and its tag closes it. -/
theorem routine_of_bodies (history : History) (closed : behindArguments? header = some behind)
    (noDollar : '$' ∉ behind) (htag : IsDollarTag tag) (hbody : Closes tag body)
    (hother : Closes tag other) (tail : List Char) :
    routine history (header ++ (tag ++ (body ++ (tag ++ tail)))) =
      routine history (header ++ (tag ++ (other ++ (tag ++ tail)))) := by
  rw [routine_of_body history closed noDollar htag hbody,
    routine_of_body history closed noDollar htag hother]

/-- A body with keywords, quotes, parentheses and another tag, and a body that is empty. -/
theorem routine_of_bodies_touch :
    let header := "create function abcf_touch(p_id int = 1) returns void as ".toList
    let tag := "$body$".toList
    let body := " begin return 'volatile $$ ( $bod$'; /* returns table (a int) end".toList
    let tail := " language sql stable; $$ immutable".toList
    behindArguments? header = some " returns void as ".toList ∧ '$' ∉ " returns void as ".toList ∧
      IsDollarTag tag ∧ Closes tag body ∧ Closes tag [] ∧
      routine { name := "touch" } (header ++ (tag ++ (body ++ (tag ++ tail)))) =
        routine { name := "touch" } (header ++ (tag ++ ([] ++ (tag ++ tail)))) := by
  intro header tag body tail
  have closed : behindArguments? header = some " returns void as ".toList := by decide +kernel
  have noDollar : '$' ∉ " returns void as ".toList := by decide
  have htag : IsDollarTag tag := by
    refine ⟨"body".toList, ?_, rfl⟩
    rintro _ _ h
    cases h
    exact ⟨by decide, List.all_eq_true.1 (by decide)⟩
  have hbody : Closes tag body := by decide +kernel
  have hnone : Closes tag [] := closes_nil tag
  exact ⟨closed, noDollar, htag, hbody, hnone,
    routine_of_bodies { name := "touch" } closed noDollar htag hbody hnone tail⟩

end Routine

end ReleaseSchema.Ddl
