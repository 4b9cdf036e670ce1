/-
Names of tables by the convention: a prefix with the mark behind it, a body and a
code, with underscores between them. A prefix and a code hold no underscore, so
a name falls into such parts in one way or in none, whatever the body holds
(`WrittenTableName.render_injective`, `TableName.ofText?_exact`).
-/
import ReleaseSchema.Ddl.Name
import ReleaseSchema.Proofs.Text.Stops

namespace ReleaseSchema.Ddl

open Text

/-! ## Prefixes -/

/-- Two to four letters, in either case. -/
structure IsPrefix (text : List Char) : Prop where
  length : 2 ≤ text.length ∧ text.length ≤ 4
  letters : text.all isLetterFolded = true

section Prefixes

variable {mark : Char} {name dbPrefix rest : List Char}

theorem IsPrefix.ne_underscore (h : IsPrefix dbPrefix) : ∀ c ∈ dbPrefix, (c != '_') = true := by
  intro c hc
  rw [bne_iff_ne]
  rintro rfl
  exact absurd (List.all_eq_true.1 h.letters _ hc) (by decide)

/-- Behind a prefix are its mark, in either case, and the first underscore of the name. -/
theorem prefixed?_eq_some_iff (hmark : mark ≠ '_') :
    prefixed? mark name = some (dbPrefix, rest) ↔
      IsPrefix dbPrefix ∧ ∃ m, foldCase m = mark ∧ name = dbPrefix ++ m :: '_' :: rest := by
  constructor
  · intro h
    unfold prefixed? at h
    dsimp only at h
    split at h
    · cases h
    next c behind hbehind =>
      split at h
      next conditions =>
        cases h
        obtain ⟨marked, low, high, letters⟩ := conditions
        obtain ⟨m, hlast, hm⟩ := Option.map_eq_some_iff.1 marked
        obtain ⟨front, hfront⟩ := List.getLast?_eq_some_iff.1 hlast
        have whole : name = name.takeWhile (· != '_') ++ name.dropWhile (· != '_') :=
          List.takeWhile_append_dropWhile.symm
        have stop := stops_dropWhile (· != '_') name
        rw [hbehind, stops_cons, bne_eq_false_iff_eq] at stop
        subst stop
        rw [hfront, List.dropLast_concat] at low high letters ⊢
        rw [hfront, hbehind, List.append_assoc, List.singleton_append] at whole
        exact ⟨⟨⟨low, high⟩, letters⟩, m, hm, whole⟩
      next => cases h
  · rintro ⟨begins, m, hm, rfl⟩
    have letter : m ≠ '_' := by
      rintro rfl
      exact hmark (hm ▸ by decide)
    have run : ∀ c ∈ dbPrefix ++ [m], (c != '_') = true := by
      rw [List.forall_mem_append, List.forall_mem_singleton]
      exact ⟨begins.ne_underscore, bne_iff_ne.2 letter⟩
    have stop : Stops (· != '_') ('_' :: rest) := stops_cons.2 (by decide)
    have whole : dbPrefix ++ m :: '_' :: rest = (dbPrefix ++ [m]) ++ '_' :: rest := by simp
    unfold prefixed?
    rw [whole, takeWhile_run run stop, dropWhile_run run stop]
    simp only [List.getLast?_concat, Option.map_some, hm, List.dropLast_concat, begins.length.1,
      begins.length.2, begins.letters, and_self, if_true]

end Prefixes

/-! ## Tables -/

/-- The name of a table as it is written. Its letters may be written in either case, the mark
included. -/
@[ext]
structure WrittenTableName where
  dbPrefix : List Char
  mark : Char
  body : List Char
  code : List Char
  isPrefix : IsPrefix dbPrefix
  isMark : foldCase mark = 't'
  nonempty : body ≠ []
  allWord : body.all isWord = true
  codeLength : code.length = 3
  codeChars : code.all isCodeFolded = true

namespace WrittenTableName

def render (n : WrittenTableName) : List Char :=
  n.dbPrefix ++ n.mark :: '_' :: (n.body ++ '_' :: n.code)

def parts (n : WrittenTableName) : TableName :=
  ⟨String.ofList n.dbPrefix, String.ofList (camelCase n.body), String.ofList n.code⟩

theorem prefixed?_render (n : WrittenTableName) :
    prefixed? 't' n.render = some (n.dbPrefix, n.body ++ '_' :: n.code) :=
  (prefixed?_eq_some_iff (by decide)).2 ⟨n.isPrefix, n.mark, n.isMark, rfl⟩

theorem ofText?_render (n : WrittenTableName) : TableName.ofText? n.render = some n.parts := by
  have cut : (n.body ++ '_' :: n.code).length - 4 = n.body.length := by
    rw [List.length_append, List.length_cons, n.codeLength, Nat.add_sub_cancel]
  have isBody : n.body.isEmpty = false := List.isEmpty_eq_false_iff.2 n.nonempty
  simp only [TableName.ofText?, n.prefixed?_render, Option.bind_eq_bind, Option.bind_some, cut,
    List.take_left, List.drop_left, isBody, n.allWord, List.head?_cons, List.tail_cons, n.codeChars]
  rfl

/-- A name is written in one way: the prefix ends in front of the mark of the first underscore, and
the code has three characters. -/
theorem render_injective : Function.Injective render := by
  intro n other h
  have same : some (n.dbPrefix, n.body ++ '_' :: n.code) =
      some (other.dbPrefix, other.body ++ '_' :: other.code) := by
    rw [← n.prefixed?_render, ← other.prefixed?_render, h]
  rw [Option.some.injEq, Prod.mk.injEq] at same
  obtain ⟨hfront, hrest⟩ := same
  have codes : ('_' :: n.code).length = ('_' :: other.code).length := by
    rw [List.length_cons, List.length_cons, n.codeLength, other.codeLength]
  obtain ⟨hbody, hcode⟩ := List.append_inj' hrest codes
  have hmark : n.mark = other.mark := by
    rw [render, render, hfront, List.append_cancel_left_eq] at h
    exact (List.cons.inj h).1
  exact WrittenTableName.ext hfront hmark hbody (List.cons.inj hcode).2

end WrittenTableName

namespace TableName

variable {name : List Char} {parts : TableName}

theorem exists_of_ofText? (h : ofText? name = some parts) :
    ∃ n : WrittenTableName, n.render = name := by
  simp only [ofText?, Option.bind_eq_bind, Option.bind_eq_some_iff] at h
  obtain ⟨⟨dbPrefix, rest⟩, hprefixed, h⟩ := h
  obtain ⟨isPrefix, mark, isMark, rfl⟩ := (prefixed?_eq_some_iff (by decide)).1 hprefixed
  dsimp only at h
  split at h
  · cases h
  next conditions =>
    simp only [Bool.or_eq_true, Bool.not_eq_true', bne_iff_ne, ne_eq, not_or, Bool.not_eq_false,
      Classical.not_not, List.isEmpty_iff] at conditions
    obtain ⟨⟨⟨nonempty, allWord⟩, underscore⟩, codeChars⟩ := conditions
    obtain ⟨code, hcode⟩ := List.head?_eq_some_iff.1 underscore
    have long : 4 < rest.length := by
      by_contra short
      rw [Nat.sub_eq_zero_of_le (Nat.le_of_not_lt short)] at nonempty
      exact nonempty List.take_zero
    have codeLength : code.length = 3 := by
      have length := congrArg List.length hcode
      rw [List.length_drop, List.length_cons] at length
      omega
    rw [hcode, List.tail_cons] at codeChars
    refine ⟨⟨dbPrefix, mark, rest.take (rest.length - 4), code, isPrefix, isMark, nonempty, allWord,
      codeLength, codeChars⟩, ?_⟩
    rw [WrittenTableName.render, ← hcode, List.take_append_drop]

/-- **Table names by the convention.** A text is read as a table name if and only if it is a prefix of
two to four letters with its mark, a body of word characters and a code of three letters or digits,
with underscores between them. It is so in one way only, and the parts that are read are the prefix,
the body in camel case and the code. -/
theorem ofText?_exact (name : List Char) :
    ((ofText? name).isSome = true ↔ ∃ n : WrittenTableName, n.render = name) ∧
      ∀ n : WrittenTableName, n.render = name →
        ofText? name = some n.parts ∧ ∀ other : WrittenTableName, other.render = name → other = n := by
  refine ⟨⟨fun h => ?_, ?_⟩, ?_⟩
  · obtain ⟨parts, hparts⟩ := Option.isSome_iff_exists.1 h
    exact exists_of_ofText? hparts
  · rintro ⟨n, rfl⟩
    rw [n.ofText?_render]
    rfl
  · rintro n rfl
    exact ⟨n.ofText?_render, fun other hother => WrittenTableName.render_injective hother⟩

/-- A name whose body begins with a mark and ends with a code. -/
def markedBody : WrittenTableName where
  dbPrefix := "aBc".toList
  mark := 'T'
  body := "abct_user_usr".toList
  code := "o2R".toList
  isPrefix := ⟨by decide, by decide⟩
  isMark := by decide
  nonempty := by decide
  allWord := by decide
  codeLength := rfl
  codeChars := by decide

theorem ofText?_exact_marked_body :
    let name := "aBcT_abct_user_usr_o2R".toList
    markedBody.render = name ∧ ofText? name = some ⟨"aBc", "abctUserUsr", "o2R"⟩ ∧
      ∀ other : WrittenTableName, other.render = name → other = markedBody := by
  intro name
  have written : markedBody.render = name := by decide
  have parts : markedBody.parts = ⟨"aBc", "abctUserUsr", "o2R"⟩ := by decide +kernel
  obtain ⟨read, unique⟩ := (ofText?_exact name).2 markedBody written
  exact ⟨written, parts ▸ read, unique⟩

end TableName

end ReleaseSchema.Ddl
