/-
The tags of a column. They are looked for in the whole fragment, so they are the
tags of its comments alone when nothing outside the comments reads as a tag and no
value goes on behind the end of its comment (`column?_tags_of_comments`). A number
sign in a literal does read as a tag (`column?_of_number_sign`).
-/
import Mathlib.Data.List.Flatten
import ReleaseSchema.Proofs.Ddl.ColumnDefinition
import ReleaseSchema.Proofs.Sql.Stretch

namespace ReleaseSchema

/-- Tags by name; of several with one name the last. -/
def Tag.byName (tags : List Tag) : TagMap := SortedMap.ofList (tags.map fun tag => (tag.name, tag))

namespace Ddl

open WrittenColumn

/-- A part of a list gives the same as the whole when the rest gives nothing. -/
theorem flatMap_filter_eq_iff {f : α → List β} {p : α → Bool} {l : List α} :
    l.flatMap f = (l.filter p).flatMap f ↔ ∀ a ∈ l.filter (!p ·), f a = [] := by
  induction l with
  | nil => simp
  | cons a l ih =>
    cases ha : p a with
    | true => simp [ha, ih]
    | false =>
      simp only [List.filter_cons, ha, Bool.false_eq_true, if_false, Bool.not_false, if_true,
        List.flatMap_cons, List.forall_mem_cons, ← ih]
      constructor
      · intro heq
        have same := congrArg List.length heq
        rw [List.length_append] at same
        have fewer : ((l.filter p).flatMap f).length ≤ (l.flatMap f).length :=
          (List.filter_sublist.flatMap f).length_le
        have none : f a = [] := List.eq_nil_of_length_eq_zero (by omega)
        rw [none, List.nil_append] at heq
        exact ⟨none, heq⟩
      · rintro ⟨none, heq⟩
        rw [none, List.nil_append, heq]

/-- **The tags of a column.** Where no value goes on over the end of a comment, a column has the tags
of all stretches of its fragment, and of two with one name the later. They are the tags of the comments
alone, in their order, if and only if nothing outside the comments reads as a tag. What the column
takes from its tags follows from them. -/
theorem column?_tags_of_comments {fragment : List Char} {suffix : String} {column : Column}
    (h : column? fragment suffix = some column)
    (within : Tag.EachStaysWithin ((Sql.stretches fragment).map (·.text))) :
    column.tags = Tag.byName ((Sql.stretches fragment).flatMap fun part => Tag.scan part.text) ∧
      (Tag.scan fragment = (Sql.comments fragment).flatMap Tag.scan ↔
        ∀ code ∈ Sql.codes fragment, Tag.scan code = []) ∧
      ((∀ code ∈ Sql.codes fragment, Tag.scan code = []) →
        column.tags = Tag.byName ((Sql.comments fragment).flatMap Tag.scan)) ∧
      Derives suffix column := by
  obtain ⟨derives, tags⟩ := derives_of_column? h
  have read := Sql.scan_eq within
  have whole : column.tags = Tag.byName (Tag.scan fragment) := tags
  have alone : Tag.scan fragment = (Sql.comments fragment).flatMap Tag.scan ↔
      ∀ code ∈ Sql.codes fragment, Tag.scan code = [] := by
    rw [read, Sql.comments, Sql.codes, List.flatMap_map, List.forall_mem_map]
    exact flatMap_filter_eq_iff
  refine ⟨read ▸ whole, alone, fun outside => ?_, derives⟩
  rw [whole, alone.2 outside]

/-- Two comments, behind a literal with half a comment mark and in front of a clause. -/
def emailFragment : List Char :=
  "usr_email text default '/' /* #list-filter=byEmail */ not null /* #sort #roles=['a', 'b'] */".toList

theorem column?_tags_of_comments_email :
    ∃ column, column? emailFragment "usr" = some column ∧
      Tag.EachStaysWithin ((Sql.stretches emailFragment).map (·.text)) ∧
      (∀ code ∈ Sql.codes emailFragment, Tag.scan code = []) ∧
      column.tags = Tag.byName ((Sql.comments emailFragment).flatMap Tag.scan) ∧
      (column.tags.keys, column.listFilterName, column.sort) =
        (["list-filter", "roles", "sort"], some "byEmail", true) := by
  have read : (column? emailFragment "usr").isSome = true := by decide +kernel
  obtain ⟨column, hcolumn⟩ := Option.isSome_iff_exists.1 read
  have within : Tag.EachStaysWithin ((Sql.stretches emailFragment).map (·.text)) := by decide +kernel
  have outside : ∀ code ∈ Sql.codes emailFragment, Tag.scan code = [] := by decide +kernel
  obtain ⟨-, -, tags, -⟩ := column?_tags_of_comments hcolumn within
  refine ⟨column, hcolumn, within, outside, tags outside, ?_⟩
  have found : (column? emailFragment "usr").map (fun c => (c.tags.keys, c.listFilterName, c.sort)) =
      some (["list-filter", "roles", "sort"], some "byEmail", true) := by
    decide +kernel
  rw [hcolumn] at found
  exact Option.some.inj found

/-- A literal is read as a tag where there is no comment. -/
theorem column?_of_number_sign :
    Sql.comments "usr_code text default '#sort'".toList = [] ∧
      (column? "usr_code text default '#sort'".toList "usr").map (fun c => (c.tags.keys, c.sort)) =
        some (["sort"], true) := by
  decide +kernel

end Ddl

end ReleaseSchema
