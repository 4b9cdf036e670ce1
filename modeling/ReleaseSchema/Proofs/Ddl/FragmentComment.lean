/-
Comments in the fragments that lists are cut into. Columns and arguments are read from
a fragment as it is with a space for each comment (`column?_congr`, `argument?_congr`).
Lists are cut by a nesting that finds no comments in literals; the readers look for
marks alone. So they discard what the nesting takes for comments if and only if no
literal of the fragment hides one (`comments_of_fragment`); a literal that does can take
the clauses behind it along (`column?_of_hidden_comment`).
-/
import ReleaseSchema.Ddl.Routine
import ReleaseSchema.Proofs.Sql.CommentStretch

namespace ReleaseSchema

/-- What a column has that does not come from its tags. -/
def Column.untagged (c : Column) : Column :=
  { c with
    camelName := "", tags := .empty, isListFilter := false, listFilterName := none, sort := false
    getWithParent := false }

namespace Ddl

open Text

section Fragments

variable {fragment other : List Char}

theorem argument?_congr (h : Sql.withoutComments fragment = Sql.withoutComments other) :
    argument? fragment = argument? other := by
  unfold argument?
  rw [h]

theorem column?_congr (h : Sql.withoutComments fragment = Sql.withoutComments other)
    (suffix : String) :
    (column? fragment suffix).map Column.untagged = (column? other suffix).map Column.untagged := by
  unfold column?
  rw [h]
  dsimp only
  split <;> rfl

/-- Two fragments from which arguments are read alike, and columns but for their tags. -/
structure ReadAlike (fragment other : List Char) : Prop where
  argument : argument? fragment = argument? other
  column : ∀ suffix,
    (column? fragment suffix).map Column.untagged = (column? other suffix).map Column.untagged

/-- **Comments that are discarded.** Arguments and columns are read from a fragment as from the text
that is left when a space is written for each of the comments that are blanked, and no comment is left
in it. Where a fragment ends outside comments, as every nested one does, these are the comments that
the nesting finds if and only if no literal of the fragment holds an opening mark with a closing mark
anywhere behind it. -/
theorem comments_of_fragment (closed : (Sql.Nesting.after {} fragment).isComment = false) :
    let discarded := Sql.blankedStretches fragment
    (discarded.map (·.text)).flatten = fragment ∧
      Sql.blanked discarded = Sql.blankComments fragment ∧
      ¬Sql.HoldsComment (Sql.blanked discarded) ∧ ReadAlike fragment (Sql.blanked discarded) ∧
      (discarded = Sql.stretches fragment ↔ Sql.Nesting.HidesNoComment {} fragment) := by
  have blanked := Sql.blanked_blankedStretches fragment
  have none := Sql.not_holdsComment_blankComments fragment
  have alike : Sql.withoutComments fragment = Sql.withoutComments (Sql.blankComments fragment) := by
    rw [Sql.withoutComments, Sql.withoutComments, Sql.blankComments_of_not_holds none]
  refine ⟨Sql.flatten_blankedStretches fragment, blanked, ?_, ?_, Sql.blankedStretches_eq_iff closed⟩
  · rwa [blanked]
  · rw [blanked]
    exact ⟨argument?_congr alike, column?_congr alike⟩

/-- A comment with a quote in it, and half comments in the literal behind it. -/
def noteFragment : List Char := "usr_note text /* it's #sort */ default '*/ \"/*' not null".toList

theorem comments_of_fragment_note :
    noteFragment ∈ Sql.splitList ("usr_id int, ".toList ++ noteFragment) ∧ Sql.IsNested noteFragment ∧
      Sql.Nesting.HidesNoComment {} noteFragment ∧
      Sql.blankedStretches noteFragment = Sql.stretches noteFragment ∧
      Sql.comments noteFragment = [" it's #sort */".toList] ∧
      ReadAlike noteFragment "usr_note text   default '*/ \"/*' not null".toList := by
  have nested : Sql.IsNested noteFragment := by decide +kernel
  have hides : Sql.Nesting.HidesNoComment {} noteFragment := by decide +kernel
  obtain ⟨-, -, -, alike, same⟩ := comments_of_fragment nested.isComment_after
  have left : Sql.blanked (Sql.blankedStretches noteFragment) =
      "usr_note text   default '*/ \"/*' not null".toList := by
    decide +kernel
  rw [left] at alike
  exact ⟨by decide +kernel, nested, hides, same.2 hides, by decide +kernel, alike⟩

/-- A literal with an opening mark in front of a comment: the readers take the comment to begin in the
literal, and the clause between them is gone. -/
theorem column?_of_hidden_comment :
    let fragment := "usr_glob text default '/*' not null /* #sort */".toList
    fragment ∈ Sql.splitList ("usr_id int, ".toList ++ fragment) ∧ Sql.IsNested fragment ∧
      Sql.comments fragment = [" #sort */".toList] ∧
      ((Sql.blankedStretches fragment).filter (·.inComment)).map (·.text) =
        ["' not null /* #sort */".toList] ∧
      (column? fragment "usr").map (fun c => (c.notNull, c.defaultText)) = some (false, some "'") := by
  decide +kernel

end Fragments

end Ddl

end ReleaseSchema
