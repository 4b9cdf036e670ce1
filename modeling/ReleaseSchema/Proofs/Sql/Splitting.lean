/-
What cutting a list makes of any text. A text is taken apart at the commas that
end items, so nothing but commas and blanks is lost (`content_splitList`), and
every piece is a text in which no comma ends an item, without the blanks around
it (`exists_of_mem_splitList`). Such a piece is not cut again
(`splitList_of_keepsWhole`), and blanks around the items of a list make no
difference (`IsItem.padded`).
-/
import ReleaseSchema.Proofs.Sql.Items

namespace ReleaseSchema.Sql

open Text

/-! ## Blanks -/

namespace Nesting

variable {s : Nesting}

theorem keepsWhole_append {a b : List Char} :
    s.KeepsWhole (a ++ b) ↔ s.KeepsWhole a ∧ (s.after a).KeepsWhole b := by
  induction a generalizing s with
  | nil => exact ⟨fun h => ⟨trivial, h⟩, fun h => h.2⟩
  | cons c a ih =>
    simp only [List.cons_append, KeepsWhole, after_cons, ih]
    exact and_assoc.symm

theorem ne_of_isBlank {c mark : Char} (h : isBlank c = true) (hmark : isBlank mark = false) :
    c ≠ mark := by
  rintro rfl
  rw [h] at hmark
  cases hmark

theorem step_blank (hs : s.isQuoted = false) {c : Char} (h : isBlank c = true) :
    s.step c = ⟨s.depth, .code⟩ := by
  have code : s.stepCode c = ⟨s.depth, .code⟩ := by
    simp only [stepCode, ne_of_isBlank h (show isBlank '/' = false by decide),
      ne_of_isBlank h (show isBlank '\'' = false by decide),
      ne_of_isBlank h (show isBlank '"' = false by decide),
      ne_of_isBlank h (show isBlank '(' = false by decide),
      ne_of_isBlank h (show isBlank ')' = false by decide), if_false]
  have star : c ≠ '*' := ne_of_isBlank h (by decide)
  obtain ⟨depth, inside⟩ := s
  cases inside with
  | code => exact code
  | slash => exact (if_neg star).trans code
  | single | double | comment | star => cases hs

theorem after_blanks_start {blanks : List Char} (h : ∀ c ∈ blanks, isBlank c = true) :
    after {} blanks = {} := by
  induction blanks with
  | nil => rfl
  | cons c blanks ih =>
    rw [after_cons, step_blank rfl (h c List.mem_cons_self)]
    exact ih fun other hother => h other (List.mem_cons_of_mem _ hother)

theorem isTop_after_blanks (hs : s.isTop = true) {blanks : List Char}
    (h : ∀ c ∈ blanks, isBlank c = true) : (s.after blanks).isTop = true := by
  induction blanks generalizing s with
  | nil => exact hs
  | cons c blanks ih =>
    simp only [isTop, Bool.and_eq_true, decide_eq_true_eq, Bool.not_eq_true'] at hs
    rw [after_cons, step_blank hs.2 (h c List.mem_cons_self)]
    refine ih ?_ fun other hother => h other (List.mem_cons_of_mem _ hother)
    simpa [isTop, isQuoted] using hs.1

theorem keepsWhole_blanks {blanks : List Char} (h : ∀ c ∈ blanks, isBlank c = true) :
    s.KeepsWhole blanks := by
  induction blanks generalizing s with
  | nil => trivial
  | cons c blanks ih =>
    have noComma : c ≠ ',' := ne_of_isBlank (h c List.mem_cons_self) (by decide)
    exact ⟨fun comma => noComma comma.1,
      ih fun other hother => h other (List.mem_cons_of_mem _ hother)⟩

end Nesting

open Nesting

theorem IsItem.padded {item lead trail : List Char} (h : IsItem item)
    (hlead : ∀ c ∈ lead, isBlank c = true) (htrail : ∀ c ∈ trail, isBlank c = true) :
    IsItem (lead ++ (item ++ trail)) := by
  refine ⟨?_, ?_, ?_⟩
  · rw [trim_padded hlead htrail]
    exact h.notBlank
  · rw [keepsWhole_append, keepsWhole_append, after_blanks_start hlead]
    exact ⟨keepsWhole_blanks hlead, h.whole, keepsWhole_blanks htrail⟩
  · rw [after_append, after_blanks_start hlead, after_append]
    exact isTop_after_blanks h.closed htrail

theorem splitList_of_keepsWhole {text : List Char} (h : KeepsWhole {} text) :
    splitList text = itemOf text.reverse := by
  calc splitList text = splitListFrom {} [] (text ++ []) := by rw [List.append_nil, splitList]
    _ = splitListFrom (after {} text) (text.reverse ++ []) [] := splitListFrom_append h
    _ = itemOf text.reverse := by rw [List.append_nil, splitListFrom]

/-! ## What a list is cut into -/

/-- A text without its commas and its blanks. -/
def content (text : List Char) : List Char := text.filter fun c => c ≠ ',' && !isBlank c

theorem content_append (a b : List Char) : content (a ++ b) = content a ++ content b :=
  List.filter_append ..

theorem content_blanks {blanks : List Char} (h : ∀ c ∈ blanks, isBlank c = true) :
    content blanks = [] := by
  rw [content, List.filter_eq_nil_iff]
  intro c hc
  simp [h c hc]

theorem content_trim (text : List Char) : content (trim text) = content text := by
  obtain ⟨lead, trail, hparts, hlead, htrail⟩ := exists_trim text
  have parts : content text = content lead ++ (content (trim text) ++ content trail) := by
    rw [← content_append, ← content_append, ← hparts]
  rw [parts, content_blanks hlead, content_blanks htrail, List.nil_append, List.append_nil]

theorem content_itemOf (item : List Char) : content (itemOf item).flatten = content item.reverse := by
  rw [itemOf, ← content_trim item.reverse]
  split
  next hblank => rw [List.isEmpty_iff.1 hblank, List.flatten_nil]
  next => rw [List.flatten_singleton]

theorem content_splitListFrom (s : Nesting) (item text : List Char) :
    content (splitListFrom s item text).flatten = content item.reverse ++ content text := by
  fun_induction splitListFrom s item text with
  | case1 s item => rw [content_itemOf, content, content, List.filter_nil, List.append_nil]
  | case2 s item c rest ends ih =>
    have comma : content (c :: rest) = content rest := by simp [content, ends.1]
    rw [List.flatten_append, content_append, content_itemOf, ih, comma]
    rfl
  | case3 s item c rest goesOn ih =>
    rw [ih, List.reverse_cons, content_append, List.append_assoc, ← content_append]
    rfl

theorem content_splitList (text : List Char) : content (splitList text).flatten = content text :=
  content_splitListFrom {} [] text

theorem mem_itemOf {item found : List Char} (h : found ∈ itemOf item) :
    found = trim item.reverse ∧ found ≠ [] := by
  rw [itemOf] at h
  split at h
  · cases h
  next hne =>
    rw [List.mem_singleton] at h
    exact ⟨h, fun hnone => hne (by rw [← h, hnone]; rfl)⟩

theorem exists_of_mem_splitListFrom {s : Nesting} {item text found : List Char}
    (hs : s = after {} item.reverse) (whole : KeepsWhole {} item.reverse)
    (h : found ∈ splitListFrom s item text) :
    ∃ piece, KeepsWhole {} piece ∧ found = trim piece ∧ found ≠ [] := by
  fun_induction splitListFrom s item text with
  | case1 s item => exact ⟨item.reverse, whole, mem_itemOf h⟩
  | case2 s item c rest ends ih =>
    rcases List.mem_append.1 h with h | h
    · exact ⟨item.reverse, whole, mem_itemOf h⟩
    · exact ih rfl trivial h
  | case3 s item c rest goesOn ih =>
    refine ih ?_ ?_ h
    · rw [List.reverse_cons, after_append, ← hs]
      rfl
    · rw [List.reverse_cons, keepsWhole_append, ← hs]
      exact ⟨whole, goesOn, trivial⟩

/-- What a list is cut into: a text that no comma cuts, without the blanks around it. -/
theorem exists_of_mem_splitList {text found : List Char} (h : found ∈ splitList text) :
    ∃ piece, KeepsWhole {} piece ∧ found = trim piece ∧ found ≠ [] :=
  @exists_of_mem_splitListFrom {} [] text found rfl trivial h

/-- A text that no comma cuts is cut by none when the blanks around it are gone. -/
theorem keepsWhole_trim {text : List Char} (h : KeepsWhole {} text) : KeepsWhole {} (trim text) := by
  obtain ⟨lead, trail, hparts, hlead, -⟩ := exists_trim text
  rw [hparts, keepsWhole_append, keepsWhole_append, after_blanks_start hlead] at h
  exact h.2.1

theorem splitList_of_mem {text found : List Char} (h : found ∈ splitList text) :
    splitList found = [found] := by
  obtain ⟨piece, whole, rfl, hne⟩ := exists_of_mem_splitList h
  rw [splitList_of_keepsWhole (keepsWhole_trim whole),
    itemOf_reverse (by rwa [trim_trim]), trim_trim]

/-! ## Lists as they are written -/

/-- An item of a list with the blanks written around it. -/
structure WrittenItem where
  lead : List Char := []
  item : List Char
  trail : List Char := []
  deriving DecidableEq

namespace WrittenItem

def render (w : WrittenItem) : List Char := w.lead ++ (w.item ++ w.trail)

/-- An item that is not blank and has no blanks of its own at its ends, with blanks around it. -/
structure IsPlain (w : WrittenItem) : Prop where
  isItem : IsItem w.item
  trimmed : trim w.item = w.item
  lead : ∀ c ∈ w.lead, isBlank c = true
  trail : ∀ c ∈ w.trail, isBlank c = true

theorem isPlain_iff {w : WrittenItem} :
    w.IsPlain ↔ IsItem w.item ∧ trim w.item = w.item ∧ w.lead.all isBlank = true ∧
      w.trail.all isBlank = true := by
  rw [List.all_eq_true, List.all_eq_true]
  exact ⟨fun h => ⟨h.isItem, h.trimmed, h.lead, h.trail⟩, fun h => ⟨h.1, h.2.1, h.2.2.1, h.2.2.2⟩⟩

instance (w : WrittenItem) : Decidable w.IsPlain := decidable_of_iff _ isPlain_iff.symm

theorem IsPlain.trim_render {w : WrittenItem} (h : w.IsPlain) : trim w.render = w.item := by
  rw [render, trim_padded h.lead h.trail, h.trimmed]

end WrittenItem

/-- **Cutting lists.** A list of items that are settled and have no comma to end them in the middle is
cut into exactly these items, whatever blanks are written around them. And of any text, however it
is nested, the commas and blanks between items are all that is lost, and each item that is found is
found again in itself, alone. -/
theorem splitList_exact :
    (∀ items : List WrittenItem, (∀ w ∈ items, w.IsPlain) →
      splitList ([','].intercalate (items.map WrittenItem.render)) =
        items.map WrittenItem.item) ∧
    (∀ text, content (splitList text).flatten = content text) ∧
    (∀ text, ∀ item ∈ splitList text, splitList item = [item]) := by
  refine ⟨fun items h => ?_, content_splitList, fun text item hitem => splitList_of_mem hitem⟩
  have padded : ∀ text ∈ items.map WrittenItem.render, IsItem text := by
    intro text htext
    obtain ⟨w, hw, rfl⟩ := List.mem_map.1 htext
    exact (h w hw).isItem.padded (h w hw).lead (h w hw).trail
  rw [splitList_intercalate padded, List.map_map]
  exact List.map_congr_left fun w hw => (h w hw).trim_render

/-- Columns with commas in parentheses, in a literal and in a comment, over several lines. -/
def accountColumns : List WrittenItem :=
  [{ item := "a numeric(10, 2)".toList, trail := "  ".toList },
    { lead := "\n  ".toList, item := "b text default ','".toList },
    { lead := " ".toList, item := "c text /* #roles=['x','y'] */".toList, trail := "\n".toList }]

theorem splitList_exact_account :
    let text := [','].intercalate (accountColumns.map WrittenItem.render)
    (∀ w ∈ accountColumns, w.IsPlain) ∧
      splitList text = accountColumns.map WrittenItem.item ∧
      content (accountColumns.map WrittenItem.item).flatten = content text ∧
      ∀ w ∈ accountColumns, splitList w.item = [w.item] := by
  intro text
  have plain : ∀ w ∈ accountColumns, w.IsPlain := by decide +kernel
  obtain ⟨written, kept, again⟩ := splitList_exact
  have cut : splitList text = accountColumns.map WrittenItem.item := written accountColumns plain
  refine ⟨plain, cut, cut ▸ kept text, fun w hw => again text w.item ?_⟩
  rw [cut]
  exact List.mem_map_of_mem hw

end ReleaseSchema.Sql
