/-
Lists of well-nested items. Items written with commas between them are found
again by cutting at the commas outside parentheses, quotes and comments
(`splitList_intercalate`), and the list in parentheses is found again by
looking for the parenthesis that closes it (`enclosed?_intercalate`).

Both readers carry the nesting along, so the lemmas say what a text leaves
behind of it: after a nested item and a comma the nesting is the one at the
start, and inside parentheses it is the same one level down (`raised`).
-/
import ReleaseSchema.Proofs.Text.Trim
import ReleaseSchema.Sql.Nesting

namespace ReleaseSchema.Sql

open Text

namespace Nesting

/-- At depth zero, outside quotes and comments. -/
def IsSettled (s : Nesting) : Prop := s.depth = 0 ∧ s.isQuoted = false

instance (s : Nesting) : Decidable s.IsSettled := inferInstanceAs (Decidable (_ ∧ _))

/-- From `s` on, the depth is not negative at any place of the text. -/
def StaysInside (s : Nesting) : List Char → Prop
  | [] => 0 ≤ s.depth
  | c :: rest => 0 ≤ s.depth ∧ StaysInside (s.step c) rest

/-- From `s` on, no comma of the text ends an item. -/
def KeepsWhole (s : Nesting) : List Char → Prop
  | [] => True
  | c :: rest => ¬(c = ',' ∧ s.isTop = true) ∧ KeepsWhole (s.step c) rest

instance decidableStaysInside : ∀ (s : Nesting) (text : List Char), Decidable (s.StaysInside text)
  | s, [] => inferInstanceAs (Decidable (0 ≤ s.depth))
  | s, c :: rest =>
    have := decidableStaysInside (s.step c) rest
    inferInstanceAs (Decidable (0 ≤ s.depth ∧ StaysInside (s.step c) rest))

instance decidableKeepsWhole : ∀ (s : Nesting) (text : List Char), Decidable (s.KeepsWhole text)
  | _, [] => inferInstanceAs (Decidable True)
  | s, c :: rest =>
    have := decidableKeepsWhole (s.step c) rest
    inferInstanceAs (Decidable (¬(c = ',' ∧ s.isTop = true) ∧ KeepsWhole (s.step c) rest))

/-! ## Steps -/

theorem StaysInside.depth_nonneg {s : Nesting} {text : List Char} (h : s.StaysInside text) :
    0 ≤ s.depth := by
  cases text with
  | nil => exact h
  | cons c rest => exact h.1

theorem staysInside_append {s : Nesting} {a b : List Char} :
    s.StaysInside (a ++ b) ↔ s.StaysInside a ∧ (s.after a).StaysInside b := by
  induction a generalizing s with
  | nil => exact ⟨fun h => ⟨h.depth_nonneg, h⟩, fun h => h.2⟩
  | cons c a ih =>
    simp only [List.cons_append, StaysInside, after_cons, ih]
    exact and_assoc.symm

theorem step_comma {s : Nesting} (h : s.isQuoted = false) : s.step ',' = ⟨s.depth, .code⟩ := by
  obtain ⟨depth, inside⟩ := s
  cases inside <;> first | rfl | simp [isQuoted] at h

theorem IsSettled.step_comma {s : Nesting} (h : s.IsSettled) : s.step ',' = {} := by
  rw [Nesting.step_comma h.2, h.1]

theorem IsSettled.isTop {s : Nesting} (h : s.IsSettled) : s.isTop = true := by
  simp [Nesting.isTop, h.1, h.2]

theorem step_close {s : Nesting} (h : s.isQuoted = false) :
    s.step ')' = ⟨s.depth - 1, .code⟩ := by
  obtain ⟨depth, inside⟩ := s
  cases inside <;> first | rfl | simp [isQuoted] at h

/-! ## One level down -/

/-- The same place inside one more pair of parentheses. -/
def raised (s : Nesting) : Nesting := ⟨s.depth + 1, s.inside⟩

theorem raised_depth (s : Nesting) : s.raised.depth = s.depth + 1 := rfl

theorem stepCode_raised (s : Nesting) (c : Char) : s.raised.stepCode c = (s.stepCode c).raised := by
  simp only [stepCode, raised]
  split
  · rfl
  split
  · rfl
  split
  · rfl
  split
  · rfl
  split
  · simp only [mk.injEq, and_true]
    omega
  · rfl

theorem step_raised (s : Nesting) (c : Char) : s.raised.step c = (s.step c).raised := by
  obtain ⟨depth, inside⟩ := s
  cases inside with
  | code => exact stepCode_raised _ _
  | slash =>
    simp only [step, raised]
    split
    · rfl
    · exact stepCode_raised ⟨depth, .slash⟩ _
  | single | double | comment =>
    simp only [step, raised]
    split <;> rfl
  | star =>
    simp only [step, raised]
    split
    · rfl
    · split <;> rfl

end Nesting

open Nesting

/-! ## Items -/

/-- A text in which every parenthesis that is opened is closed and no other is, and that ends
outside quotes and comments. -/
structure IsNested (text : List Char) : Prop where
  inside : StaysInside {} text
  settled : (after {} text).IsSettled

/-- A text that a list of items holds as one item. -/
structure IsItem (text : List Char) : Prop where
  notBlank : trim text ≠ []
  whole : KeepsWhole {} text
  closed : (after {} text).isTop = true

instance (text : List Char) : Decidable (IsNested text) :=
  decidable_of_iff (StaysInside {} text ∧ (after {} text).IsSettled)
    ⟨fun h => ⟨h.1, h.2⟩, fun h => ⟨h.inside, h.settled⟩⟩

instance (text : List Char) : Decidable (IsItem text) :=
  decidable_of_iff (trim text ≠ [] ∧ KeepsWhole {} text ∧ (after {} text).isTop = true)
    ⟨fun h => ⟨h.1, h.2.1, h.2.2⟩, fun h => ⟨h.notBlank, h.whole, h.closed⟩⟩

theorem IsNested.nil : IsNested [] := ⟨Int.le_refl 0, rfl, rfl⟩

theorem IsNested.comma {a b : List Char} (ha : IsNested a) (hb : IsNested b) :
    IsNested (a ++ ',' :: b) := by
  have start : ((after {} a).step ',') = {} := ha.settled.step_comma
  constructor
  · rw [staysInside_append]
    refine ⟨ha.inside, ?_⟩
    simp only [StaysInside, start]
    exact ⟨Int.le_of_eq ha.settled.1.symm, hb.inside⟩
  · rw [after_append, after_cons, start]
    exact hb.settled

theorem IsNested.intercalate {items : List (List Char)} (h : ∀ item ∈ items, IsNested item) :
    IsNested ([','].intercalate items) := by
  induction items with
  | nil => exact .nil
  | cons item items ih =>
    have first := h item List.mem_cons_self
    have others := ih fun other hother => h other (List.mem_cons_of_mem _ hother)
    cases items with
    | nil => simpa [List.intercalate] using first
    | cons next items =>
      have := first.comma others
      simpa [List.intercalate] using this

/-! ## Cutting at commas -/

/-- A text in which no comma ends an item is taken into the item under way. -/
theorem splitListFrom_append {s : Nesting} {item text rest : List Char} (h : s.KeepsWhole text) :
    splitListFrom s item (text ++ rest) =
      splitListFrom (s.after text) (text.reverse ++ item) rest := by
  induction text generalizing s item with
  | nil => rfl
  | cons c text ih =>
    rw [List.cons_append, splitListFrom, if_neg h.1, ih h.2]
    simp

theorem itemOf_reverse {item : List Char} (h : trim item ≠ []) :
    itemOf item.reverse = [trim item] := by
  simp [itemOf, h]

/-- A list gives its items back, without the blanks around them. -/
theorem splitList_intercalate {items : List (List Char)} (h : ∀ item ∈ items, IsItem item) :
    splitList ([','].intercalate items) = items.map trim := by
  unfold splitList
  induction items with
  | nil => rfl
  | cons item items ih =>
    have first := h item List.mem_cons_self
    have others := ih fun other hother => h other (List.mem_cons_of_mem _ hother)
    cases items with
    | nil =>
      have written : [','].intercalate [item] = item ++ [] := by simp [List.intercalate]
      rw [written, splitListFrom_append first.whole, List.append_nil, splitListFrom,
        itemOf_reverse first.notBlank]
      rfl
    | cons next items =>
      have written : [','].intercalate (item :: next :: items) =
          item ++ ',' :: [','].intercalate (next :: items) := by
        simp [List.intercalate]
      rw [written, splitListFrom_append first.whole, List.append_nil, splitListFrom,
        if_pos ⟨rfl, first.closed⟩, itemOf_reverse first.notBlank, others]
      rfl

/-! ## The closing parenthesis -/

/-- One level down, a nested text is passed and the parenthesis behind it closes. -/
theorem enclosedFrom?_append {s : Nesting} {inner text tail : List Char} (h : s.StaysInside text)
    (closed : (s.after text).IsSettled) :
    enclosedFrom? s.raised inner (text ++ ')' :: tail) = some (inner.reverse ++ text, tail) := by
  induction text generalizing s inner with
  | nil =>
    rw [after_nil] at closed
    have next : s.raised.step ')' = ⟨s.depth, .code⟩ := by
      rw [step_close (s := s.raised) closed.2, raised_depth, Int.add_sub_cancel]
    have hdepth : s.depth = 0 := closed.1
    rw [List.nil_append, enclosedFrom?, next, hdepth]
    simp [isQuoted]
  | cons c text ih =>
    have hdepth : 0 ≤ (s.step c).depth := h.2.depth_nonneg
    have notYet : ¬(c = ')' ∧ (s.raised.step c).depth = 0 ∧ ¬(s.raised.step c).isQuoted) := by
      rw [step_raised, raised_depth]
      omega
    rw [List.cons_append, enclosedFrom?, if_neg notYet, step_raised, ih h.2 closed]
    simp

theorem enclosed?_of_isNested {inner : List Char} (h : IsNested inner) (tail : List Char) :
    enclosed? ('(' :: (inner ++ ')' :: tail)) = some (inner, tail) :=
  enclosedFrom?_append h.inside h.settled

/-- A parenthesis that is closed is closed at the same place when more text follows. -/
theorem enclosedFrom?_more {s : Nesting} {inner text list rest : List Char} (more : List Char)
    (h : enclosedFrom? s inner text = some (list, rest)) :
    enclosedFrom? s inner (text ++ more) = some (list, rest ++ more) := by
  fun_induction enclosedFrom? s inner text with
  | case1 => cases h
  | case2 s inner c rest next closes =>
    cases h
    rw [List.cons_append, enclosedFrom?, if_pos closes]
  | case3 s inner c rest next notYet ih => rw [List.cons_append, enclosedFrom?, if_neg notYet, ih h]

theorem enclosed?_more {text list rest : List Char} (more : List Char)
    (h : enclosed? text = some (list, rest)) :
    enclosed? (text ++ more) = some (list, rest ++ more) := by
  unfold enclosed? at h
  split at h
  · exact enclosedFrom?_more more h
  · cases h

/-- A list of nested items in parentheses is found whole, whatever follows it. -/
theorem enclosed?_intercalate {items : List (List Char)} (h : ∀ item ∈ items, IsNested item)
    (tail : List Char) :
    enclosed? ('(' :: ([','].intercalate items ++ ')' :: tail)) =
      some ([','].intercalate items, tail) :=
  enclosed?_of_isNested (IsNested.intercalate h) tail

/-! ## Lists with spaces -/

/-- A list with a comma and a space between its items. -/
def listed (items : List (List Char)) : List Char := ", ".toList.intercalate items

/-- Items of a list whose commas stand alone: every item but the first has the space. -/
def spaced : List (List Char) → List (List Char)
  | [] => []
  | item :: items => item :: items.map (' ' :: ·)

theorem listed_eq (items : List (List Char)) : listed items = [','].intercalate (spaced items) := by
  cases items with
  | nil => rfl
  | cons item items =>
    change ", ".toList.intercalate (item :: items) =
      [','].intercalate (item :: items.map (' ' :: ·))
    induction items generalizing item with
    | nil => simp [List.intercalate]
    | cons next items ih =>
      have written : [','].intercalate ((' ' :: next) :: items.map (' ' :: ·)) =
          ' ' :: [','].intercalate (next :: items.map (' ' :: ·)) := by
        cases items with
        | nil => simp [List.intercalate]
        | cons other items => simp [List.intercalate]
      rw [List.intercalate_cons_cons, ih, List.map_cons, List.intercalate_cons_cons, written]
      simp only [List.append_assoc, List.singleton_append]
      rfl

theorem listed_cons_cons (item next : List Char) (items : List (List Char)) :
    listed (item :: next :: items) = item ++ ',' :: ' ' :: listed (next :: items) := by
  rw [listed, List.intercalate_cons_cons, List.append_assoc]
  rfl

theorem listed_singleton (item : List Char) : listed [item] = item := by
  simp [listed, List.intercalate]

theorem not_mem_listed {c : Char} {items : List (List Char)} (hc : c ∉ ", ".toList)
    (h : ∀ item ∈ items, c ∉ item) : c ∉ listed items := by
  induction items with
  | nil => exact List.not_mem_nil
  | cons item items ih =>
    have others := ih fun other hother => h other (List.mem_cons_of_mem _ hother)
    cases items with
    | nil =>
      rw [listed_singleton]
      exact h item List.mem_cons_self
    | cons next items =>
      have marks : c ≠ ',' ∧ c ≠ ' ' := by simpa using hc
      rw [listed_cons_cons, List.mem_append, List.mem_cons, List.mem_cons]
      rintro (hitem | hcomma | hspace | hrest)
      · exact h item List.mem_cons_self hitem
      · exact marks.1 hcomma
      · exact marks.2 hspace
      · exact others hrest

theorem trim_space (text : List Char) : trim (' ' :: text) = trim text :=
  trim_cons_blank (by decide) text

theorem IsNested.space {text : List Char} (h : IsNested text) : IsNested (' ' :: text) :=
  ⟨⟨Int.le_refl 0, h.inside⟩, h.settled⟩

theorem IsItem.space {text : List Char} (h : IsItem text) : IsItem (' ' :: text) := by
  refine ⟨?_, ⟨by decide, h.whole⟩, h.closed⟩
  rw [trim_space]
  exact h.notBlank

/-- What holds of an item with or without a space holds of the items of a list with spaces. -/
theorem forall_mem_spaced {P : List Char → Prop} {items : List (List Char)}
    (h : ∀ item ∈ items, P item) (space : ∀ item, P item → P (' ' :: item)) :
    ∀ item ∈ spaced items, P item := by
  cases items with
  | nil => exact h
  | cons first items =>
    intro item hitem
    rcases List.mem_cons.1 hitem with rfl | hitem
    · exact h item List.mem_cons_self
    · obtain ⟨other, hother, rfl⟩ := List.mem_map.1 hitem
      exact space other (h other (List.mem_cons_of_mem _ hother))

theorem splitList_listed {items : List (List Char)} (h : ∀ item ∈ items, IsItem item) :
    splitList (listed items) = items.map trim := by
  rw [listed_eq, splitList_intercalate (forall_mem_spaced h fun _ => IsItem.space)]
  cases items with
  | nil => rfl
  | cons item items => simp [spaced, trim_space]

theorem enclosed?_listed {items : List (List Char)} (h : ∀ item ∈ items, IsNested item)
    (tail : List Char) :
    enclosed? ('(' :: (listed items ++ ')' :: tail)) = some (listed items, tail) := by
  rw [listed_eq]
  exact enclosed?_intercalate (forall_mem_spaced h fun _ => IsNested.space) tail

end ReleaseSchema.Sql
