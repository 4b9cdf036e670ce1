/-
The two ways of writing a JSON value as one: what differs is the blanks in
front of the parts of a container and behind a colon (`Layout`). Whatever is
proved of the text in every layout holds of the texts on one line
(`chars_oneLine`) and over several (`chars_indented`).
-/
import ReleaseSchema.Json.Printer
import ReleaseSchema.Json.Reader

namespace ReleaseSchema.Json

/-- The blanks of a way of writing JSON. -/
structure Layout where
  /-- In front of the parts of a container at a level, and of its closing mark. -/
  gap : Nat → List Char
  /-- Behind a colon. -/
  colon : List Char
  gap_blank : ∀ level, ∀ c ∈ gap level, isBlank c = true
  colon_blank : ∀ c ∈ colon, isBlank c = true

namespace Layout

mutual

/-- A value in a layout. -/
def chars (l : Layout) (level : Nat) : Json → List Char
  | .array [] => ['[', ']']
  | .object [] => ['\x7b', '\x7d']
  | .array (item :: items) => '[' :: l.itemChars level (item :: items)
  | .object (member :: members) => '\x7b' :: l.memberChars level (member :: members)
  | .null => "null".toList
  | .bool b => (if b then "true" else "false").toList
  | .number literal => literal.toList
  | .string s => quoted s
  | .unreadable => "null".toList

/-- Items and the closing bracket. -/
def itemChars (l : Layout) (level : Nat) : List Json → List Char
  | [] => l.gap level ++ [']']
  | [item] => l.gap (level + 1) ++ (l.chars (level + 1) item ++ (l.gap level ++ [']']))
  | item :: next :: rest =>
    l.gap (level + 1) ++ (l.chars (level + 1) item ++ ',' :: l.itemChars level (next :: rest))

/-- Members and the closing brace. -/
def memberChars (l : Layout) (level : Nat) : List (String × Json) → List Char
  | [] => l.gap level ++ ['\x7d']
  | [(name, value)] =>
    l.gap (level + 1) ++ (quoted name ++ ':' :: (l.colon ++
      (l.chars (level + 1) value ++ (l.gap level ++ ['\x7d']))))
  | (name, value) :: next :: rest =>
    l.gap (level + 1) ++ (quoted name ++ ':' :: (l.colon ++
      (l.chars (level + 1) value ++ ',' :: l.memberChars level (next :: rest))))

end

/-! ## The layouts in use -/

/-- No blanks at all. -/
def oneLine : Layout where
  gap _ := []
  colon := []
  gap_blank := by simp
  colon_blank := by simp

/-- Every part on a line of its own. -/
def indented : Layout where
  gap := newLine
  colon := [' ']
  gap_blank level c hc := by
    simp only [newLine, List.mem_cons, List.mem_replicate] at hc
    rcases hc with rfl | ⟨-, rfl⟩ <;> rfl
  colon_blank := List.forall_mem_singleton.2 rfl

mutual

theorem chars_oneLine (level : Nat) : ∀ json, oneLine.chars level json = json.compactChars
  | .null | .bool _ | .number _ | .string _ | .unreadable => rfl
  | .array [] | .object [] => rfl
  | .array (item :: items) => by
    rw [chars, compactChars, itemChars_oneLine level (item :: items)]
  | .object (member :: members) => by
    rw [chars, compactChars, memberChars_oneLine level (member :: members)]

theorem itemChars_oneLine (level : Nat) :
    ∀ items, oneLine.itemChars level items = compactItems items
  | [] => rfl
  | [item] => by
    rw [itemChars, compactItems, chars_oneLine (level + 1) item]
    rfl
  | item :: next :: rest => by
    rw [itemChars, compactItems, chars_oneLine (level + 1) item,
      itemChars_oneLine level (next :: rest)]
    rfl

theorem memberChars_oneLine (level : Nat) :
    ∀ members, oneLine.memberChars level members = compactMembers members
  | [] => rfl
  | [(name, value)] => by
    rw [memberChars, compactMembers, chars_oneLine (level + 1) value]
    rfl
  | (name, value) :: next :: rest => by
    rw [memberChars, compactMembers, chars_oneLine (level + 1) value,
      memberChars_oneLine level (next :: rest)]
    rfl

end

mutual

theorem chars_indented (level : Nat) : ∀ json, indented.chars level json = json.prettyChars level
  | .null | .bool _ | .number _ | .string _ | .unreadable => rfl
  | .array [] | .object [] => rfl
  | .array (item :: items) => by
    rw [chars, prettyChars, itemChars_indented level (item :: items)]
  | .object (member :: members) => by
    rw [chars, prettyChars, memberChars_indented level (member :: members)]

theorem itemChars_indented (level : Nat) :
    ∀ items, indented.itemChars level items = prettyItems level items
  | [] => rfl
  | [item] => by
    rw [itemChars, prettyItems, chars_indented (level + 1) item]
    simp [indented]
  | item :: next :: rest => by
    rw [itemChars, prettyItems, chars_indented (level + 1) item,
      itemChars_indented level (next :: rest)]
    simp [indented]

theorem memberChars_indented (level : Nat) :
    ∀ members, indented.memberChars level members = prettyMembers level members
  | [] => rfl
  | [(name, value)] => by
    rw [memberChars, prettyMembers, chars_indented (level + 1) value]
    simp [indented]
  | (name, value) :: next :: rest => by
    rw [memberChars, prettyMembers, chars_indented (level + 1) value,
      memberChars_indented level (next :: rest)]
    simp [indented]

end

end Layout

end ReleaseSchema.Json
