/-
Texts of JSON values read back. A tree that can be written at all (`Fits`) is
what the reader makes of its text, in either layout and with repeated names
kept (`parse?_pretty`, `parse?_compact`).

The reader is given more than one value's text, so the lemmas speak of a text
with more behind it. What follows must not continue a number; in a container
that is so, since a blank or a mark follows.
-/
import ReleaseSchema.Proofs.Json.Layout
import ReleaseSchema.Proofs.Json.Number
import ReleaseSchema.Proofs.Json.Quoted
import ReleaseSchema.Proofs.Traverse

namespace ReleaseSchema.Json

open Text (Stops stops_cons)

/-- Every part of the tree can be written, with containers nested at most so deep. -/
inductive Fits : Nat → Json → Prop
  | null {depth : Nat} : Fits depth .null
  | bool {depth : Nat} {b : Bool} : Fits depth (.bool b)
  | number {depth : Nat} {literal : String} (h : IsNumber literal.toList) :
      Fits depth (.number literal)
  | string {depth : Nat} {s : String} : Fits depth (.string s)
  | array {depth : Nat} {items : List Json} (h : ∀ item ∈ items, Fits depth item) :
      Fits (depth + 1) (.array items)
  | object {depth : Nat} {members : List (String × Json)}
      (h : ∀ member ∈ members, Fits depth member.2) : Fits (depth + 1) (.object members)

/-! ## Blanks -/

section Blanks

variable {blanks text : List Char}

theorem skipBlanks_append (h : ∀ c ∈ blanks, isBlank c = true) (text : List Char) :
    skipBlanks (blanks ++ text) = skipBlanks text :=
  List.dropWhile_append_of_pos h

theorem skipBlanks_cons {c : Char} (h : isBlank c = false) (text : List Char) :
    skipBlanks (c :: text) = c :: text :=
  List.dropWhile_cons_of_neg (by simp [h])

theorem valueFrom?_blanks (h : ∀ c ∈ blanks, isBlank c = true) (fuel depth : Nat)
    (text : List Char) :
    valueFrom? fuel depth (blanks ++ text) = valueFrom? fuel depth text := by
  cases fuel with
  | zero => simp only [valueFrom?]
  | succ fuel => simp only [valueFrom?, skipBlanks_append h]

theorem membersFrom?_blanks (h : ∀ c ∈ blanks, isBlank c = true) (fuel depth : Nat)
    (text : List Char) :
    membersFrom? fuel depth (blanks ++ text) = membersFrom? fuel depth text := by
  cases fuel with
  | zero => simp only [membersFrom?]
  | succ fuel => simp only [membersFrom?, skipBlanks_append h]

theorem itemsFrom?_blanks (h : ∀ c ∈ blanks, isBlank c = true) (fuel depth : Nat)
    (text : List Char) :
    itemsFrom? fuel depth (blanks ++ text) = itemsFrom? fuel depth text := by
  cases fuel with
  | zero => simp only [itemsFrom?]
  | succ fuel => simp only [itemsFrom?, valueFrom?_blanks h]

theorem stops_of_blanks (h : ∀ c ∈ blanks, isBlank c = true) (stop : Stops isNumberChar text) :
    Stops isNumberChar (blanks ++ text) := by
  cases blanks with
  | nil => exact stop
  | cons c blanks =>
    rw [List.cons_append, stops_cons]
    have hc := h c List.mem_cons_self
    simp only [isBlank, Bool.or_eq_true, beq_iff_eq] at hc
    rcases hc with ((rfl | rfl) | rfl) | rfl <;> decide

end Blanks

/-! ## Beginnings -/

/-- A character with which the text of a value begins. -/
def IsStart (c : Char) : Prop := isBlank c = false ∧ c ≠ ']'

instance (c : Char) : Decidable (IsStart c) := inferInstanceAs (Decidable (_ ∧ _))

theorem IsNumber.exists_cons {l : List Char} (h : IsNumber l) :
    ∃ c text, l = c :: text ∧ (c = '-' ∨ c.isDigit = true) := by
  obtain ⟨hsign, hwhole, -, -⟩ := h
  rcases hsign with rfl | rfl
  · rename_i whole part power
    cases whole with
    | nil => exact absurd rfl hwhole.1.1
    | cons d ds => exact ⟨d, _, rfl, .inr (hwhole.1.2 d List.mem_cons_self)⟩
  · exact ⟨'-', _, rfl, .inl rfl⟩

theorem number_start {c : Char} (h : c = '-' ∨ c.isDigit = true) :
    IsStart c ∧ c ≠ '"' ∧ c ≠ '[' ∧ c ≠ '\x7b' ∧ c ≠ 'n' ∧ c ≠ 't' ∧ c ≠ 'f' := by
  rcases h with rfl | h
  · decide
  · refine ⟨⟨?_, ?_⟩, ?_, ?_, ?_, ?_, ?_, ?_⟩
    · rw [← Bool.not_eq_true]
      intro hblank
      simp only [isBlank, Bool.or_eq_true, beq_iff_eq] at hblank
      rcases hblank with ((rfl | rfl) | rfl) | rfl <;> revert h <;> decide
    all_goals
      rintro rfl
      revert h
      decide

theorem chars_start {depth : Nat} {json : Json} (h : Fits depth json) (l : Layout) (level : Nat) :
    ∃ c text, l.chars level json = c :: text ∧ IsStart c := by
  cases h with
  | null => exact ⟨'n', _, rfl, by decide⟩
  | bool =>
    rename_i b
    cases b
    · exact ⟨'f', _, rfl, by decide⟩
    · exact ⟨'t', _, rfl, by decide⟩
  | number h =>
    obtain ⟨c, text, hl, hc⟩ := h.exists_cons
    exact ⟨c, text, hl, (number_start hc).1⟩
  | string => exact ⟨'"', _, rfl, by decide⟩
  | array _ =>
    rename_i items _
    cases items
    · exact ⟨'[', _, rfl, by decide⟩
    · exact ⟨'[', _, rfl, by decide⟩
  | object _ =>
    rename_i members _
    cases members
    · exact ⟨'\x7b', _, rfl, by decide⟩
    · exact ⟨'\x7b', _, rfl, by decide⟩

/-! ## Values -/

section Values

variable {fuel depth : Nat} {rest : List Char}

theorem valueFrom?_null :
    valueFrom? (fuel + 1) depth ("null".toList ++ rest) = some (.null, rest) := rfl

theorem valueFrom?_bool (b : Bool) :
    valueFrom? (fuel + 1) depth ((if b then "true" else "false").toList ++ rest) =
      some (.bool b, rest) := by
  cases b <;> rfl

theorem valueFrom?_string (s : String) :
    valueFrom? (fuel + 1) depth (quoted s ++ rest) = some (.string s, rest) := by
  have start :
      skipBlanks (quoted s ++ rest) = '"' :: (s.toList.flatMap escaped ++ '"' :: rest) := by
    simp [quoted, skipBlanks_cons (show isBlank '"' = false from rfl)]
  rw [valueFrom?, start]
  simp only [string?_quoted, Option.map_some, Option.getD_some]

theorem valueFrom?_number {literal : String} (h : IsNumber literal.toList)
    (stop : Stops isNumberChar rest) :
    valueFrom? (fuel + 1) depth (literal.toList ++ rest) = some (.number literal, rest) := by
  have read := number?_append h stop
  obtain ⟨c, text, hl, hc⟩ := h.exists_cons
  obtain ⟨⟨hblank, -⟩, hquote, hbracket, hbrace, hn, ht, hf⟩ := number_start hc
  rw [hl, List.cons_append] at read
  rw [hl, List.cons_append, valueFrom?.eq_def]
  simp only [skipBlanks_cons hblank]
  rw [if_neg hn, if_neg ht, if_neg hf, read, Option.map_some, ← hl, String.ofList_toList]

theorem valueFrom?_empty :
    valueFrom? (fuel + 1) (depth + 1) ('[' :: ']' :: rest) = some (.array [], rest) ∧
      valueFrom? (fuel + 1) (depth + 1) ('\x7b' :: '\x7d' :: rest) = some (.object [], rest) :=
  ⟨rfl, rfl⟩

/-- An array is read when its items are. The first of them does not begin like the closing mark. -/
theorem valueFrom?_array {text : List Char} {items : List Json}
    (start : ∃ c after, skipBlanks text = c :: after ∧ IsStart c)
    (read : itemsFrom? fuel depth text = some (items, rest)) :
    valueFrom? (fuel + 1) (depth + 1) ('[' :: text) = some (.array items, rest) := by
  obtain ⟨c, after, htext, -, hc⟩ := start
  rw [valueFrom?, skipBlanks_cons (by decide)]
  simp only [htext, Nat.add_sub_cancel, read, Option.map_some, Nat.succ_ne_zero, if_false]
  split
  next heq => exact absurd (List.cons.inj heq).1 hc
  next => rfl

theorem ofMembers_some (members : List (String × Json)) :
    ofMembers (members.map fun member => (some member.1, member.2)) = .object members := by
  rw [ofMembers, Traverse.mapM_map_eq_some]
  intro member _
  rfl

theorem valueFrom?_object {text : List Char} {members : List (String × Json)}
    (start : ∃ after, skipBlanks text = '"' :: after)
    (read : membersFrom? fuel depth text =
      some (members.map fun member => (some member.1, member.2), rest)) :
    valueFrom? (fuel + 1) (depth + 1) ('\x7b' :: text) = some (.object members, rest) := by
  obtain ⟨after, htext⟩ := start
  rw [valueFrom?, skipBlanks_cons (by decide)]
  simp only [htext, Nat.add_sub_cancel, read, Option.map_some, Nat.succ_ne_zero, if_false,
    ofMembers_some]
  split
  next heq => exact absurd (List.cons.inj heq).1 (by decide)
  next => rfl

/-! ## Parts of containers -/

variable {text blanks after : List Char}

theorem itemsFrom?_last {item : Json} (h : ∀ c ∈ blanks, isBlank c = true)
    (read : valueFrom? fuel depth text = some (item, blanks ++ ']' :: rest)) :
    itemsFrom? (fuel + 1) depth text = some ([item], rest) := by
  rw [itemsFrom?, read]
  simp only [skipBlanks_append h, skipBlanks_cons (show isBlank ']' = false from rfl)]

theorem itemsFrom?_cons {item : Json} {items : List Json}
    (read : valueFrom? fuel depth text = some (item, ',' :: after))
    (others : itemsFrom? fuel depth after = some (items, rest)) :
    itemsFrom? (fuel + 1) depth text = some (item :: items, rest) := by
  rw [itemsFrom?, read]
  simp only [skipBlanks_cons (show isBlank ',' = false from rfl), others, Option.map_some]

theorem membersFrom?_last {name : String} {value : Json} (h : ∀ c ∈ blanks, isBlank c = true)
    (read : valueFrom? fuel depth text = some (value, blanks ++ '\x7d' :: rest)) :
    membersFrom? (fuel + 1) depth (quoted name ++ ':' :: text) =
      some ([(some name, value)], rest) := by
  simp only [quoted, List.cons_append, List.append_assoc, List.nil_append]
  rw [membersFrom?, skipBlanks_cons (by decide)]
  simp only [string?_quoted, skipBlanks_cons (show isBlank ':' = false from rfl), read,
    skipBlanks_append h, skipBlanks_cons (show isBlank '\x7d' = false from rfl)]

theorem membersFrom?_cons {name : String} {value : Json} {members : List (Option String × Json)}
    (read : valueFrom? fuel depth text = some (value, ',' :: after))
    (others : membersFrom? fuel depth after = some (members, rest)) :
    membersFrom? (fuel + 1) depth (quoted name ++ ':' :: text) =
      some ((some name, value) :: members, rest) := by
  simp only [quoted, List.cons_append, List.append_assoc, List.nil_append]
  rw [membersFrom?, skipBlanks_cons (by decide)]
  simp only [string?_quoted, skipBlanks_cons (show isBlank ':' = false from rfl), read,
    skipBlanks_cons (show isBlank ',' = false from rfl), others, Option.map_some]

end Values

/-! ## Trees -/

section Trees

variable {depth : Nat} {rest : List Char}

theorem length_chars_pos {json : Json} (h : Fits depth json) (l : Layout) (level : Nat) :
    0 < (l.chars level json).length := by
  obtain ⟨c, text, hchars, -⟩ := chars_start h l level
  simp [hchars]

/-- The texts of items and members begin behind blanks, with a value and with a quote. -/
theorem itemChars_start {item : Json} (h : Fits depth item) (l : Layout) (level : Nat)
    (items : List Json) :
    ∃ c after, skipBlanks (l.itemChars level (item :: items) ++ rest) = c :: after ∧ IsStart c := by
  obtain ⟨c, text, hchars, hc⟩ := chars_start h l (level + 1)
  cases items with
  | nil =>
    rw [Layout.itemChars, List.append_assoc, skipBlanks_append (l.gap_blank _), hchars]
    exact ⟨c, _, skipBlanks_cons hc.1 _, hc⟩
  | cons next items =>
    rw [Layout.itemChars, List.append_assoc, skipBlanks_append (l.gap_blank _), hchars]
    exact ⟨c, _, skipBlanks_cons hc.1 _, hc⟩

theorem memberChars_start (l : Layout) (level : Nat) (member : String × Json)
    (members : List (String × Json)) :
    ∃ after, skipBlanks (l.memberChars level (member :: members) ++ rest) = '"' :: after := by
  obtain ⟨name, value⟩ := member
  cases members with
  | nil =>
    rw [Layout.memberChars, List.append_assoc, skipBlanks_append (l.gap_blank _)]
    exact ⟨_, skipBlanks_cons (by decide) _⟩
  | cons next members =>
    rw [Layout.memberChars, List.append_assoc, skipBlanks_append (l.gap_blank _)]
    exact ⟨_, skipBlanks_cons (by decide) _⟩

end Trees

mutual

/-- The text of a tree is read as the tree. The fuel is counted by the text: a call reads a
character of it or hands it on once. -/
theorem valueFrom?_chars (l : Layout) : ∀ (json : Json) {fuel depth level : Nat} {rest : List Char},
    Fits depth json → Stops isNumberChar rest → 2 * (l.chars level json).length ≤ fuel →
      valueFrom? fuel depth (l.chars level json ++ rest) = some (json, rest)
  | json, fuel, depth, level, rest, h, stop, hfuel => by
    have hpos := length_chars_pos h l level
    obtain ⟨fuel, rfl⟩ : ∃ f, fuel = f + 1 := ⟨fuel - 1, by omega⟩
    cases h with
    | null => exact valueFrom?_null
    | bool => exact valueFrom?_bool _
    | number h => exact valueFrom?_number h stop
    | string => exact valueFrom?_string _
    | @array depth items h =>
      cases items with
      | nil => exact valueFrom?_empty.1
      | cons item items =>
        rw [Layout.chars, List.length_cons] at hfuel
        refine valueFrom?_array (itemChars_start (h item List.mem_cons_self) l level items) ?_
        exact itemsFrom?_itemChars l (item :: items) (List.cons_ne_nil _ _) h (by omega)
    | @object depth members h =>
      cases members with
      | nil => exact valueFrom?_empty.2
      | cons member members =>
        rw [Layout.chars, List.length_cons] at hfuel
        refine valueFrom?_object (memberChars_start l level member members) ?_
        exact membersFrom?_memberChars l (member :: members) (List.cons_ne_nil _ _) h (by omega)

theorem itemsFrom?_itemChars (l : Layout) :
    ∀ (items : List Json) {fuel depth level : Nat} {rest : List Char}, items ≠ [] →
    (∀ item ∈ items, Fits depth item) → 2 * (l.itemChars level items).length + 1 ≤ fuel →
      itemsFrom? fuel depth (l.itemChars level items ++ rest) = some (items, rest)
  | [], _, _, _, _, hne, _, _ => absurd rfl hne
  | [item], fuel, depth, level, rest, _, h, hfuel => by
    obtain ⟨fuel, rfl⟩ : ∃ f, fuel = f + 1 := ⟨fuel - 1, by omega⟩
    have stop : Stops isNumberChar (l.gap level ++ ']' :: rest) :=
      stops_of_blanks (l.gap_blank level) (stops_cons.2 (by decide))
    simp only [Layout.itemChars, List.length_append] at hfuel
    simp only [Layout.itemChars, List.append_assoc, List.singleton_append]
    rw [itemsFrom?_blanks (l.gap_blank _)]
    exact itemsFrom?_last (l.gap_blank level)
      (valueFrom?_chars l item (h item List.mem_cons_self) stop (by omega))
  | item :: next :: items, fuel, depth, level, rest, _, h, hfuel => by
    obtain ⟨fuel, rfl⟩ : ∃ f, fuel = f + 1 := ⟨fuel - 1, by omega⟩
    have fits := h item List.mem_cons_self
    have hpos := length_chars_pos fits l (level + 1)
    have stop : Stops isNumberChar (',' :: (l.itemChars level (next :: items) ++ rest)) :=
      stops_cons.2 (by decide)
    simp only [Layout.itemChars, List.length_append, List.length_cons] at hfuel
    simp only [Layout.itemChars, List.append_assoc, List.cons_append]
    rw [itemsFrom?_blanks (l.gap_blank _)]
    refine itemsFrom?_cons (valueFrom?_chars l item fits stop (by omega)) ?_
    exact itemsFrom?_itemChars l (next :: items) (List.cons_ne_nil _ _)
      (fun other hother => h other (List.mem_cons_of_mem _ hother)) (by omega)

theorem membersFrom?_memberChars (l : Layout) :
    ∀ (members : List (String × Json)) {fuel depth level : Nat} {rest : List Char}, members ≠ [] →
    (∀ member ∈ members, Fits depth member.2) →
    2 * (l.memberChars level members).length + 1 ≤ fuel →
      membersFrom? fuel depth (l.memberChars level members ++ rest) =
        some (members.map fun member => (some member.1, member.2), rest)
  | [], _, _, _, _, hne, _, _ => absurd rfl hne
  | [(name, value)], fuel, depth, level, rest, _, h, hfuel => by
    obtain ⟨fuel, rfl⟩ : ∃ f, fuel = f + 1 := ⟨fuel - 1, by omega⟩
    have stop : Stops isNumberChar (l.gap level ++ '\x7d' :: rest) :=
      stops_of_blanks (l.gap_blank level) (stops_cons.2 (by decide))
    simp only [Layout.memberChars, List.length_append, List.length_cons] at hfuel
    simp only [Layout.memberChars, List.append_assoc, List.cons_append]
    rw [membersFrom?_blanks (l.gap_blank _)]
    refine membersFrom?_last (l.gap_blank level) ?_
    rw [valueFrom?_blanks l.colon_blank]
    exact valueFrom?_chars l value (h _ List.mem_cons_self) stop (by omega)
  | (name, value) :: next :: members, fuel, depth, level, rest, _, h, hfuel => by
    obtain ⟨fuel, rfl⟩ : ∃ f, fuel = f + 1 := ⟨fuel - 1, by omega⟩
    have stop : Stops isNumberChar (',' :: (l.memberChars level (next :: members) ++ rest)) :=
      stops_cons.2 (by decide)
    simp only [Layout.memberChars, List.length_append, List.length_cons] at hfuel
    simp only [Layout.memberChars, List.append_assoc, List.cons_append]
    rw [membersFrom?_blanks (l.gap_blank _)]
    have others : membersFrom? fuel depth (l.memberChars level (next :: members) ++ rest) =
        some ((next :: members).map fun member => (some member.1, member.2), rest) :=
      membersFrom?_memberChars l (next :: members) (List.cons_ne_nil _ _)
        (fun other hother => h other (List.mem_cons_of_mem _ hother)) (by omega)
    refine membersFrom?_cons ?_ others
    rw [valueFrom?_blanks l.colon_blank]
    exact valueFrom?_chars l value (h _ List.mem_cons_self) stop (by omega)

end

/-! ## Documents -/

theorem parse?_chars (l : Layout) {json : Json} (h : Fits maxDepth json) :
    parse? (String.ofList (l.chars 0 json)) = some json := by
  have read : valueFrom? (2 * (l.chars 0 json).length + 2) maxDepth (l.chars 0 json ++ []) =
      some (json, []) :=
    valueFrom?_chars l json h Stops.nil (by omega)
  rw [List.append_nil] at read
  simp [parse?, read, skipBlanks]

theorem parse?_pretty {json : Json} (h : Fits maxDepth json) : parse? json.pretty = some json := by
  have read := parse?_chars .indented h
  rwa [Layout.chars_indented] at read

theorem parse?_compact {json : Json} (h : Fits maxDepth json) :
    parse? json.compact = some json := by
  have read := parse?_chars .oneLine h
  rwa [Layout.chars_oneLine] at read

end ReleaseSchema.Json
