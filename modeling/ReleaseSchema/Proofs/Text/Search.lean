/-
What a search finds in a text of known parts. A needle is found behind a body
that it closes and nowhere else (`splitAt?_eq_some_iff`), whatever is behind it
(`exists_of_splitAt?`), and it closes every body without its first character. A
byte offset is the place behind as many bytes as it says, and no place where those
would end inside a character or behind the text (`splitAtByte?_eq_some_iff`).
-/
import ReleaseSchema.Text.Search

namespace ReleaseSchema.Text

variable {needle passed text before after : List Char}

theorem isSome_splitAtFrom? :
    (splitAtFrom? needle passed text).isSome = true ↔ needle <:+: text := by
  fun_induction splitAtFrom? needle passed text with
  | case1 passed hempty => simp [List.isEmpty_iff.1 hempty]
  | case2 passed hempty => simpa using hempty
  | case3 passed c rest here => simp [(List.isPrefixOf_iff_prefix.1 here).isInfix]
  | case4 passed c rest notHere ih =>
    rw [ih, List.infix_cons_iff, or_iff_right fun here => notHere (List.isPrefixOf_iff_prefix.2 here)]

theorem isSome_splitAt? : (splitAt? needle text).isSome = true ↔ needle <:+: text :=
  isSome_splitAtFrom?

/-! ## Closing marks -/

/-- A mark closes the body in front of it: no earlier mark begins in the body, not even one that
would end inside the closing one. -/
def Closes (mark body : List Char) : Prop := ∀ i < body.length, ¬mark <+: (body ++ mark).drop i

instance (mark body : List Char) : Decidable (Closes mark body) :=
  inferInstanceAs (Decidable (∀ i < body.length, ¬mark <+: (body ++ mark).drop i))

theorem closes_nil (mark : List Char) : Closes mark [] := fun i hi => absurd hi (Nat.not_lt_zero i)

theorem closes_cons {mark body : List Char} {c : Char} :
    Closes mark (c :: body) ↔ ¬mark <+: c :: (body ++ mark) ∧ Closes mark body := by
  constructor
  · intro h
    exact ⟨h 0 (Nat.succ_pos _), fun i hi => h (i + 1) (Nat.succ_lt_succ hi)⟩
  · rintro ⟨here, behind⟩ i hi
    cases i with
    | zero => exact here
    | succ i => exact behind i (Nat.lt_of_succ_lt_succ hi)

theorem closes_of_not_mem {x : Char} (h : x ∉ before) : Closes (x :: needle) before := by
  induction before with
  | nil => exact closes_nil _
  | cons c before ih =>
    rw [List.mem_cons, not_or] at h
    refine closes_cons.2 ⟨fun here => ?_, ih h.2⟩
    exact h.1 (List.cons_prefix_cons.1 here).1

theorem splitAtFrom?_of_closes {x : Char} (h : Closes (x :: needle) before) :
    splitAtFrom? (x :: needle) passed (before ++ (x :: needle ++ after)) =
      some (passed.reverse ++ before, after) := by
  induction before generalizing passed with
  | nil =>
    have here : (x :: needle).isPrefixOf (x :: (needle ++ after)) = true :=
      List.isPrefixOf_iff_prefix.2 ⟨after, rfl⟩
    rw [List.nil_append, List.append_nil, List.cons_append, splitAtFrom?, if_pos here,
      ← List.cons_append, List.drop_left]
  | cons c before ih =>
    obtain ⟨here, behind⟩ := closes_cons.1 h
    have notHere : ¬(x :: needle).isPrefixOf (c :: (before ++ (x :: needle ++ after))) = true := by
      -- an occurrence here would end before the closing mark does
      intro begins
      refine here (List.prefix_of_prefix_length_le (List.isPrefixOf_iff_prefix.1 begins) ?_ ?_)
      · exact ⟨after, by simp⟩
      · simp only [List.length_cons, List.length_append]
        omega
    rw [List.cons_append, splitAtFrom?, if_neg notHere, ih behind, List.reverse_cons,
      List.append_assoc, List.singleton_append]

theorem splitAt?_of_closes (h : Closes needle before) (hne : needle ≠ []) (after : List Char) :
    splitAt? needle (before ++ (needle ++ after)) = some (before, after) := by
  obtain ⟨x, needle, rfl⟩ := List.exists_cons_of_ne_nil hne
  exact splitAtFrom?_of_closes h

/-- No earlier mark begins in front of the one that was found. -/
theorem closes_of_splitAtFrom? (hne : needle ≠ [])
    (h : splitAtFrom? needle passed text = some (before, after)) :
    ∃ inside, before = passed.reverse ++ inside ∧ text = inside ++ (needle ++ after) ∧
      Closes needle inside := by
  fun_induction splitAtFrom? needle passed text with
  | case1 passed hempty => exact absurd (List.isEmpty_iff.1 hempty) hne
  | case2 => cases h
  | case3 passed c rest hprefix =>
    cases h
    obtain ⟨more, hmore⟩ := List.isPrefixOf_iff_prefix.1 hprefix
    exact ⟨[], by simp, by rw [List.nil_append, ← hmore, List.drop_left], closes_nil _⟩
  | case4 passed c rest hprefix ih =>
    obtain ⟨inside, rfl, rfl, closes⟩ := ih h
    refine ⟨c :: inside, by simp, rfl, closes_cons.2 ⟨fun here => ?_, closes⟩⟩
    exact hprefix (List.isPrefixOf_iff_prefix.2 (here.trans ⟨after, by simp⟩))

theorem splitAt?_eq_some_iff (hne : needle ≠ []) :
    splitAt? needle text = some (before, after) ↔
      Closes needle before ∧ text = before ++ (needle ++ after) := by
  constructor
  · intro h
    obtain ⟨inside, hbefore, htext, closes⟩ := closes_of_splitAtFrom? hne h
    rw [List.reverse_nil, List.nil_append] at hbefore
    subst hbefore
    exact ⟨closes, htext⟩
  · rintro ⟨closes, rfl⟩
    exact splitAt?_of_closes closes hne after

/-- A text that was cut is what stood before the needle, the needle and the rest, and is cut at the
same place whatever the rest. -/
theorem exists_of_splitAt? (hne : needle ≠ []) (h : splitAt? needle text = some (before, after)) :
    text = before ++ (needle ++ after) ∧
      ∀ rest, splitAt? needle (before ++ (needle ++ rest)) = some (before, rest) := by
  obtain ⟨closes, htext⟩ := (splitAt?_eq_some_iff hne).1 h
  exact ⟨htext, splitAt?_of_closes closes hne⟩

/-! ## Byte offsets -/

theorem length_le_byteLength (text : List Char) : text.length ≤ byteLength text := by
  induction text with
  | nil => exact Nat.le_refl 0
  | cons c text ih =>
    have size := c.utf8Size_pos
    rw [byteLength, List.length_cons]
    omega

theorem byteLength_of_ascii {text : List Char} (h : ∀ c ∈ text, c.toNat < 0x80) :
    byteLength text = text.length := by
  induction text with
  | nil => rfl
  | cons c text ih =>
    obtain ⟨hc, htext⟩ := List.forall_mem_cons.1 h
    have size : c.utf8Size = 1 := Char.utf8Size_eq_one_iff.2 (Nat.le_of_lt_succ hc)
    rw [byteLength, List.length_cons, ih htext, size, Nat.add_comm]

theorem eq_nil_of_byteLength {text : List Char} (h : byteLength text = 0) : text = [] :=
  List.eq_nil_of_length_eq_zero (Nat.le_zero.1 (h ▸ length_le_byteLength text))

/-- The text in front of an offset has that many bytes. -/
theorem splitAtByte?_eq_some_iff {offset : Nat} {text before after : List Char} :
    splitAtByte? offset text = some (before, after) ↔
      text = before ++ after ∧ byteLength before = offset := by
  fun_induction splitAtByte? offset text generalizing before after with
  | case1 text =>
    constructor
    · intro h
      cases h
      exact ⟨rfl, rfl⟩
    · rintro ⟨rfl, hbefore⟩
      rw [eq_nil_of_byteLength hbefore]
      rfl
  | case2 n =>
    constructor
    · intro h
      cases h
    · rintro ⟨hparts, hbefore⟩
      rw [(List.nil_eq_append_iff.1 hparts).1] at hbefore
      cases hbefore
  | case3 n c rest fits ih =>
    rw [Option.map_eq_some_iff]
    constructor
    · rintro ⟨⟨front, left⟩, hsplit, hparts⟩
      cases hparts
      obtain ⟨rfl, hfront⟩ := ih.1 hsplit
      exact ⟨rfl, by rw [byteLength, hfront]; omega⟩
    · rintro ⟨hparts, hbefore⟩
      cases before with
      | nil => cases hbefore
      | cons first front =>
        obtain ⟨rfl, rfl⟩ := List.cons.inj hparts
        rw [byteLength] at hbefore
        exact ⟨(front, after), ih.2 ⟨rfl, by omega⟩, rfl⟩
  | case4 n c rest tooLong =>
    constructor
    · intro h
      cases h
    · rintro ⟨hparts, hbefore⟩
      cases before with
      | nil => cases hbefore
      | cons first front =>
        obtain ⟨rfl, -⟩ := List.cons.inj hparts
        rw [byteLength] at hbefore
        omega

end ReleaseSchema.Text
