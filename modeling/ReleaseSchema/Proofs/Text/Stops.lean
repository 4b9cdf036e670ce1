/-
Where a run of characters ends. A reader that takes the longest run it can
takes exactly the run that was written, when what follows does not continue it
(`Stops`).
-/
import Mathlib.Data.List.TakeWhile

namespace ReleaseSchema.Text

/-- A run of characters that `p` accepts does not go on into the text. -/
def Stops (p : Char → Bool) (text : List Char) : Prop := ∀ c ∈ text.head?, p c = false

variable {p : Char → Bool} {run text rest : List Char}

theorem stops_iff_any : Stops p text ↔ text.head?.any p = false := by
  cases text with
  | nil => simp [Stops]
  | cons c text => simp [Stops]

instance (p : Char → Bool) (text : List Char) : Decidable (Stops p text) :=
  decidable_of_iff _ stops_iff_any.symm

theorem Stops.nil : Stops p [] := by simp [Stops]

theorem stops_cons {c : Char} : Stops p (c :: text) ↔ p c = false := by simp [Stops]

theorem Stops.imp {q : Char → Bool} (h : Stops p text) (hqp : ∀ c, q c = true → p c = true) :
    Stops q text := by
  intro c hc
  rw [← Bool.not_eq_true]
  intro hq
  have hp := h c hc
  rw [hqp c hq] at hp
  cases hp

theorem Stops.takeWhile (h : Stops p text) : text.takeWhile p = [] := by
  cases text with
  | nil => rfl
  | cons c text => exact List.takeWhile_cons_of_neg (by simp [stops_cons.1 h])

theorem Stops.dropWhile (h : Stops p text) : text.dropWhile p = text := by
  cases text with
  | nil => rfl
  | cons c text => exact List.dropWhile_cons_of_neg (by simp [stops_cons.1 h])

/-- What is left when a run is taken off does not go on with it. -/
theorem stops_dropWhile (p : Char → Bool) (text : List Char) : Stops p (text.dropWhile p) := by
  induction text with
  | nil => exact Stops.nil
  | cons c text ih =>
    rw [List.dropWhile_cons]
    split
    · exact ih
    next hc => exact stops_cons.2 (Bool.not_eq_true _ ▸ hc)

theorem Stops.of_append (h : Stops p (text ++ rest)) : Stops p text := by
  cases text with
  | nil => exact Stops.nil
  | cons c text => exact stops_cons.2 (stops_cons.1 h)

theorem Stops.append (h : Stops p text) (hne : text ≠ []) (rest : List Char) :
    Stops p (text ++ rest) := by
  cases text with
  | nil => exact absurd rfl hne
  | cons c text => exact stops_cons.2 (stops_cons.1 h)

theorem takeWhile_append_of_stops (h : Stops p rest) :
    (text ++ rest).takeWhile p = text.takeWhile p := by
  rw [List.takeWhile_append]
  split
  next hall => rw [h.takeWhile, List.append_nil, (List.takeWhile_prefix p).eq_of_length hall]
  next => rfl

theorem dropWhile_append_of_stops (h : Stops p rest) :
    (text ++ rest).dropWhile p = text.dropWhile p ++ rest := by
  rw [List.dropWhile_append]
  split
  next hnone => rw [h.dropWhile, List.isEmpty_iff.1 hnone, List.nil_append]
  next => rfl

theorem takeWhile_run (h : ∀ c ∈ run, p c = true) (stop : Stops p rest) :
    (run ++ rest).takeWhile p = run := by
  rw [takeWhile_append_of_stops stop, List.takeWhile_eq_self_iff.2 h]

theorem dropWhile_run (h : ∀ c ∈ run, p c = true) (stop : Stops p rest) :
    (run ++ rest).dropWhile p = rest := by
  rw [dropWhile_append_of_stops stop, List.dropWhile_eq_nil_iff.2 h, List.nil_append]

end ReleaseSchema.Text
