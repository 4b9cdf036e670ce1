/-
Named values in the order in which their names were first bound. To bind a name
again changes its value where it stands; no other name notices (`lookup_bind`).
-/
namespace ReleaseSchema.Bindings

variable {κ : Type u} {α : Type v} [DecidableEq κ]

/-- Replaces the value of a name where it stands, or puts a new binding last. -/
def bind (name : κ) (value : α) : List (κ × α) → List (κ × α)
  | [] => [(name, value)]
  | (other, old) :: rest =>
    if other = name then (name, value) :: rest else (other, old) :: bind name value rest

/-- Each name once: at its first place, with its last value. -/
def distinct (bindings : List (κ × α)) : List (κ × α) :=
  bindings.foldl (fun kept (name, value) => bind name value kept) []

theorem lookup_cons (name x : κ) (value : α) (rest : List (κ × α)) :
    ((name, value) :: rest).lookup x = if x = name then some value else rest.lookup x := by
  rw [List.lookup_cons]
  by_cases h : x = name
  · rw [if_pos h, beq_iff_eq.2 h]
  · rw [if_neg h, beq_eq_false_iff_ne.2 h]

theorem lookup_bind (name x : κ) (value : α) (bindings : List (κ × α)) :
    (bind name value bindings).lookup x = if x = name then some value else bindings.lookup x := by
  induction bindings with
  | nil => exact lookup_cons name x value []
  | cons head rest ih =>
    obtain ⟨other, old⟩ := head
    simp only [bind]
    split
    next h =>
      subst h
      by_cases hx : x = other <;> simp [lookup_cons, hx]
    next h =>
      simp only [lookup_cons, ih]
      by_cases hx : x = other
      · simp [hx, h]
      · simp [hx]

end ReleaseSchema.Bindings
