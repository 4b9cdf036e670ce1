/-
Lists read element by element with a reader that may refuse: a reader that
accepts every element reads the whole list (`mapM_eq_some_map`), and one that
undoes a writer gives back the list that was written (`mapM_map_eq_some`).
What was read of a list was read of its elements (`exists_of_mem_mapM`).

Of a reader that says why it refuses, the reason is that of the first element it
refuses (`mapM_eq_error_iff`).
-/
import Mathlib.Data.List.Forall2

namespace ReleaseSchema.Traverse

theorem mapM_eq_some_map {f : α → Option β} {g : α → β} {l : List α}
    (h : ∀ a ∈ l, f a = some (g a)) : l.mapM f = some (l.map g) := by
  induction l with
  | nil => rfl
  | cons a rest ih =>
    rw [List.mapM_cons, h a List.mem_cons_self, ih fun b hb => h b (List.mem_cons_of_mem _ hb)]
    rfl

theorem mapM_map_eq_some {write : α → β} {read : β → Option α} {l : List α}
    (h : ∀ a ∈ l, read (write a) = some a) : (l.map write).mapM read = some l := by
  rw [List.mapM_map]
  exact (mapM_eq_some_map (g := id) h).trans (by rw [List.map_id])

theorem exists_of_mem_mapM {read : α → Option β} {l : List α} {result : List β}
    (h : l.mapM read = some result) {b : β} (hb : b ∈ result) : ∃ a ∈ l, read a = some b := by
  induction l generalizing result with
  | nil =>
    cases h
    exact absurd hb List.not_mem_nil
  | cons a rest ih =>
    rw [List.mapM_cons] at h
    simp only [Option.bind_eq_bind, Option.bind_eq_some_iff, Option.pure_def,
      Option.some.injEq] at h
    obtain ⟨first, hfirst, others, hothers, rfl⟩ := h
    rcases List.mem_cons.1 hb with rfl | hb
    · exact ⟨a, List.mem_cons_self, hfirst⟩
    · obtain ⟨a', ha', hread⟩ := ih hothers hb
      exact ⟨a', List.mem_cons_of_mem _ ha', hread⟩

theorem exists_of_mapM {read : α → Option β} {l : List α} {result : List β}
    (h : l.mapM read = some result) {a : α} (ha : a ∈ l) : ∃ b, read a = some b := by
  induction l generalizing result with
  | nil => exact absurd ha List.not_mem_nil
  | cons first rest ih =>
    rw [List.mapM_cons] at h
    simp only [Option.bind_eq_bind, Option.bind_eq_some_iff, Option.pure_def,
      Option.some.injEq] at h
    obtain ⟨b, hb, others, hothers, -⟩ := h
    rcases List.mem_cons.1 ha with rfl | ha
    · exact ⟨b, hb⟩
    · exact ih hothers ha

/-! ## Reasons -/

section Reasons

variable {read : α → Except ε β} {l : List α}

theorem mapM_eq_ok_iff {result : List β} :
    l.mapM read = .ok result ↔ List.Forall₂ (fun a b => read a = .ok b) l result := by
  induction l generalizing result with
  | nil => cases result <;> simp [pure, Except.pure]
  | cons a rest ih =>
    rw [List.mapM_cons]
    cases hfirst : read a with
    | error e => cases result <;> simp [bind, Except.bind, hfirst]
    | ok first =>
      cases hrest : rest.mapM read with
      | error e => cases result <;> simp [bind, Except.bind, hfirst, hrest, ← ih]
      | ok others =>
        cases result <;> simp [bind, Except.bind, pure, Except.pure, hfirst, hrest, ← ih]

/-- The elements before the first that is refused are read. -/
theorem mapM_eq_error_iff {e : ε} :
    l.mapM read = .error e ↔
      ∃ before a after, l = before ++ a :: after ∧ (∀ b ∈ before, ∃ result, read b = .ok result) ∧
        read a = .error e := by
  induction l with
  | nil => simp [pure, Except.pure]
  | cons a rest ih =>
    rw [List.mapM_cons]
    cases hfirst : read a with
    | error other =>
      constructor
      · intro h
        cases h
        exact ⟨[], a, rest, rfl, by simp, hfirst⟩
      · rintro ⟨before, refused, after, hsplit, accepted, hrefused⟩
        cases before with
        | nil =>
          obtain ⟨rfl, -⟩ := List.cons.inj hsplit
          rw [hfirst] at hrefused
          cases hrefused
          rfl
        | cons b before =>
          obtain ⟨rfl, -⟩ := List.cons.inj hsplit
          obtain ⟨result, hresult⟩ := accepted a List.mem_cons_self
          rw [hfirst] at hresult
          cases hresult
    | ok first =>
      have others : (do let r ← Except.ok first; let rs ← rest.mapM read; pure (r :: rs)) =
          (.error e : Except ε (List β)) ↔ rest.mapM read = .error e := by
        cases rest.mapM read <;> simp [bind, Except.bind, pure, Except.pure]
      rw [others, ih]
      constructor
      · rintro ⟨before, refused, after, rfl, accepted, hrefused⟩
        refine ⟨a :: before, refused, after, rfl, fun b hb => ?_, hrefused⟩
        rcases List.mem_cons.1 hb with rfl | hb
        · exact ⟨first, hfirst⟩
        · exact accepted b hb
      · rintro ⟨before, refused, after, hsplit, accepted, hrefused⟩
        cases before with
        | nil =>
          obtain ⟨rfl, -⟩ := List.cons.inj hsplit
          rw [hfirst] at hrefused
          cases hrefused
        | cons b before =>
          obtain ⟨rfl, rfl⟩ := List.cons.inj hsplit
          exact ⟨before, refused, after, rfl, fun b hb => accepted b (List.mem_cons_of_mem _ hb),
            hrefused⟩

end Reasons

end ReleaseSchema.Traverse
