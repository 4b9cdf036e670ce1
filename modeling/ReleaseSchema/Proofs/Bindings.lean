/-
Named values of which each name is kept once. Keeping each name once changes
nothing where none is repeated (`distinct_of_nodup`), takes no value from
elsewhere (`mem_distinct`), and may be done before or after the values are
changed (`distinct_map`). Where no name is repeated, a look-up finds every value
(`lookup_eq_some_iff_mem`).
-/
import ReleaseSchema.Bindings

namespace ReleaseSchema.Bindings

variable {κ : Type u} {α : Type v} {β : Type w} [DecidableEq κ]

theorem bind_of_not_mem {name : κ} {bindings : List (κ × α)} (h : name ∉ bindings.map (·.1))
    (value : α) : bind name value bindings = bindings ++ [(name, value)] := by
  induction bindings with
  | nil => rfl
  | cons head rest ih =>
    obtain ⟨other, old⟩ := head
    simp only [List.map_cons, List.mem_cons, not_or] at h
    rw [bind, if_neg (fun he => h.1 he.symm), ih h.2]
    rfl

theorem mem_bind {name : κ} {value : α} {bindings : List (κ × α)} {e : κ × α}
    (h : e ∈ bind name value bindings) : e = (name, value) ∨ e ∈ bindings := by
  induction bindings with
  | nil => exact .inl (List.mem_singleton.1 h)
  | cons head rest ih =>
    obtain ⟨other, old⟩ := head
    rw [bind] at h
    split at h
    · exact (List.mem_cons.1 h).imp id (List.mem_cons_of_mem _)
    · rcases List.mem_cons.1 h with rfl | h
      · exact .inr List.mem_cons_self
      · exact (ih h).imp id (List.mem_cons_of_mem _)

/-- The names of a list to which a name is bound are the same, or the new name is last. -/
theorem names_bind (name : κ) (value : α) (bindings : List (κ × α)) :
    (bind name value bindings).map (·.1) =
      if name ∈ bindings.map (·.1) then bindings.map (·.1) else bindings.map (·.1) ++ [name] := by
  induction bindings with
  | nil => rfl
  | cons head rest ih =>
    obtain ⟨other, old⟩ := head
    rw [bind]
    split
    next h => simp [h]
    next h =>
      have hne : name ≠ other := fun he => h he.symm
      rw [List.map_cons, ih]
      simp only [List.map_cons, List.mem_cons, hne, false_or]
      split <;> rfl

theorem nodup_bind {name : κ} {value : α} {bindings : List (κ × α)}
    (h : (bindings.map (·.1)).Nodup) : ((bind name value bindings).map (·.1)).Nodup := by
  rw [names_bind]
  split
  · exact h
  next hnew =>
    rw [List.nodup_append]
    refine ⟨h, List.pairwise_singleton _ _, fun a ha b hb => ?_⟩
    rw [List.mem_singleton.1 hb]
    rintro rfl
    exact hnew ha

theorem lookup_eq_some_iff_mem {name : κ} {value : α} {bindings : List (κ × α)}
    (h : (bindings.map (·.1)).Nodup) :
    bindings.lookup name = some value ↔ (name, value) ∈ bindings := by
  induction bindings with
  | nil => simp
  | cons head rest ih =>
    obtain ⟨other, first⟩ := head
    rw [List.map_cons, List.nodup_cons] at h
    rw [lookup_cons, List.mem_cons, Prod.mk.injEq]
    split
    next same =>
      subst same
      have absent : (name, value) ∉ rest := fun hmem => h.1 (List.mem_map.2 ⟨_, hmem, rfl⟩)
      simp [absent, eq_comm]
    next differs => simp [differs, ih h.2]

theorem bind_bind (name : κ) (old value : α) (bindings : List (κ × α)) :
    bind name value (bind name old bindings) = bind name value bindings := by
  induction bindings with
  | nil => simp [bind]
  | cons head rest ih =>
    obtain ⟨other, first⟩ := head
    by_cases h : other = name
    · simp [bind, h]
    · rw [bind, if_neg h, bind, if_neg h, bind, if_neg h, ih]

/-! ## Each name once -/

theorem nodup_foldl {kept : List (κ × α)} (h : (kept.map (·.1)).Nodup) (bindings : List (κ × α)) :
    ((bindings.foldl (fun kept (name, value) => bind name value kept) kept).map (·.1)).Nodup := by
  induction bindings generalizing kept with
  | nil => exact h
  | cons head rest ih => exact ih (nodup_bind h)

theorem nodup_distinct (bindings : List (κ × α)) : ((distinct bindings).map (·.1)).Nodup := by
  have start : (([] : List (κ × α)).map (·.1)).Nodup := List.nodup_nil
  exact nodup_foldl start bindings

theorem mem_foldl {kept bindings : List (κ × α)} {e : κ × α}
    (h : e ∈ bindings.foldl (fun kept (name, value) => bind name value kept) kept) :
    e ∈ kept ∨ e ∈ bindings := by
  induction bindings generalizing kept with
  | nil => exact .inl h
  | cons head rest ih =>
    rcases ih h with h | h
    · rcases mem_bind h with rfl | h
      · exact .inr List.mem_cons_self
      · exact .inl h
    · exact .inr (List.mem_cons_of_mem _ h)

theorem mem_distinct {bindings : List (κ × α)} {e : κ × α} (h : e ∈ distinct bindings) :
    e ∈ bindings :=
  (mem_foldl h).elim (fun h => absurd h List.not_mem_nil) id

theorem foldl_of_nodup {kept bindings : List (κ × α)}
    (h : ((kept ++ bindings).map (·.1)).Nodup) :
    bindings.foldl (fun kept (name, value) => bind name value kept) kept = kept ++ bindings := by
  induction bindings generalizing kept with
  | nil => simp
  | cons head rest ih =>
    obtain ⟨name, value⟩ := head
    have hnew : name ∉ kept.map (·.1) := by
      intro hmem
      rw [List.map_append, List.nodup_append] at h
      exact h.2.2 name hmem name (by simp) rfl
    have step : bind name value kept = kept ++ [(name, value)] := bind_of_not_mem hnew value
    rw [List.foldl_cons]
    simp only [step]
    rw [ih]
    · simp
    · simpa using h

theorem distinct_of_nodup {bindings : List (κ × α)} (h : (bindings.map (·.1)).Nodup) :
    distinct bindings = bindings :=
  foldl_of_nodup h

theorem bind_map (f : α → β) (name : κ) (value : α) (bindings : List (κ × α)) :
    bind name (f value) (bindings.map fun e => (e.1, f e.2)) =
      (bind name value bindings).map fun e => (e.1, f e.2) := by
  induction bindings with
  | nil => rfl
  | cons head rest ih =>
    obtain ⟨other, old⟩ := head
    simp only [List.map_cons, bind]
    split
    · rfl
    · rw [ih]
      rfl

theorem foldl_map (f : α → β) (kept bindings : List (κ × α)) :
    (bindings.map fun e => (e.1, f e.2)).foldl (fun kept (name, value) => bind name value kept)
        (kept.map fun e => (e.1, f e.2)) =
      (bindings.foldl (fun kept (name, value) => bind name value kept) kept).map
        fun e => (e.1, f e.2) := by
  induction bindings generalizing kept with
  | nil => rfl
  | cons head rest ih =>
    obtain ⟨name, value⟩ := head
    simp only [List.map_cons, List.foldl_cons, bind_map f name value kept]
    exact ih (bind name value kept)

theorem distinct_map (f : α → β) (bindings : List (κ × α)) :
    distinct (bindings.map fun e => (e.1, f e.2)) =
      (distinct bindings).map fun e => (e.1, f e.2) :=
  foldl_map f [] bindings

end ReleaseSchema.Bindings
