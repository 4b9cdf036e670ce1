/-
Maps made from lists of bindings. A map is made again from its own entries
(`ofList_entries`), and a map holds no binding that was not put into it
(`mem_ofList`). Bindings of several keys may be put in any order (`insert_comm`),
and what is looked for in the order of the keys is found under the least one
that has it (`findSome?_eq_some_iff`).
-/
import ReleaseSchema.SortedMap

namespace ReleaseSchema.SortedMap

open Bindings (lookup_cons)

variable {κ : Type u} {α : Type v} {β : Type w} [LT κ] [DecidableLT κ]

theorem mem_insertEntry {k : κ} {a : α} {l : List (κ × α)} {e : κ × α}
    (h : e ∈ insertEntry k a l) : e = (k, a) ∨ e ∈ l := by
  induction l with
  | nil => exact .inl (List.mem_singleton.1 h)
  | cons head rest ih =>
    obtain ⟨k', a'⟩ := head
    simp only [insertEntry] at h
    split at h
    · exact (List.mem_cons.1 h).imp id id
    · split at h
      · rcases List.mem_cons.1 h with rfl | h
        · exact .inr List.mem_cons_self
        · exact (ih h).imp id (List.mem_cons_of_mem _)
      · exact (List.mem_cons.1 h).imp id (List.mem_cons_of_mem _)

variable [LE κ] [Std.IsLinearOrder κ] [Std.LawfulOrderLT κ]

theorem mem_insert {k : κ} {a : α} {m : SortedMap κ α} {e : κ × α}
    (h : e ∈ (m.insert k a).entries) : e = (k, a) ∨ e ∈ m.entries :=
  mem_insertEntry h

theorem mem_foldl_insert {m : SortedMap κ α} {bindings : List (κ × α)} {e : κ × α}
    (h : e ∈ (bindings.foldl (fun m (k, a) => m.insert k a) m).entries) :
    e ∈ m.entries ∨ e ∈ bindings := by
  induction bindings generalizing m with
  | nil => exact .inl h
  | cons head rest ih =>
    rcases ih h with h | h
    · rcases mem_insert h with rfl | h
      · exact .inr List.mem_cons_self
      · exact .inl h
    · exact .inr (List.mem_cons_of_mem _ h)

theorem mem_ofList {bindings : List (κ × α)} {e : κ × α} (h : e ∈ (ofList bindings).entries) :
    e ∈ bindings :=
  (mem_foldl_insert h).elim (fun h => absurd h List.not_mem_nil) id

variable [DecidableEq κ]

/-- Bindings in ascending order are found where they are put, before those that were there. -/
theorem get?_foldl_insert {m : SortedMap κ α} {bindings : List (κ × α)}
    (h : bindings.Pairwise (·.1 < ·.1)) (x : κ) :
    (bindings.foldl (fun m (k, a) => m.insert k a) m).get? x =
      (bindings.lookup x).or (m.get? x) := by
  induction bindings generalizing m with
  | nil => rfl
  | cons head rest ih =>
    obtain ⟨k, a⟩ := head
    obtain ⟨hhead, hrest⟩ := List.pairwise_cons.1 h
    rw [List.foldl_cons, ih hrest, get?_insert, lookup_cons]
    by_cases hx : x = k
    · rw [hx, lookup_eq_none_of_lt hhead]
      simp
    · simp [hx]

theorem get?_ofList (bindings : List (κ × α)) (x : κ) :
    (ofList bindings).get? x = bindings.reverse.lookup x := by
  have put : ∀ m : SortedMap κ α, (bindings.foldl (fun m (k, a) => m.insert k a) m).get? x =
      (bindings.reverse.lookup x).or (m.get? x) := by
    induction bindings with
    | nil => exact fun _ => rfl
    | cons head rest ih =>
      obtain ⟨k, a⟩ := head
      intro m
      rw [List.foldl_cons, ih, get?_insert, List.reverse_cons, List.lookup_append, lookup_cons]
      by_cases hx : x = k <;> simp [hx]
  rw [ofList, put, get?_empty, Option.or_none]

theorem insert_comm {k k' : κ} (h : k ≠ k') (a a' : α) (m : SortedMap κ α) :
    (m.insert k a).insert k' a' = (m.insert k' a').insert k a := by
  refine ext_get? fun x => ?_
  simp only [get?_insert]
  by_cases hk : x = k
  · rw [if_pos hk, if_pos hk, if_neg (hk ▸ h)]
  · rw [if_neg hk, if_neg hk]

theorem insert_of_get? {k : κ} {a : α} {m : SortedMap κ α} (h : m.get? k = some a) :
    m.insert k a = m := by
  refine ext_get? fun x => ?_
  rw [get?_insert]
  split
  next hx => rw [hx, h]
  next => rfl

theorem ofList_entries (m : SortedMap κ α) : ofList m.entries = m := by
  refine ext_get? fun x => ?_
  rw [ofList, get?_foldl_insert m.sorted, get?_empty, Option.or_none]
  rfl

omit [DecidableLT κ] [DecidableEq κ] in
theorem nodup_keys (m : SortedMap κ α) : (m.entries.map (·.1)).Nodup := by
  rw [List.Nodup, List.pairwise_map]
  exact m.sorted.imp fun h => ne_of_lt h

omit [DecidableLT κ] in
/-- The first binding of an ascending list from which something is found. -/
theorem findSome?_eq_some_iff {f : α → Option β} {l : List (κ × α)} (h : l.Pairwise (·.1 < ·.1))
    {k : κ} {b : β} :
    l.findSome? (fun e => (f e.2).map (e.1, ·)) = some (k, b) ↔
      (l.lookup k).bind f = some b ∧ ∀ other, other < k → (l.lookup other).bind f = none := by
  induction l with
  | nil => simp
  | cons head rest ih =>
    obtain ⟨first, a⟩ := head
    obtain ⟨hhead, hrest⟩ := List.pairwise_cons.1 h
    have absent : ∀ x, ¬first < x → rest.lookup x = none := fun x hx =>
      lookup_eq_none_of_lt fun e he => Std.lt_of_le_of_lt (Std.not_lt.1 hx) (hhead e he)
    rw [List.findSome?_cons]
    cases hfirst : f a with
    | some found =>
      simp only [Option.map_some, Option.some.injEq, Prod.mk.injEq]
      constructor
      · rintro ⟨rfl, rfl⟩
        refine ⟨by rw [lookup_cons, if_pos rfl, Option.bind_some, hfirst], fun other hother => ?_⟩
        have before : ¬first < other := fun hlt => Std.lt_irrefl (Std.lt_trans hother hlt)
        rw [lookup_cons, if_neg (ne_of_lt hother), absent other before, Option.bind_none]
      · rintro ⟨hk, hnone⟩
        have here : ¬first < k := by
          intro hlt
          have := hnone first hlt
          rw [lookup_cons, if_pos rfl, Option.bind_some, hfirst] at this
          cases this
        rw [lookup_cons] at hk
        split at hk
        next heq =>
          rw [Option.bind_some, hfirst] at hk
          exact ⟨heq.symm, Option.some.inj hk⟩
        next =>
          rw [absent k here] at hk
          cases hk
    | none =>
      simp only [Option.map_none, ih hrest]
      have same : ∀ x, (((first, a) :: rest).lookup x).bind f = (rest.lookup x).bind f := by
        intro x
        rw [lookup_cons]
        split
        next heq => rw [heq, absent first Std.lt_irrefl, Option.bind_some, hfirst, Option.bind_none]
        next => rfl
      simp only [same]

omit [DecidableLT κ] [LE κ] [Std.IsLinearOrder κ] [Std.LawfulOrderLT κ] in
theorem get?_mapValues (f : κ → α → β) (m : SortedMap κ α) (x : κ) :
    (m.mapValues f).get? x = (m.get? x).map (f x) := by
  obtain ⟨entries, sorted⟩ := m
  simp only [get?, mapValues]
  clear sorted
  induction entries with
  | nil => rfl
  | cons head rest ih =>
    obtain ⟨k, a⟩ := head
    rw [List.map_cons, lookup_cons, lookup_cons, ih]
    by_cases hx : x = k
    · rw [if_pos hx, if_pos hx, hx]
      rfl
    · rw [if_neg hx, if_neg hx]

omit [DecidableLT κ] [LE κ] [Std.IsLinearOrder κ] [Std.LawfulOrderLT κ] [DecidableEq κ] in
theorem mapValues_eq_self_iff {f : κ → α → α} {m : SortedMap κ α} :
    m.mapValues f = m ↔ ∀ e ∈ m.entries, f e.1 e.2 = e.2 := by
  have entries : m.mapValues f = m ↔ m.entries.map (fun e => (e.1, f e.1 e.2)) = m.entries := by
    obtain ⟨entries, sorted⟩ := m
    simp [mapValues]
  have each := @List.map_inj_left _ _ m.entries (fun e => (e.1, f e.1 e.2)) id
  rw [List.map_id] at each
  rw [entries, each]
  refine forall_congr' fun e => forall_congr' fun _ => ?_
  exact ⟨fun h => congrArg Prod.snd h, fun h => Prod.ext rfl h⟩

end ReleaseSchema.SortedMap
