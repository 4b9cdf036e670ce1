/-
Finite maps kept as lists in ascending order of their keys. `insert` changes
the one binding it names (`get?_insert_self`, `get?_insert_other`), and two
maps that answer alike are the same value (`ext_get?`).
-/
import ReleaseSchema.Bindings

namespace ReleaseSchema

/-- Bindings in strictly ascending order of their keys. -/
structure SortedMap (κ : Type u) (α : Type v) [LT κ] where
  entries : List (κ × α)
  sorted : entries.Pairwise (·.1 < ·.1)

namespace SortedMap

open Bindings (lookup_cons)

section Views

variable {κ : Type u} {α : Type v} {β : Type w} [LT κ]

def empty : SortedMap κ α := ⟨[], .nil⟩

instance : Inhabited (SortedMap κ α) := ⟨empty⟩

def keys (m : SortedMap κ α) : List κ := m.entries.map (·.1)

def values (m : SortedMap κ α) : List α := m.entries.map (·.2)

def size (m : SortedMap κ α) : Nat := m.entries.length

def isEmpty (m : SortedMap κ α) : Bool := m.entries.isEmpty

/-- Every value changed, with its key known. -/
def mapValues (f : κ → α → β) (m : SortedMap κ α) : SortedMap κ β :=
  ⟨m.entries.map fun (k, a) => (k, f k a), List.pairwise_map.2 m.sorted⟩

def get? [DecidableEq κ] (k : κ) (m : SortedMap κ α) : Option α := m.entries.lookup k

def contains [DecidableEq κ] (k : κ) (m : SortedMap κ α) : Bool := (m.get? k).isSome

instance [DecidableEq κ] [DecidableEq α] : DecidableEq (SortedMap κ α) := fun a b =>
  if h : a.entries = b.entries then .isTrue (by cases a; cases b; cases h; rfl)
  else .isFalse fun e => h (e ▸ rfl)

/-- Puts a binding at its place in an ascending list, over an older one of the same key. -/
def insertEntry [DecidableLT κ] (k : κ) (a : α) : List (κ × α) → List (κ × α)
  | [] => [(k, a)]
  | (k', a') :: rest =>
    if k < k' then (k, a) :: (k', a') :: rest
    else if k' < k then (k', a') :: insertEntry k a rest
    else (k, a) :: rest

theorem key_of_mem_insertEntry [DecidableLT κ] {k : κ} {a : α} {l : List (κ × α)} {e : κ × α}
    (h : e ∈ insertEntry k a l) : e.1 = k ∨ e ∈ l := by
  induction l with
  | nil => simp only [insertEntry, List.mem_singleton] at h; exact .inl (h ▸ rfl)
  | cons head rest ih =>
    obtain ⟨k', a'⟩ := head
    simp only [insertEntry] at h
    split at h
    · exact (List.mem_cons.1 h).imp (congrArg Prod.fst ·) id
    · split at h
      · rcases List.mem_cons.1 h with rfl | h
        · exact .inr List.mem_cons_self
        · exact (ih h).imp id (List.mem_cons_of_mem _)
      · exact (List.mem_cons.1 h).imp (congrArg Prod.fst ·) (List.mem_cons_of_mem _)

@[simp] theorem get?_empty [DecidableEq κ] (x : κ) : (empty : SortedMap κ α).get? x = none := rfl

end Views

section Order

variable {κ : Type u} {α : Type v} [LT κ] [LE κ] [Std.IsLinearOrder κ] [Std.LawfulOrderLT κ]

theorem eq_of_not_lt {a b : κ} (h : ¬a < b) (h' : ¬b < a) : a = b :=
  Std.le_antisymm (Std.not_lt.1 h') (Std.not_lt.1 h)

omit [Std.IsLinearOrder κ] in
theorem ne_of_lt [Std.IsPreorder κ] {a b : κ} (h : a < b) : a ≠ b := fun e => Std.lt_irrefl (e ▸ h)

theorem pairwise_insertEntry [DecidableLT κ] (k : κ) (a : α) {l : List (κ × α)}
    (h : l.Pairwise (·.1 < ·.1)) : (insertEntry k a l).Pairwise (·.1 < ·.1) := by
  induction l with
  | nil => simp [insertEntry]
  | cons head rest ih =>
    obtain ⟨k', a'⟩ := head
    obtain ⟨hhead, hrest⟩ := List.pairwise_cons.1 h
    simp only [insertEntry]
    split
    next hlt =>
      refine List.pairwise_cons.2 ⟨fun e he => ?_, h⟩
      rcases List.mem_cons.1 he with rfl | he
      · exact hlt
      · exact Std.lt_trans hlt (hhead e he)
    next hge =>
      split
      next hgt =>
        refine List.pairwise_cons.2 ⟨fun e he => ?_, ih hrest⟩
        rcases key_of_mem_insertEntry he with he | he
        · exact he ▸ hgt
        · exact hhead e he
      next hle =>
        have := eq_of_not_lt hge hle
        subst this
        exact List.pairwise_cons.2 ⟨hhead, hrest⟩

/-- The map with a key bound to a value, whatever it was bound to. -/
def insert [DecidableLT κ] (k : κ) (a : α) (m : SortedMap κ α) : SortedMap κ α :=
  ⟨insertEntry k a m.entries, pairwise_insertEntry k a m.sorted⟩

/-- The bindings of a list; of two for one key the later counts. -/
def ofList [DecidableLT κ] (bindings : List (κ × α)) : SortedMap κ α :=
  bindings.foldl (fun m (k, a) => m.insert k a) empty

/-- Changes the value of a key, which is `start` where the key is not bound. -/
def alter [DecidableLT κ] [DecidableEq κ] (k : κ) (start : α) (f : α → α) (m : SortedMap κ α) :
    SortedMap κ α :=
  m.insert k (f ((m.get? k).getD start))

variable [DecidableEq κ]

theorem lookup_insertEntry [DecidableLT κ] (k x : κ) (a : α) (l : List (κ × α)) :
    (insertEntry k a l).lookup x = if x = k then some a else l.lookup x := by
  induction l with
  | nil => exact lookup_cons k x a []
  | cons head rest ih =>
    obtain ⟨k', a'⟩ := head
    simp only [insertEntry]
    split
    next => exact lookup_cons k x a _
    next hge =>
      split
      next hgt =>
        simp only [lookup_cons, ih]
        by_cases h : x = k
        · simp [h, (ne_of_lt hgt).symm]
        · simp [h]
      next hle =>
        have := eq_of_not_lt hge hle
        subst this
        by_cases h : x = k <;> simp [lookup_cons, h]

theorem get?_insert [DecidableLT κ] (k x : κ) (a : α) (m : SortedMap κ α) :
    (m.insert k a).get? x = if x = k then some a else m.get? x :=
  lookup_insertEntry k x a m.entries

@[simp] theorem get?_insert_self [DecidableLT κ] (k : κ) (a : α) (m : SortedMap κ α) :
    (m.insert k a).get? k = some a := by
  simp [get?_insert]

theorem get?_insert_other [DecidableLT κ] {k x : κ} (h : x ≠ k) (a : α) (m : SortedMap κ α) :
    (m.insert k a).get? x = m.get? x := by
  simp [get?_insert, h]

theorem get?_alter [DecidableLT κ] (k x : κ) (start : α) (f : α → α) (m : SortedMap κ α) :
    (m.alter k start f).get? x = if x = k then some (f ((m.get? k).getD start)) else m.get? x :=
  get?_insert k x _ m

theorem lookup_eq_none_of_lt {x : κ} {l : List (κ × α)} (h : ∀ e ∈ l, x < e.1) :
    l.lookup x = none := by
  induction l with
  | nil => rfl
  | cons head rest ih =>
    rw [lookup_cons, if_neg (ne_of_lt (h head List.mem_cons_self))]
    exact ih fun e he => h e (List.mem_cons_of_mem _ he)

theorem not_lt_of_lookup {k k' : κ} {a : α} {l' : List (κ × α)}
    (h' : ∀ e ∈ l', k' < e.1) {a' : α} (same : ((k', a') :: l').lookup k = some a) : ¬k < k' := by
  intro hlt
  rw [lookup_eq_none_of_lt] at same
  · cases same
  · intro e he
    rcases List.mem_cons.1 he with rfl | he
    · exact hlt
    · exact Std.lt_trans hlt (h' e he)

theorem entries_ext {l l' : List (κ × α)} (h : l.Pairwise (·.1 < ·.1))
    (h' : l'.Pairwise (·.1 < ·.1)) (same : ∀ x, l.lookup x = l'.lookup x) : l = l' := by
  induction l generalizing l' with
  | nil =>
    cases l' with
    | nil => rfl
    | cons head rest => have := same head.1; rw [lookup_cons, if_pos rfl] at this; cases this
  | cons head rest ih =>
    obtain ⟨k, a⟩ := head
    obtain ⟨hhead, hrest⟩ := List.pairwise_cons.1 h
    cases l' with
    | nil => have := same k; rw [lookup_cons, if_pos rfl] at this; cases this
    | cons head' rest' =>
      obtain ⟨k', a'⟩ := head'
      obtain ⟨hhead', hrest'⟩ := List.pairwise_cons.1 h'
      have at_k := same k
      have at_k' := same k'
      rw [lookup_cons, if_pos rfl] at at_k
      rw [lookup_cons k' k' a', if_pos rfl] at at_k'
      have hk : k = k' :=
        eq_of_not_lt (not_lt_of_lookup hhead' at_k.symm) (not_lt_of_lookup hhead at_k')
      subst hk
      rw [lookup_cons, if_pos rfl] at at_k
      cases at_k
      have : rest = rest' := by
        refine ih hrest hrest' fun x => ?_
        by_cases hx : x = k
        · rw [hx, lookup_eq_none_of_lt hhead, lookup_eq_none_of_lt hhead']
        · have := same x
          rwa [lookup_cons, lookup_cons, if_neg hx, if_neg hx] at this
      rw [this]

/-- Maps that answer alike for every key are equal. -/
theorem ext_get? {m m' : SortedMap κ α} (h : ∀ x, m.get? x = m'.get? x) : m = m' := by
  have := entries_ext m.sorted m'.sorted h
  cases m; cases m'; cases this; rfl

end Order

end SortedMap

end ReleaseSchema
