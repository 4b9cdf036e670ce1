/-
The order of a list without its repeats. Every element stands where the list has
it first (`pairwise_idxOf_distinct`), so none stands twice.
-/
import Mathlib.Data.List.Basic
import Mathlib.Data.List.Induction
import ReleaseSchema.Distinct

namespace ReleaseSchema

theorem distinct_concat [BEq α] (xs : List α) (x : α) :
    distinct (xs ++ [x]) = addDistinct (distinct xs) x := by
  rw [distinct, List.foldl_append]
  rfl

variable {α : Type u} [BEq α] [LawfulBEq α] {xs : List α} {x : α}

theorem mem_distinct : x ∈ distinct xs ↔ x ∈ xs := by
  rw [distinct, mem_foldl_addDistinct]
  simp

/-- The elements are in the order of their first places in the list. -/
theorem pairwise_idxOf_distinct (xs : List α) :
    (distinct xs).Pairwise (xs.idxOf · < xs.idxOf ·) := by
  induction xs using List.reverseRecOn with
  | nil => exact .nil
  | append_singleton xs x ih =>
    have kept : (distinct xs).Pairwise ((xs ++ [x]).idxOf · < (xs ++ [x]).idxOf ·) := by
      refine ih.imp_of_mem fun ha hb h => ?_
      rwa [List.idxOf_append_of_mem (mem_distinct.1 ha),
        List.idxOf_append_of_mem (mem_distinct.1 hb)]
    rw [distinct_concat, addDistinct]
    split
    next => exact kept
    next absent =>
      have hx : x ∉ xs := fun hx => absent (List.contains_iff_mem.2 (mem_distinct.2 hx))
      refine List.pairwise_append.2 ⟨kept, List.pairwise_singleton _ x, fun a ha b hb => ?_⟩
      obtain rfl := List.mem_singleton.1 hb
      have first := List.idxOf_lt_length_of_mem (mem_distinct.1 ha)
      rw [List.idxOf_append_of_mem (mem_distinct.1 ha), List.idxOf_append_of_notMem hx]
      exact Nat.lt_of_lt_of_le first (Nat.le_add_right ..)

theorem nodup_distinct (xs : List α) : (distinct xs).Nodup :=
  (pairwise_idxOf_distinct xs).imp fun h same => Nat.ne_of_lt h (congrArg xs.idxOf same)

end ReleaseSchema
