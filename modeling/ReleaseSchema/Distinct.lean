/-
Lists with every element once, at its first place.
-/
namespace ReleaseSchema

/-- Adds an element at the end unless the list has it. -/
def addDistinct [BEq α] (xs : List α) (x : α) : List α := if xs.contains x then xs else xs ++ [x]

/-- The elements of a list without what has occurred before. -/
def distinct [BEq α] (xs : List α) : List α := xs.foldl addDistinct []

theorem mem_addDistinct [BEq α] [LawfulBEq α] {xs : List α} {x y : α} :
    y ∈ addDistinct xs x ↔ y ∈ xs ∨ y = x := by
  unfold addDistinct
  split
  next h =>
    have hmem : x ∈ xs := by simpa using h
    exact ⟨.inl, fun h => h.elim id (· ▸ hmem)⟩
  next => simp

theorem mem_foldl_addDistinct [BEq α] [LawfulBEq α] {xs ys : List α} {y : α} :
    y ∈ ys.foldl addDistinct xs ↔ y ∈ xs ∨ y ∈ ys := by
  induction ys generalizing xs with
  | nil => simp
  | cons x rest ih => rw [List.foldl_cons, ih, mem_addDistinct, List.mem_cons, or_assoc]

theorem foldl_addDistinct_sublist [BEq α] (xs ys : List α) :
    (ys.foldl addDistinct xs).Sublist (xs ++ ys) := by
  induction ys generalizing xs with
  | nil => simp
  | cons y rest ih =>
    rw [List.foldl_cons]
    refine (ih (addDistinct xs y)).trans ?_
    unfold addDistinct
    split
    · exact List.Sublist.append_left (List.sublist_cons_self y rest) xs
    · simp

end ReleaseSchema
