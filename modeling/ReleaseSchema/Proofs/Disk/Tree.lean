/-
Disks whose folders are as a file system keeps them: each name leads somewhere, and
no two entries have the same one (`Node.IsTree`). There the names that a folder lists
are in order and each once (`Disk.names_ascending`), something is there under each of
them and under no other (`Disk.mem_names`), and a path with a name at its end leads on
from where the path in front of it does (`Disk.find?_join`).
-/
import ReleaseSchema.Proofs.Bindings
import ReleaseSchema.Proofs.Disk.Files
import ReleaseSchema.Proofs.Path

namespace ReleaseSchema

/-- The entries of every folder have names, each its own. -/
inductive Node.IsTree : Node → Prop
  | file (content : ByteArray) : IsTree (.file content)
  | empty : IsTree (.folder [])
  | entry {name : String} {node : Node} {others : List (String × Node)}
      (named : Path.IsName name.toList) (own : name ∉ others.map (·.1)) (inner : node.IsTree)
      (outer : IsTree (.folder others)) : IsTree (.folder ((name, node) :: others))

namespace Node.IsTree

variable {entries : List (String × Node)} {name : String} {node found : Node}

theorem nodup (h : IsTree (.folder entries)) : (entries.map (·.1)).Nodup := by
  induction entries with
  | nil => exact List.nodup_nil
  | cons first others ih =>
    cases h with
    | entry named own inner outer => exact List.nodup_cons.2 ⟨own, ih outer⟩

theorem of_mem (h : IsTree (.folder entries)) (hmem : (name, node) ∈ entries) :
    Path.IsName name.toList ∧ node.IsTree := by
  induction entries with
  | nil => exact absurd hmem List.not_mem_nil
  | cons first others ih =>
    cases h with
    | entry named own inner outer =>
      rcases List.mem_cons.1 hmem with same | hmem
      · cases same
        exact ⟨named, inner⟩
      · exact ih outer hmem

theorem of_lookup (h : IsTree (.folder entries)) (hname : entries.lookup name = some node) :
    Path.IsName name.toList ∧ node.IsTree :=
  h.of_mem ((Bindings.lookup_eq_some_iff_mem h.nodup).1 hname)

theorem of_descend? (h : IsTree node) {names : List String}
    (hfound : node.descend? names = some found) : IsTree found := by
  induction names generalizing node with
  | nil =>
    cases hfound
    exact h
  | cons name names ih =>
    obtain ⟨entries, next, rfl, hnext, hrest⟩ := exists_of_descend?_cons hfound
    exact ih (h.of_lookup hnext).2 hrest

end Node.IsTree

namespace Disk

variable {d : Disk} {path name : List Char} {place : Place}

theorem isTree_of_at? (tree : d.root.IsTree) {node : Node} (h : d.at? place = some node) :
    node.IsTree :=
  tree.of_descend? h

theorem isName_of_at? (tree : d.root.IsTree) {name : String} {node : Node}
    (h : d.at? (name :: place) = some node) : Path.IsName name.toList := by
  obtain ⟨entries, hplace, hentry⟩ := exists_of_at?_cons h
  exact ((isTree_of_at? tree hplace).of_lookup hentry).1

/-! ## Paths with a name at the end -/

/-- Where a path leads from the working folder, which is where an empty one leads. -/
def home? (d : Disk) (path : List Char) : Except FileError Place :=
  d.walk? (d.steps path).1 (d.steps path).2

theorem find?_eq_home? (hne : path ≠ []) : d.find? path = d.home? path :=
  if_neg (by simpa using hne)

theorem steps_child (hne : path ≠ []) (h : '/' ∉ name) :
    d.steps (path ++ '/' :: name) = ((d.steps path).1, (d.steps path).2 ++ [name]) := by
  obtain ⟨c, path, rfl⟩ := List.exists_cons_of_ne_nil hne
  by_cases hroot : c = '/'
  · subst hroot
    exact congrArg (Prod.mk _) (Path.segments_child path h)
  · have whole := Path.segments_child (c :: path) h
    rw [List.cons_append] at whole
    simp [steps, hroot, whole]

/-- A name takes the place of what is idle at the end of a path, or goes behind it. -/
theorem steps_join (h : Path.IsName name) (d : Disk) (path : List Char) :
    ∃ segments idle, (d.steps path).2 = segments ++ idle ∧
      (∀ segment ∈ idle, Path.isIdle segment = true) ∧
      d.steps (Path.join path name) = ((d.steps path).1, segments ++ [name]) := by
  have alone : Path.segments name = [name] := List.splitOn_eq_singleton h.noSlash
  by_cases hlast : path.getLast? = some '/'
  · obtain ⟨front, rfl⟩ := List.getLast?_eq_some_iff.1 hlast
    have joined : Path.join (front ++ ['/']) name = front ++ '/' :: name := by
      rw [Path.join_of_relative h.relative, Path.base, hlast]
      simp
    rw [joined]
    by_cases hfront : front = []
    · subst hfront
      exact ⟨[], [[]], rfl, by simp [Path.isIdle], congrArg (Prod.mk _) alone⟩
    · refine ⟨(d.steps front).2, [[]], ?_, by simp [Path.isIdle], ?_⟩
      · rw [steps_child hfront (by simp)]
      · rw [steps_child hfront h.noSlash, steps_child hfront (by simp)]
  · by_cases hpath : path = []
    · subst hpath
      refine ⟨[], [[]], rfl, by simp [Path.isIdle], ?_⟩
      rw [Path.join_of_relative h.relative]
      obtain ⟨c, rest, rfl⟩ := List.exists_cons_of_ne_nil h.ne_nil
      have hc : c ≠ '/' := by simpa using h.relative
      simp [Path.base, steps, hc, alone]
    · refine ⟨(d.steps path).2, [], by simp, by simp, ?_⟩
      rw [Path.join_of_name h hpath hlast, steps_child hpath h.noSlash]

theorem eq_of_walk?_idle {idle : List (List Char)}
    (h : ∀ segment ∈ idle, Path.isIdle segment = true) {found : Place}
    (hwalk : d.walk? place idle = .ok found) : found = place := by
  induction idle with
  | nil =>
    cases hwalk
    rfl
  | cons segment idle ih =>
    obtain ⟨entries, next, -, hturn, hrest⟩ := walk?_cons_eq_ok_iff.1 hwalk
    rw [turn?, if_pos (h segment List.mem_cons_self)] at hturn
    cases hturn
    exact ih (fun other hother => h other (List.mem_cons_of_mem _ hother)) hrest

/-- **Names behind a path.** A name leads to what has it in the folder that the path leads to. -/
theorem find?_join (h : Path.IsName name) :
    d.find? (Path.join path name) = .ok place ↔
      ∃ home node, d.home? path = .ok home ∧ d.at? (String.ofList name :: home) = some node ∧
        place = String.ofList name :: home := by
  obtain ⟨segments, idle, hsteps, hidle, hjoined⟩ := steps_join h d path
  have turn (entries : List (String × Node)) (home : Place) : turn? entries home name =
      if (entries.lookup (String.ofList name)).isSome then some (String.ofList name :: home)
      else none := by
    rw [turn?, if_neg (by simp [h.leads]), if_neg h.notUp]
  rw [find?_eq_home? (h.join_end path).1, home?, home?, hjoined, hsteps]
  constructor
  · intro hwalk
    obtain ⟨home, hhome, hname⟩ := exists_of_walk?_append hwalk
    obtain ⟨entries, next, hplace, hturn, hend⟩ := walk?_cons_eq_ok_iff.1 hname
    rw [turn] at hturn
    split at hturn
    next there =>
      cases hturn
      cases hend
      obtain ⟨node, hnode⟩ := Option.isSome_iff_exists.1 there
      refine ⟨home, node, ?_, ?_, rfl⟩
      · rw [walk?_append hhome, walk?_of_idle hidle hplace]
      · rw [at?_cons, hplace]
        exact hnode
    next => cases hturn
  · rintro ⟨home, node, hhome, hnode, rfl⟩
    obtain ⟨entries, hplace, hentry⟩ := exists_of_at?_cons hnode
    obtain ⟨middle, hmiddle, hrest⟩ := exists_of_walk?_append hhome
    obtain rfl := eq_of_walk?_idle hidle hrest
    rw [walk?_append hmiddle, walk?_cons hplace, turn, hentry]
    rfl

/-! ## The names in a folder -/

theorem names_of_find? {entries : List (String × Node)} (hfind : d.find? path = .ok place)
    (hplace : d.at? place = some (.folder entries)) (p : Node → Bool) :
    d.names p path =
      ((entries.filter fun (_, node) => p node).map (·.1)).mergeSort fun a b => decide (a ≤ b) := by
  rw [names, node?, hfind]
  simp only [bind, Except.bind, hplace]

theorem mergeSort_ascending {names : List String} (h : names.Nodup) :
    (names.mergeSort fun a b => decide (a ≤ b)).Pairwise (· < ·) := by
  have own := (List.mergeSort_perm names fun a b => decide (a ≤ b)).nodup_iff.2 h
  have sorted : (names.mergeSort fun a b => decide (a ≤ b)).Pairwise fun a b =>
      decide (a ≤ b) = true := by
    refine List.pairwise_mergeSort (fun a b c hab hbc => ?_) (fun a b => ?_) names
    · exact decide_eq_true (String.le_trans (of_decide_eq_true hab) (of_decide_eq_true hbc))
    · simpa using String.le_total a b
  exact sorted.imp₂ (fun a b hab hne => Std.lt_of_le_of_ne (of_decide_eq_true hab) hne) own

theorem mem_names (tree : d.root.IsTree) {entries : List (String × Node)}
    (hfind : d.find? path = .ok place) (hplace : d.at? place = some (.folder entries))
    {p : Node → Bool} {name : String} :
    name ∈ d.names p path ↔ ∃ node, d.at? (name :: place) = some node ∧ p node = true := by
  have names := (isTree_of_at? tree hplace).nodup
  have there (node : Node) : d.at? (name :: place) = some node ↔ (name, node) ∈ entries := by
    rw [at?_cons, hplace, ← Bindings.lookup_eq_some_iff_mem names]
    rfl
  simp only [names_of_find? hfind hplace, List.mem_mergeSort, List.mem_map, List.mem_filter,
    there]
  constructor
  · rintro ⟨⟨_, node⟩, ⟨hmem, hp⟩, rfl⟩
    exact ⟨node, hmem, hp⟩
  · rintro ⟨node, hmem, hp⟩
    exact ⟨(name, node), ⟨hmem, hp⟩, rfl⟩

theorem names_ascending (tree : d.root.IsTree) (p : Node → Bool) (path : List Char) :
    (d.names p path).Pairwise (· < ·) := by
  rw [names]
  split
  next entries hnode =>
    have folder : (Node.folder entries).IsTree := by
      rw [node?] at hnode
      rcases hfind : d.find? path with e | place
      · rw [hfind] at hnode
        cases hnode
      · rw [hfind] at hnode
        simp only [bind, Except.bind] at hnode
        split at hnode
        next node hplace =>
          cases hnode
          exact isTree_of_at? tree hplace
        next => cases hnode
    have found : ((entries.filter fun (_, node) => p node).map (·.1)).Nodup :=
      folder.nodup.sublist (List.filter_sublist.map _)
    exact mergeSort_ascending found
  next => exact List.Pairwise.nil

end Disk

end ReleaseSchema
