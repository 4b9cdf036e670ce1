/-
Writing a file more than once. Where a file is written does not depend on what
is written (`Disk.exists_target`), and what is written last is all that is left:
the disk is the one on which nothing else was ever written there
(`Disk.write_of_write`).
-/
import ReleaseSchema.Proofs.Bindings
import ReleaseSchema.Proofs.Disk

namespace ReleaseSchema

theorem Node.put_put (old new : Node) (names : List String) (root : Node) :
    put new names (put old names root) = put new names root := by
  induction names generalizing root with
  | nil => rfl
  | cons name names ih =>
    cases root with
    | file content => cases names <;> rfl
    | folder entries =>
      cases names with
      | nil => rw [put, put, put, Bindings.bind_bind]
      | cons next names =>
        cases hnext : entries.lookup name with
        | none => simp only [put, hnext]
        | some child =>
          have there : (Bindings.bind name (put old (next :: names) child) entries).lookup name =
              some (put old (next :: names) child) := by
            rw [Bindings.lookup_bind, if_pos rfl]
          rw [put_cons (List.cons_ne_nil _ _) hnext, put_cons (List.cons_ne_nil _ _) there,
            put_cons (List.cons_ne_nil _ _) hnext, Bindings.bind_bind, ih]

namespace Disk

variable {d d' : Disk} {path : List Char} {content : ByteArray}

theorem put_put (d : Disk) (place : Place) (old new : Node) :
    (d.put place old).put place new = d.put place new := by
  simp only [put, Node.put_put]

/-- Where a file is written, or why it is not, does not depend on what is written. -/
theorem exists_target (d : Disk) (path : List Char) :
    ∃ target : Except FileError Place, ∀ content,
      d.write path content = target.map fun place => d.put place (.file content) := by
  unfold write
  by_cases hne : path.isEmpty = true
  · exact ⟨.error .notFound, fun _ => if_pos hne⟩
  simp only [hne, Bool.false_eq_true, if_false]
  rcases (d.steps path).2.getLast? with _ | last
  · exact ⟨.error .notFound, fun _ => rfl⟩
  by_cases hlast : (Path.isIdle last || decide (last = ['.', '.'])) = true
  · simp only [hlast, if_true]
    rcases d.node? path with e | node
    · exact ⟨.error e, fun _ => rfl⟩
    · exact ⟨.error .isADirectory, fun _ => rfl⟩
  simp only [hlast, Bool.false_eq_true, if_false]
  rcases d.walk? (d.steps path).1 (d.steps path).2.dropLast with e | place
  · exact ⟨.error e, fun _ => rfl⟩
  simp only [bind, Except.bind]
  rcases d.at? place with _ | ⟨old | entries⟩
  · exact ⟨.error .notFound, fun _ => rfl⟩
  · exact ⟨.error .notADirectory, fun _ => rfl⟩
  simp only
  rcases entries.lookup (String.ofList last) with _ | ⟨old | inner⟩
  · exact ⟨.ok (String.ofList last :: place), fun _ => rfl⟩
  · exact ⟨.ok (String.ofList last :: place), fun _ => rfl⟩
  · exact ⟨.error .isADirectory, fun _ => rfl⟩

theorem write_of_error {e : FileError} (h : d.write path content = .error e) (other : ByteArray) :
    d.write path other = .error e := by
  obtain ⟨target, htarget⟩ := exists_target d path
  rw [htarget] at h
  rcases target with e' | place
  · rw [htarget]
    exact h
  · cases h

theorem exists_write_of_write (h : d.write path content = .ok d') (other : ByteArray) :
    ∃ last, d.write path other = .ok last := by
  obtain ⟨target, htarget⟩ := exists_target d path
  rw [htarget] at h
  rcases target with e | place
  · cases h
  · exact ⟨_, htarget other⟩

/-- A file is written into the folder that its path leads to, if it has no folder of that name. -/
theorem write_of_walk? {segments : List (List Char)} {last : List Char} {place : Place}
    {entries : List (String × Node)} (hne : path ≠ [])
    (hsteps : (d.steps path).2 = segments ++ [last]) (hidle : Path.isIdle last = false)
    (hup : last ≠ ['.', '.']) (hwalk : d.walk? (d.steps path).1 segments = .ok place)
    (hplace : d.at? place = some (.folder entries))
    (hfile : ∀ inner, entries.lookup (String.ofList last) ≠ some (.folder inner))
    (content : ByteArray) :
    d.write path content = .ok (d.put (String.ofList last :: place) (.file content)) := by
  unfold write
  rw [if_neg (by simpa using hne)]
  simp only [hsteps, List.getLast?_append, List.getLast?_singleton, Option.some_or,
    List.dropLast_concat, hidle, hup, Bool.false_or, decide_false, Bool.false_eq_true, if_false, hwalk,
    bind, Except.bind, hplace]

/-- **Writing again.** A file that was written is written over as if for the first time. -/
theorem write_of_write (h : d.write path content = .ok d') (other : ByteArray) :
    d'.write path other = d.write path other := by
  obtain ⟨hne, segments, last, place, entries, hsteps, hidle, hup, hwalk, hplace, hfile, hput⟩ :=
    exists_of_write h
  have kept : Extends d d' := hput ▸ put_extends hplace hfile (.file content)
  have hplace' : d'.at? place =
      some (.folder (Bindings.bind (String.ofList last) (.file content) entries)) :=
    hput ▸ at?_put_folder hplace _ (.file content)
  have hfile' : ∀ inner, (Bindings.bind (String.ofList last) (.file content) entries).lookup
      (String.ofList last) ≠ some (.folder inner) := by
    simp [Bindings.lookup_bind]
  have hsteps' : (d'.steps path).2 = segments ++ [last] := by rw [kept.steps, hsteps]
  have hwalk' : d'.walk? (d'.steps path).1 segments = .ok place := by
    rw [kept.steps]
    exact walk?_of_extends kept hwalk
  rw [write_of_walk? hne hsteps hidle hup hwalk hplace hfile,
    write_of_walk? hne hsteps' hidle hup hwalk' hplace' hfile', hput, put_put]

end Disk

end ReleaseSchema
