/-
What every built catalog has in common, whatever the releases and their files
say. The return types of its routines come from one reader of declared types,
so they are read back as they are written (`Catalog.readsBack_build`).
-/
import ReleaseSchema.Build
import ReleaseSchema.Proofs.Schema.Catalog

namespace ReleaseSchema

namespace Ddl

theorem namedRoutine_returnType (history : History) (name : List Char) :
    (namedRoutine history name).returnType = .void := by
  unfold namedRoutine
  split <;> rfl

theorem readsBack_void : ReturnType.void.ReadsBack := rfl

theorem readsBack_table : ReturnType.table.ReadsBack := rfl

theorem readsBack_returned (attributes : List Char) : (returned attributes).1.ReadsBack := by
  unfold returned
  split
  · exact readsBack_table
  split
  · exact readsBack_void
  split
  · exact ReturnType.readsBack_ofText _
  · exact readsBack_void

theorem readsBack_routine (history : History) (sql : List Char) :
    (routine history sql).returnType.ReadsBack := by
  unfold routine
  split
  · rw [namedRoutine_returnType]
    exact readsBack_void
  simp only
  split
  · rw [namedRoutine_returnType]
    exact readsBack_void
  · exact readsBack_returned _

theorem readsBack_entryOfText (history : History) (sql : List Char) (form : Form) :
    (entryOfText history sql form).ReadsBack := by
  cases form with
  | routine => exact readsBack_routine history sql
  | table | data | plain => trivial

theorem readsBack_ofHistory (history : History) (form : Form) :
    (Entry.ofHistory history form).ReadsBack := by
  cases form with
  | routine => exact readsBack_void
  | table | data | plain => trivial

theorem readsBack_entry (sources : Sources) (kind : Kind) (history : History) :
    (entry sources kind history).ReadsBack := by
  unfold entry
  split
  · trivial
  split
  · exact readsBack_entryOfText history _ _
  · exact readsBack_ofHistory history _

end Ddl

theorem Catalog.readsBack_build (manifests : List Manifest) (sources : Sources) :
    (build manifests sources).ReadsBack := by
  intro bucket hbucket e he
  obtain ⟨blank, -, rfl⟩ := List.mem_map.1 hbucket
  obtain ⟨folded, -, rfl⟩ := List.mem_map.1 he
  exact Ddl.readsBack_entry sources blank.1 folded.2

end ReleaseSchema
