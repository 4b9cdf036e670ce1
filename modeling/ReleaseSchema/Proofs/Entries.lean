/-
The entries of a built catalog and what they depend on. They are the objects of
the fold, each with its folded history and in the form of its kind
(`Catalog.object?_build`), and an entry depends on the text of its own latest file
and on no other file (`Ddl.entry_congr`). So two runs that read the latest file
of an object alike give it one entry, whatever else they read
(`Catalog.entries_of_fold`).
-/
import ReleaseSchema.Build
import ReleaseSchema.Proofs.Release.Order
import ReleaseSchema.Proofs.SortedMap

namespace ReleaseSchema

/-! ## One entry -/

namespace Ddl

variable (sources : Sources) (kind : Kind) (history : History)

theorem namedTable_history (tags : TagMap) (name : List Char) :
    (namedTable history tags name).history = history := by
  unfold namedTable
  split <;> rfl

theorem namedRoutine_history (name : List Char) : (namedRoutine history name).history = history := by
  unfold namedRoutine
  split <;> rfl

theorem table_history (sql : List Char) : (table history sql).history = history := by
  unfold table
  extract_lets create tags definition
  split
  · exact namedTable_history history _ _
  next name list _ =>
    extract_lets named
    have kept : named.history = history := namedTable_history history tags name
    split
    · exact kept
    · exact kept

theorem routine_history (sql : List Char) : (routine history sql).history = history := by
  unfold routine
  split
  · exact namedRoutine_history history _
  next name list _ =>
    extract_lets named
    have kept : named.history = history := namedRoutine_history history name
    split
    · exact kept
    · exact kept

theorem entryOfText_history (sql : List Char) (form : Form) :
    (entryOfText history sql form).history = history := by
  cases form with
  | table => exact table_history history sql
  | routine => exact routine_history history sql
  | data => rfl
  | plain => rfl

theorem entryOfText_form (sql : List Char) (form : Form) :
    (entryOfText history sql form).form = form := by
  cases form <;> rfl

theorem ofHistory_history (form : Form) : (Entry.ofHistory history form).history = history := by
  cases form <;> rfl

theorem ofHistory_form (form : Form) : (Entry.ofHistory history form).form = form := by
  cases form <;> rfl

theorem entry_of_unreadable (h : sources history.latestFile = none) :
    entry sources kind history = .ofHistory history kind.form := by
  unfold entry
  split
  next hform => rw [hform, Entry.ofHistory]
  · rw [h]

theorem entry_history : (entry sources kind history).history = history := by
  unfold entry
  split
  · rfl
  split
  · exact entryOfText_history history _ _
  · exact ofHistory_history history _

theorem entry_form : (entry sources kind history).form = kind.form := by
  unfold entry
  split
  next hform => exact hform.symm
  split
  · exact entryOfText_form history _ _
  · exact ofHistory_form history _

variable {sources kind history}

/-- An entry needs no other file than the latest one of its object. -/
theorem entry_congr {others : Sources}
    (h : sources history.latestFile = others history.latestFile) :
    entry sources kind history = entry others kind history := by
  unfold entry
  rw [h]

end Ddl

/-! ## All entries -/

namespace Catalog

/-- The entry of a kind and name, if the catalog has one. -/
def object? (c : Catalog) (kind : Kind) (name : String) : Option Entry :=
  (c.bucket? kind).bind (·.get? name)

theorem get?_blank (kind : Kind) :
    blank.buckets.get? kind = if kind = .unknown then none else some .empty := by
  cases kind <;> rfl

/-- The entries of a built catalog are made of the histories of the fold, and of nothing else. -/
theorem object?_build (manifests : List Manifest) (sources : Sources) (kind : Kind) (name : String) :
    (build manifests sources).object? kind name =
      ((Manifest.fold manifests).history? kind name).map (Ddl.entry sources kind) := by
  have bucket : (build manifests sources).bucket? kind =
      (bucketsOf sources (Manifest.fold manifests)).get? kind := rfl
  rw [object?, bucket, bucketsOf, SortedMap.get?_mapValues, get?_blank]
  by_cases hkind : kind = .unknown
  · -- no history has the kind of files that define no object
    have none : (Manifest.fold manifests).history? kind name = none := by
      rw [(Manifest.matches_fold manifests).history?, Listed.history?, if_pos (.inl hkind)]
    rw [if_pos hkind, none]
    rfl
  · rw [if_neg hkind, Option.map_some, Option.bind_some, SortedMap.get?_mapValues,
      Folded.get?_bucket]

/-- **The entries of a catalog.** A built catalog has an entry for every object of the fold, under
its kind and name, and no others; the entry has the folded history and the form of its kind. Sources
that give the same for the latest file of an object give it the same entry. An object whose latest
file cannot be read has its history and nothing more, and no object with another latest file
notices. -/
theorem entries_of_fold (manifests : List Manifest) :
    (∀ sources kind name,
      ((build manifests sources).object? kind name).map Entry.history =
        (Manifest.fold manifests).history? kind name) ∧
    (∀ sources kind name entry, (build manifests sources).object? kind name = some entry →
      entry.form = kind.form) ∧
    (∀ sources others kind name history,
      (Manifest.fold manifests).history? kind name = some history →
      sources history.latestFile = others history.latestFile →
        (build manifests sources).object? kind name = (build manifests others).object? kind name) ∧
    (∀ sources kind name history,
      (Manifest.fold manifests).history? kind name = some history →
      sources history.latestFile = none →
        (build manifests sources).object? kind name = some (.ofHistory history kind.form)) ∧
    (∀ sources others file, (∀ path, path ≠ file → sources path = others path) →
      ∀ kind name history, (Manifest.fold manifests).history? kind name = some history →
        history.latestFile ≠ file →
        (build manifests sources).object? kind name =
          (build manifests others).object? kind name) := by
  have alike : ∀ (sources others : Sources) kind name history,
      (Manifest.fold manifests).history? kind name = some history →
      sources history.latestFile = others history.latestFile →
        (build manifests sources).object? kind name =
          (build manifests others).object? kind name := by
    intro sources others kind name history hhistory h
    rw [object?_build, object?_build, hhistory, Option.map_some, Option.map_some,
      Ddl.entry_congr h]
  refine ⟨fun sources kind name => ?_, fun sources kind name entry h => ?_, alike,
    fun sources kind name history hhistory h => ?_,
    fun sources others file h kind name history hhistory hfile => ?_⟩
  · rw [object?_build, Option.map_map]
    exact (Option.map_congr fun history _ => Ddl.entry_history sources kind history).trans
      Option.map_id'
  · rw [object?_build, Option.map_eq_some_iff] at h
    obtain ⟨history, -, rfl⟩ := h
    exact Ddl.entry_form sources kind history
  · rw [object?_build, hhistory, Option.map_some, Ddl.entry_of_unreadable sources kind history h]
  · exact alike sources others kind name history hhistory (h _ hfile)

/-- A release with a table and a function. -/
def userRelease : Manifest :=
  { fileName := "app/postgres/release/1.0.0.0/version.json"
    versionName := "1.0.0.0"
    steps := [{ files := [⟨.table, "abct_user_usr", "03-tables/abct_user_usr.sql"⟩,
      ⟨.function, "abcf_user", "07-functions/abcf_user.sql"⟩] }] }

/-- Without the file of the table, its entry has the history only, and the function has the entry
that it has with that file. -/
theorem entries_of_fold_lost_table :
    let sources : Sources := fun path =>
      if path = "03-tables/abct_user_usr.sql" then none
      else some "create function abcf_user(p_id int) returns text language sql as $$ $$;"
    let others : Sources := fun path =>
      if path = "03-tables/abct_user_usr.sql" then some "create table abct_user_usr (usr_a int);"
      else some "create function abcf_user(p_id int) returns text language sql as $$ $$;"
    let tableHistory : History :=
      .ofRevisions "abct_user_usr" [⟨"1.0.0.0", "03-tables/abct_user_usr.sql"⟩]
    (Manifest.fold [userRelease]).history? .table "abct_user_usr" = some tableHistory ∧
      (build [userRelease] sources).object? .table "abct_user_usr" =
        some (.table { history := tableHistory }) ∧
      (build [userRelease] sources).object? .function "abcf_user" =
        (build [userRelease] others).object? .function "abcf_user" ∧
      ((build [userRelease] sources).object? .function "abcf_user").isSome := by
  intro sources others tableHistory
  have hfold : Manifest.fold [userRelease] = [userRelease].foldl Folded.addManifest {} :=
    Manifest.fold_of_sorted (by decide +kernel) (by decide +kernel)
  have table : (Manifest.fold [userRelease]).history? .table "abct_user_usr" = some tableHistory := by
    rw [hfold]
    decide +kernel
  have function : (Manifest.fold [userRelease]).history? .function "abcf_user" =
      some (.ofRevisions "abcf_user" [⟨"1.0.0.0", "07-functions/abcf_user.sql"⟩]) := by
    rw [hfold]
    decide +kernel
  obtain ⟨objects, -, alike, unreadable, -⟩ := entries_of_fold [userRelease]
  refine ⟨table, unreadable sources _ _ _ table rfl, alike sources others _ _ _ function rfl, ?_⟩
  have kept := objects sources .function "abcf_user"
  rw [function] at kept
  exact Option.isSome_iff_exists.2 ((Option.map_eq_some_iff.1 kept).imp fun _ h => h.1)

end Catalog

end ReleaseSchema
