/-
The buckets in which a name is. The fold puts a name into the bucket of every
kind under which an acceptable manifest lists it (`isSome_history?_iff_defines`),
and looking a name up gives the first of these kinds (`Catalog.find?_build`). So
each name is in one bucket exactly when it is listed under one kind
(`Manifest.one_bucket_iff`). Nothing sees to that when a file is added: an object
that a release moves to another folder stays in its first bucket as well
(`Manifest.two_buckets_of_moved_table`).
-/
import ReleaseSchema.Proofs.Entries

namespace ReleaseSchema

namespace Manifest

/-- The files of acceptable manifests that define objects. -/
def definitions (manifests : List Manifest) : List ReleaseFile :=
  (manifests.filter isAcceptable).flatMap fun m => m.files.filter (·.kind ≠ .unknown)

/-- The manifests define an object of this kind and name. -/
def Defines (manifests : List Manifest) (kind : Kind) (name : String) : Prop :=
  ∃ file ∈ definitions manifests, file.kind = kind ∧ file.name = name

/-- No two objects of different kinds have one name. -/
def NamesApart (manifests : List Manifest) : Prop :=
  ∀ file ∈ definitions manifests, ∀ other ∈ definitions manifests,
    file.name = other.name → file.kind = other.kind

instance (manifests : List Manifest) (kind : Kind) (name : String) :
    Decidable (Defines manifests kind name) :=
  inferInstanceAs (Decidable (∃ file ∈ definitions manifests, _ ∧ _))

instance (manifests : List Manifest) : Decidable (NamesApart manifests) :=
  inferInstanceAs (Decidable (∀ file ∈ definitions manifests, ∀ other ∈ definitions manifests, _))

theorem mem_definitions {manifests : List Manifest} {file : ReleaseFile} :
    file ∈ definitions manifests ↔
      file.kind ≠ .unknown ∧ ∃ version, (version, file) ∈ listing manifests := by
  simp only [definitions, List.mem_flatMap, List.mem_filter, decide_eq_true_eq, mem_listing]
  constructor
  · rintro ⟨m, ⟨hm, haccept⟩, hfile, hkind⟩
    exact ⟨hkind, _, m, hm, haccept, rfl, hfile⟩
  · rintro ⟨hkind, _, m, hm, haccept, -, hfile⟩
    exact ⟨m, ⟨hm, haccept⟩, hfile, hkind⟩

theorem namesApart_iff {manifests : List Manifest} :
    NamesApart manifests ↔ ∀ name kind other,
      Defines manifests kind name → Defines manifests other name → kind = other := by
  constructor
  · rintro apart name _ _ ⟨file, hfile, rfl, rfl⟩ ⟨other, hother, rfl, hname⟩
    exact apart file hfile other hother hname.symm
  · intro apart file hfile other hother hname
    exact apart file.name _ _ ⟨file, hfile, rfl, rfl⟩ ⟨other, hother, rfl, hname.symm⟩

theorem isSome_history?_iff_defines (manifests : List Manifest) (kind : Kind) (name : String) :
    ((fold manifests).history? kind name).isSome ↔ Defines manifests kind name := by
  rw [isSome_history?_iff]
  constructor
  · rintro ⟨hknown, ⟨version, file⟩, hlisted, rfl, rfl⟩
    exact ⟨file, mem_definitions.2 ⟨hknown, version, hlisted⟩, rfl, rfl⟩
  · rintro ⟨file, hfile, rfl, rfl⟩
    obtain ⟨hknown, version, hlisted⟩ := mem_definitions.1 hfile
    exact ⟨hknown, _, hlisted, rfl, rfl⟩

end Manifest

/-! ## Looking names up -/

namespace Catalog

/-- Looking a name up gives the entry of the first kind that has one. -/
theorem find?_eq_some_iff {c : Catalog} {kind : Kind} {name : String} {entry : Entry} :
    c.find? name = some (kind, entry) ↔
      c.object? kind name = some entry ∧ ∀ other, other < kind → c.object? other name = none :=
  SortedMap.findSome?_eq_some_iff (f := fun bucket : Bucket => bucket.get? name) c.buckets.sorted

theorem isSome_object?_build (manifests : List Manifest) (sources : Sources) (kind : Kind)
    (name : String) :
    ((build manifests sources).object? kind name).isSome ↔ Manifest.Defines manifests kind name := by
  rw [object?_build, Option.isSome_map, Manifest.isSome_history?_iff_defines]

variable {manifests : List Manifest} {sources : Sources} {kind : Kind} {name : String}
  {entry : Entry}

/-- In a built catalog that is the first kind of which the manifests define the name. -/
theorem find?_build :
    (build manifests sources).find? name = some (kind, entry) ↔
      (build manifests sources).object? kind name = some entry ∧
        ∀ other, Manifest.Defines manifests other name → kind ≤ other := by
  rw [find?_eq_some_iff]
  refine and_congr_right fun _ => forall_congr' fun other => ?_
  rw [← isSome_object?_build manifests sources, ← Std.not_lt, ← Option.not_isSome_iff_eq_none]
  exact ⟨fun h hsome hlt => h hlt hsome, fun h hlt hsome => h hsome hlt⟩

/-- Where names are apart, looking a name up gives every object of it. -/
theorem find?_of_namesApart (apart : Manifest.NamesApart manifests)
    (h : (build manifests sources).object? kind name = some entry) :
    (build manifests sources).find? name = some (kind, entry) := by
  have defined : Manifest.Defines manifests kind name :=
    (isSome_object?_build manifests sources kind name).1 (Option.isSome_of_eq_some h)
  refine find?_build.2 ⟨h, fun other hother => ?_⟩
  rw [Manifest.namesApart_iff.1 apart name kind other defined hother]
  exact Std.le_refl other

end Catalog

namespace Manifest

open Catalog (build)

/-- **One bucket for each name.** A name is in the buckets of exactly those kinds of which acceptable
manifests define it, and looking it up gives the entry of the first of them. So each name of the
fold is in exactly one bucket if and only if no name is defined of two kinds; and then, and only
then, every entry of a built catalog is the one answer for its name. -/
theorem one_bucket_iff (manifests : List Manifest) :
    (∀ kind name, ((fold manifests).history? kind name).isSome ↔ Defines manifests kind name) ∧
    (∀ sources kind name entry,
      (build manifests sources).find? name = some (kind, entry) ↔
        (build manifests sources).object? kind name = some entry ∧
          ∀ other, Defines manifests other name → kind ≤ other) ∧
    ((∀ kind name, ((fold manifests).history? kind name).isSome →
      ∀ other, ((fold manifests).history? other name).isSome → other = kind) ↔
        NamesApart manifests) ∧
    ((∀ sources kind name entry,
      (build manifests sources).object? kind name = some entry →
        (build manifests sources).find? name = some (kind, entry)) ↔ NamesApart manifests) := by
  refine ⟨isSome_history?_iff_defines manifests, fun _ _ _ _ => Catalog.find?_build, ?_, ?_, ?_⟩
  · simp only [isSome_history?_iff_defines, namesApart_iff]
    exact ⟨fun h name kind other hkind hother => h other name hother kind hkind,
      fun h kind name hkind other hother => h name other kind hother hkind⟩
  · intro h
    refine namesApart_iff.2 fun name kind other hkind hother => ?_
    -- both have an entry whatever is read, and both entries are the one that is found
    let sources : Sources := fun _ => none
    obtain ⟨entry, hentry⟩ :=
      Option.isSome_iff_exists.1 ((Catalog.isSome_object?_build manifests sources _ _).2 hkind)
    obtain ⟨otherEntry, hotherEntry⟩ :=
      Option.isSome_iff_exists.1 ((Catalog.isSome_object?_build manifests sources _ _).2 hother)
    have found := h sources kind name entry hentry
    rw [h sources other name otherEntry hotherEntry] at found
    exact (congrArg Prod.fst (Option.some.inj found)).symm
  · exact fun apart _ _ _ _ => Catalog.find?_of_namesApart apart

/-- A release that lists one file of a user table in the folder of a kind. -/
def ofUser (version folder : String) (kind : Kind) : Manifest :=
  { fileName := "app/postgres/release/" ++ version ++ "/version.json"
    versionName := version
    steps := [{ files := [⟨kind, "abct_user_usr",
      "app/postgres/release/" ++ version ++ "/" ++ folder ++ "/abct_user_usr.sql"⟩] }] }

/-- A table that two releases list in one folder, while a draft lists it in another. -/
theorem one_bucket_iff_table_again :
    let manifests := [ofUser "1.0.0.0" "03-tables" .table, ofUser "draft" "06-views" .view,
      ofUser "1.1.0.0" "03-tables" .table]
    NamesApart manifests ∧ ((fold manifests).history? .table "abct_user_usr").isSome ∧
      ∀ other, ((fold manifests).history? other "abct_user_usr").isSome → other = .table := by
  intro manifests
  obtain ⟨defined, -, once, -⟩ := one_bucket_iff manifests
  have apart : NamesApart manifests := by decide +kernel
  have table := (defined .table "abct_user_usr").2 (by decide +kernel)
  exact ⟨apart, table, once.2 apart .table "abct_user_usr" table⟩

/-- A table that a later release lists as a view is in two buckets, and its name leads to the table
of the earlier release. -/
theorem two_buckets_of_moved_table :
    let manifests := [ofUser "1.0.0.0" "03-tables" .table, ofUser "1.1.0.0" "06-views" .view]
    ¬(∀ kind name, ((fold manifests).history? kind name).isSome →
      ∀ other, ((fold manifests).history? other name).isSome → other = kind) ∧
    ∀ sources, ∃ entry, (build manifests sources).find? "abct_user_usr" = some (.table, entry) := by
  intro manifests
  have table : Defines manifests .table "abct_user_usr" := by decide +kernel
  have view : Defines manifests .view "abct_user_usr" := by decide +kernel
  refine ⟨fun once => ?_, fun sources => ?_⟩
  · have same := once .table "abct_user_usr" ((isSome_history?_iff_defines _ _ _).2 table) .view
      ((isSome_history?_iff_defines _ _ _).2 view)
    cases same
  · obtain ⟨entry, hentry⟩ :=
      Option.isSome_iff_exists.1 ((Catalog.isSome_object?_build manifests sources _ _).2 table)
    refine ⟨entry, Catalog.find?_build.2 ⟨hentry, ?_⟩⟩
    have kinds : ∀ file ∈ definitions manifests, file.kind = .table ∨ file.kind = .view := by
      decide +kernel
    rintro other ⟨file, hfile, rfl, -⟩
    rcases kinds file hfile with hkind | hkind
    · rw [hkind]
      exact Std.le_refl _
    · rw [hkind]
      exact show Kind.table.ctorIdx ≤ Kind.view.ctorIdx by decide

end Manifest

end ReleaseSchema
