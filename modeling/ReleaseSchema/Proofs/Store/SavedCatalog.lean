/-
Catalogs in a store on a disk. A built catalog that is saved is loaded again,
up to columns that have one name (`DocumentStore.loadCatalog_of_saveCatalog`):
an object in the document has each member once, so of such columns one is kept.
-/
import ReleaseSchema.Proofs.Build
import ReleaseSchema.Proofs.Store.Document

namespace ReleaseSchema.DocumentStore

theorem loadCatalog_saved {s : DocumentStore} {app : String} {catalog : Catalog} {d d' : Disk}
    (hreads : catalog.ReadsBack) (h : d.run (s.saveCatalog app catalog) = (.ok (), d')) :
    d'.run (s.loadCatalog app) = (.ok catalog.collapsed, d') := by
  have read : Catalog.ofJson? catalog.toJson.distinct = some catalog.collapsed := by
    rw [catalog.distinct_toJson]
    exact Catalog.ofJson?_toJson hreads.collapsed
  unfold loadCatalog
  rw [loadEntry_of_saveEntry catalog.fits_inside h, read]

/-- **Saving and loading.** Loading under the name that a built catalog was saved under never
fails. Of columns that have one name in a table it gives the last, in the place of the first, and
all else as it was saved; so it gives the whole catalog exactly when no table repeats a column. -/
theorem loadCatalog_of_saveCatalog (s : DocumentStore) (app : String) (manifests : List Manifest)
    (sources : Sources) {d d' : Disk}
    (h : d.run (s.saveCatalog app (Catalog.build manifests sources)) = (.ok (), d')) :
    d'.run (s.loadCatalog app) = (.ok (Catalog.build manifests sources).collapsed, d') ∧
      (d'.run (s.loadCatalog app) = (.ok (Catalog.build manifests sources), d') ↔
        (Catalog.build manifests sources).HasDistinctColumns) := by
  have loaded := loadCatalog_saved (Catalog.readsBack_build manifests sources) h
  refine ⟨loaded, ?_⟩
  rw [loaded, ← Catalog.collapsed_eq_self_iff, Prod.mk.injEq, Except.ok.injEq]
  exact and_iff_left rfl

/-- The catalog of one release with one table, of the given columns. -/
def catalogOfColumns (columns : String) : Catalog :=
  Catalog.build
    [{ fileName := "app/postgres/release/1.0.0.0/version.json"
       versionName := "1.0.0.0"
       steps := [{ files := [⟨.table, "abct_user_usr",
         "app/postgres/release/1.0.0.0/03-tables/abct_user_usr.sql"⟩] }] }]
    fun _ => some ("create table abct_user_usr (" ++ columns ++ ");")

/-- Saving this catalog in a new folder of an empty disk. -/
def savedColumns (columns : String) : Except Failure Unit × Disk :=
  Disk.run {} (saveCatalog { folder := "data" } "shop" (catalogOfColumns columns))

theorem savedColumns_eq {columns : String} (h : (savedColumns columns).1 = .ok ()) :
    savedColumns columns = (.ok (), (savedColumns columns).2) :=
  Prod.ext h rfl

/-- A table with two columns is loaded as it was saved. -/
theorem loadCatalog_of_saveCatalog_user_table :
    ∃ d, savedColumns "usr_a int, usr_b text" = (.ok (), d) ∧
      d.run (loadCatalog { folder := "data" } "shop") =
        (.ok (catalogOfColumns "usr_a int, usr_b text"), d) := by
  have saved : (savedColumns "usr_a int, usr_b text").1 = .ok () := by rfl
  have distinct : (catalogOfColumns "usr_a int, usr_b text").HasDistinctColumns := by
    decide +kernel
  refine ⟨_, savedColumns_eq saved, ?_⟩
  exact (loadCatalog_of_saveCatalog _ "shop" _ _ (savedColumns_eq saved)).2.2 distinct

/-- A table with two columns of one name is loaded with one of them. -/
theorem loadCatalog_of_repeated_column :
    ∃ d, savedColumns "usr_a int, usr_a text" = (.ok (), d) ∧
      d.run (loadCatalog { folder := "data" } "shop") ≠
        (.ok (catalogOfColumns "usr_a int, usr_a text"), d) := by
  have saved : (savedColumns "usr_a int, usr_a text").1 = .ok () := by rfl
  have repeated : ¬(catalogOfColumns "usr_a int, usr_a text").HasDistinctColumns := by
    decide +kernel
  refine ⟨_, savedColumns_eq saved, ?_⟩
  rw [loadCatalog_saved (Catalog.readsBack_build _ _) (savedColumns_eq saved)]
  intro same
  simp only [Prod.mk.injEq, Except.ok.injEq, and_true] at same
  exact repeated ((Catalog.collapsed_eq_self_iff _).1 same)

end ReleaseSchema.DocumentStore
