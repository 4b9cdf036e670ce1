/-
What a read of a repository leaves on a disk. The repository is only read
(`Repository.readsOnly_scan`), so a read that fails has at most saved the
manifests (`Repository.files_of_failed_read`); the catalogs that were stored
are stored as they were.
-/
import ReleaseSchema.Proofs.Release.Folder
import ReleaseSchema.Proofs.Store.Document
import ReleaseSchema.Proofs.Store.Paths
import ReleaseSchema.Repository

namespace ReleaseSchema

open Disk (ReadsOnly)

variable {d d' : Disk}

/-! ## Reading the repository -/

theorem Sources.readsOnly_textAt (path : String) : ReadsOnly (textAt path) := by
  refine (ReadsOnly.read path).bind fun answer => ?_
  rcases answer with e | bytes
  · exact .pure _
  · dsimp only
    rcases Text.decode? bytes with _ | text
    · exact .pure _
    · exact .pure _

theorem Sources.readsOnly_load (paths : List String) : ReadsOnly (load paths) := by
  refine (ReadsOnly.mapM (fun path => ?_) paths).bind fun _ => .pure _
  exact (readsOnly_textAt path).bind fun _ => .pure _

theorem Repository.readsOnly_scan (repository : String) : ReadsOnly (scan repository) :=
  (Release.readsOnly_read repository).bind fun _ =>
    (Sources.readsOnly_load _).bind fun _ => .pure _

theorem Store.storedName_storedName (app : String) :
    storedName (storedName app) = storedName app := by
  have ended : nameEnding.toList.isSuffixOf (storedName app).toList = true := by
    rw [storedName]
    split
    next h => exact h
    next => simp
  rw [storedName, if_pos ended]

/-- There always is a name to store under. -/
theorem ReadOptions.exists_storedName (o : ReadOptions) (d : Disk) :
    ∃ app, d.run o.storedName = (.ok app, d) ∧ Store.storedName app = app := by
  unfold storedName
  rcases o.app with _ | app
  · exact ⟨_, rfl, Store.storedName_storedName _⟩
  · exact ⟨_, rfl, Store.storedName_storedName _⟩

namespace Disk

/-- The file that a path leads to is as it was, and so is that there is none. -/
def KeepsFile (old new : Disk) (path : String) : Prop :=
  (∀ place, old.find? path.toList = .ok place → new.find? path.toList = .ok place) ∧
    ∀ place, new.find? path.toList = .ok place → new.file? place = old.file? place

theorem Grows.keepsFile (h : Grows d d') (path : String) : d.KeepsFile d' path :=
  ⟨fun _ => find?_of_extends h.toExtends, fun place _ => h.files place⟩

/-- What is written elsewhere leaves a file as it was. -/
theorem Wrote.keepsFile {place : Place} {content : ByteArray} (h : Wrote d d' place content)
    {path : String} (elsewhere : d'.find? path.toList ≠ .ok place) : d.KeepsFile d' path := by
  refine ⟨fun _ => find?_of_extends h.toExtends, fun other hother => ?_⟩
  have hne : other ≠ place := fun same => elsewhere (same ▸ hother)
  rw [h.files, if_neg hne]

end Disk

namespace DocumentStore

theorem find?_catalogPath_ne (s : DocumentStore) {place : Place}
    (h : d.find? s.manifestPath.toList = .ok place) : d.find? s.catalogPath.toList ≠ .ok place := by
  intro hcatalog
  have same : "-db-data.json" = "-dbs.json" :=
    find?_pathOf_inj (by decide) (by decide) hcatalog h
  exact absurd same (by decide)

end DocumentStore

namespace Repository

open DocumentStore

/-- A read of a repository fails before anything is stored, or in one of the two saves. -/
theorem cases_of_failed_read {o : ReadOptions} {e : Failure}
    (h : d.run (read o) = (.error e, d')) :
    d.Grows d' ∨ ∃ (found : Scan) (app : String) (saved : Disk),
      d.run (scan o.repository) = (.ok found, d) ∧ d.run o.storedName = (.ok app, d) ∧
      d.run (o.documents.saveManifests app found.manifests) = (.ok (), saved) ∧
      saved.run (o.documents.saveCatalog app found.catalog) = (.error e, d') := by
  rcases Disk.cases_of_run_bind h with hscan | ⟨found, next, hscan, hrest⟩
  · rw [(readsOnly_scan _).eq_of_run hscan]
    exact .inl (.refl d)
  obtain rfl := (readsOnly_scan _).eq_of_run hscan
  obtain ⟨app, happ, -⟩ := o.exists_storedName next
  rw [Disk.run_bind_of_ok happ] at hrest
  rcases Disk.cases_of_run_bind hrest with hmanifests | ⟨⟨⟩, saved, hmanifests, hrest⟩
  · exact .inl (grows_of_saveEntry hmanifests)
  rcases Disk.cases_of_run_bind hrest with hcatalog | ⟨⟨⟩, last, -, hrest⟩
  · exact .inr ⟨found, app, saved, hscan, happ, hmanifests, hcatalog⟩
  · cases hrest

/-- **A read that fails.** The stored catalogs are as they were. So is every other file, unless
the manifests had been saved and then the catalog could not be: then the document of the manifests
is the earlier one with the manifests just read under the name of the application. -/
theorem files_of_failed_read {o : ReadOptions} {e : Failure}
    (h : d.run (read o) = (.error e, d')) :
    d.KeepsFile d' o.documents.catalogPath ∧
      ((∀ place, d'.file? place = d.file? place) ∨
        ∃ (found : Scan) (app : String) (document : Document) (saved : Disk) (place : Place),
          d.run (scan o.repository) = (.ok found, d) ∧
          d.run o.storedName = (.ok app, d) ∧
          d.run (o.documents.saveManifests app found.manifests) = (.ok (), saved) ∧
          saved.run (o.documents.saveCatalog app found.catalog) = (.error e, d') ∧
          documentAt d o.documents.manifestPath = .ok document ∧
          d'.find? o.documents.manifestPath.toList = .ok place ∧
          ∀ other, d'.file? other = if other = place then
            some (Document.toText (document.insert app
              (Json.array (found.manifests.map Manifest.toJson)).distinct)).toUTF8
            else d.file? other) := by
  rcases cases_of_failed_read h with grows | ⟨found, app, saved, hscan, happ, hmanifests, hcatalog⟩
  · exact ⟨grows.keepsFile _, .inl grows.files⟩
  obtain ⟨name, hname, idempotent⟩ := o.exists_storedName d
  obtain rfl : name = app := by
    rw [happ] at hname
    cases hname
    rfl
  obtain ⟨document, hdocument, hwrite⟩ := exists_of_saveEntry hmanifests
  obtain ⟨place, hfind, wrote⟩ := wrote_of_writeDocument hwrite
  have grows : saved.Grows d' := grows_of_saveEntry hcatalog
  have wrote := wrote.grows grows
  have hfind := Disk.find?_of_extends grows.toExtends hfind
  rw [idempotent] at wrote
  refine ⟨wrote.keepsFile (find?_catalogPath_ne _ hfind), .inr ?_⟩
  exact ⟨found, name, document, saved, place, hscan, happ, hmanifests, hcatalog, hdocument, hfind,
    wrote.files⟩

/-- A repository with one release, beside a store whose catalogs cannot be read. -/
def brokenCatalogs : Disk where
  root := .folder
    [("app", .folder [("postgres", .folder [("release", .folder
        [("1.0.0.0", .folder [("version.json", .file "[]".toUTF8)])])])]),
      ("store", .folder [("dbrepo-db-data.json", .file "\x7b broken".toUTF8),
        ("dbrepo-dbs.json", .file "{}".toUTF8)])]

def shop : ReadOptions := { repository := "app", app := some "shop", store := "store" }

theorem run_brokenCatalogs :
    ∃ d', brokenCatalogs.run (read shop) =
        (.error (.documentInvalid shop.documents.catalogPath), d') ∧
      d'.find? shop.documents.manifestPath.toList = .ok ["dbrepo-dbs.json", "store"] ∧
      d'.file? ["dbrepo-dbs.json", "store"] ≠
        brokenCatalogs.file? ["dbrepo-dbs.json", "store"] := by
  refine ⟨(brokenCatalogs.run (read shop)).2, Prod.ext ?_ rfl, ?_, ?_⟩
  · have failed : (brokenCatalogs.run (read shop)).1.map (fun _ => ()) =
        .error (.documentInvalid shop.documents.catalogPath) := by decide +kernel
    cases hrun : (brokenCatalogs.run (read shop)).1 with
    | error e =>
      rw [hrun] at failed
      cases failed
      rfl
    | ok found =>
      rw [hrun] at failed
      cases failed
  · decide +kernel
  · decide +kernel

/-- The manifests of a repository are stored although its catalog cannot be. -/
theorem files_of_failed_read_broken_catalogs :
    ∃ d', brokenCatalogs.run (read shop) =
        (.error (.documentInvalid shop.documents.catalogPath), d') ∧
      brokenCatalogs.KeepsFile d' shop.documents.catalogPath ∧
      ∃ (found : Scan) (app : String) (document : Document) (place : Place),
        brokenCatalogs.run (scan shop.repository) = (.ok found, brokenCatalogs) ∧
        brokenCatalogs.run shop.storedName = (.ok app, brokenCatalogs) ∧
        documentAt brokenCatalogs shop.documents.manifestPath = .ok document ∧
        d'.find? shop.documents.manifestPath.toList = .ok place ∧
        ∀ other, d'.file? other = if other = place then
          some (Document.toText (document.insert app
            (Json.array (found.manifests.map Manifest.toJson)).distinct)).toUTF8
          else brokenCatalogs.file? other := by
  obtain ⟨d', hrun, -, hfile⟩ := run_brokenCatalogs
  obtain ⟨kept, same | half⟩ := files_of_failed_read hrun
  · exact absurd (same _) hfile
  · obtain ⟨found, app, document, -, place, hscan, happ, -, -, hdocument, hfind, files⟩ := half
    exact ⟨d', hrun, kept, found, app, document, place, hscan, happ, hdocument, hfind, files⟩

/-- A read that fails does not always leave the stored manifests as they were. -/
theorem read_changes_stored_manifests :
    ∃ d', brokenCatalogs.run (read shop) =
        (.error (.documentInvalid shop.documents.catalogPath), d') ∧
      ¬brokenCatalogs.KeepsFile d' shop.documents.manifestPath := by
  obtain ⟨d', hrun, hfind, hfile⟩ := run_brokenCatalogs
  exact ⟨d', hrun, fun kept => hfile (kept.2 _ hfind)⟩

end Repository

end ReleaseSchema
