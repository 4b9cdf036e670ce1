/-
What is left of a disk by the saves that fail and by the loads of a store. A save
can be refused when the document is read, when its folder is made and when the
document is written (`run_saveEntry_eq_error_iff`), and only folders can have been
made by then, so every file is where it was and as it was (`files_of_failed_save`).

What is at the path of a document is not seen when a folder in front of two dots
is missing; the folder is made then, and the save is refused all the same
(`files_of_failed_save_behind_dots`).
-/
import ReleaseSchema.Proofs.Store.Document

namespace ReleaseSchema

variable {d d' : Disk}

/-- Every path that led to a file leads to the same bytes, and no file is new or gone. -/
structure Disk.KeepsFiles (old new : Disk) : Prop where
  files : ∀ place, new.file? place = old.file? place
  reads : ∀ (path : String) content, old.read path.toList = .ok content →
    new.read path.toList = .ok content

theorem Disk.Grows.keepsFiles (h : d.Grows d') : d.KeepsFiles d' where
  files := h.files
  reads path content hread := by
    obtain ⟨place, hfind, hfile⟩ := read_eq_ok_iff.1 hread
    have kept : d'.find? path.toList = .ok place := find?_of_extends h.toExtends hfind
    exact read_eq_ok_iff.2 ⟨place, kept, (h.files place).trans hfile⟩

namespace DocumentStore

open Store

/-- How saving a value fails, and the disk it leaves: the document cannot be read, its folder cannot be
made, or it cannot be written. -/
inductive SaveFails (d : Disk) (path app : String) (json : Json) : Failure → Disk → Prop
  | unread {e : Failure} (h : documentAt d path = .error e) : SaveFails d path app json e d
  | folder {document : Document} {cause : FileError} {next : Disk}
      (read : documentAt d path = .ok document)
      (h : d.makeFolders (parentOf path) = (.error cause, next)) :
      SaveFails d path app json (.documentUnwritable (String.ofList (parentOf path)) cause) next
  | file {document : Document} {cause : FileError} {next : Disk}
      (read : documentAt d path = .ok document)
      (made : d.makeFolders (parentOf path) = (.ok (), next))
      (h : next.write path.toList
        (Document.toText (document.insert (storedName app) json.distinct)).toUTF8 = .error cause) :
      SaveFails d path app json (.documentUnwritable path cause) next

section Failures

variable {path app : String} {json : Json} {e : Failure}

theorem run_saveEntry_eq_error_iff :
    d.run (saveEntry path app json) = (.error e, d') ↔ SaveFails d path app json e d' := by
  constructor
  · intro h
    rw [run_saveEntry] at h
    rcases hdocument : documentAt d path with cause | document
    · simp only [hdocument, Prod.mk.injEq, Except.error.injEq] at h
      obtain ⟨rfl, rfl⟩ := h
      exact .unread hdocument
    simp only [hdocument, run_writeDocument] at h
    rcases hmade : d.makeFolders (parentOf path) with ⟨cause | ⟨⟩, next⟩
    · simp only [hmade, Prod.mk.injEq, Except.error.injEq] at h
      obtain ⟨rfl, rfl⟩ := h
      exact .folder hdocument hmade
    simp only [hmade] at h
    rcases hput : next.write path.toList (Document.toText
      (SortedMap.insert (storedName app) json.distinct document)).toUTF8 with cause | last
    · simp only [hput, Prod.mk.injEq, Except.error.injEq] at h
      obtain ⟨rfl, rfl⟩ := h
      exact .file hdocument hmade hput
    · simp only [hput, Prod.mk.injEq, reduceCtorEq, false_and] at h
  · intro h
    rw [run_saveEntry]
    cases h with
    | unread h => simp only [h]
    | folder read h => simp only [read, run_writeDocument, h]
    | file read made h => simp only [read, run_writeDocument, made, h]

end Failures

/-- **Saves that fail, and loads.** When a catalog or manifests cannot be saved, the reason is one of the
document, of its folder or of its file, and every file of the disk is as it was. A load leaves the whole
disk as it was, whether it succeeds or not. -/
theorem files_of_failed_save (s : DocumentStore) (d : Disk) :
    (∀ app catalog e d', d.run (s.saveCatalog app catalog) = (.error e, d') →
      SaveFails d s.catalogPath app catalog.toJson e d' ∧ d.KeepsFiles d') ∧
    (∀ app manifests e d', d.run (s.saveManifests app manifests) = (.error e, d') →
      SaveFails d s.manifestPath app (.array (manifests.map Manifest.toJson)) e d' ∧
        d.KeepsFiles d') ∧
    (∀ app, (d.run (s.loadCatalog app)).2 = d) ∧ ∀ app, (d.run (s.loadManifests app)).2 = d := by
  have save : ∀ path app json e d', d.run (saveEntry path app json) = (.error e, d') →
      SaveFails d path app json e d' ∧ d.KeepsFiles d' := by
    intro path app json e d' h
    exact ⟨run_saveEntry_eq_error_iff.1 h, (grows_of_saveEntry h).keepsFiles⟩
  refine ⟨fun app catalog => save _ app _, fun app manifests => save _ app _, fun app => ?_,
    fun app => ?_⟩
  · rw [loadCatalog, run_loadEntry]
  · rw [loadManifests, run_loadEntry]

/-- A folder where the catalogs should be, a broken document of manifests, and another file. -/
def obstructed : Disk where
  root := .folder
    [("data", .folder [("dbrepo-db-data.json", .folder []),
        ("dbrepo-dbs.json", .file "\x7b broken".toUTF8)]),
      ("note.txt", .file "keep".toUTF8)]

/-- The save makes a folder before it is refused. -/
theorem files_of_failed_save_behind_dots :
    let s : DocumentStore := { folder := "made/../data" }
    let path := s.catalogPath
    ∃ d', obstructed.run (s.saveCatalog "shop" {}) =
        (.error (.documentUnwritable path .isADirectory), d') ∧
      documentAt obstructed path = .ok .empty ∧ obstructed.isFolder "made".toList = false ∧
      d'.isFolder "made".toList = true ∧ d'.read "note.txt".toList = .ok "keep".toUTF8 ∧
      d'.read "data/dbrepo-dbs.json".toList = .ok "\x7b broken".toUTF8 := by
  intro s path
  have failed : (obstructed.run (s.saveCatalog "shop" {})).1 =
      .error (.documentUnwritable path .isADirectory) := by decide +kernel
  obtain ⟨-, kept⟩ := (files_of_failed_save s obstructed).1 "shop" {} _ _ (Prod.ext failed rfl)
  refine ⟨_, Prod.ext failed rfl, ?_, ?_, ?_, kept.reads "note.txt" _ ?_,
    kept.reads "data/dbrepo-dbs.json" _ ?_⟩
  · rw [documentAt, if_neg (by decide +kernel)]
  all_goals decide +kernel

end DocumentStore

end ReleaseSchema
