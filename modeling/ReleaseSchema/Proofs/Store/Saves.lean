/-
Several saves into one document. However many values are saved, what is left is
one write of the document with all of them set (`DocumentStore.run_saveEntries`):
a save reads back all that the one before it wrote. So saves that do not disagree
about a name may be made in any order (`DocumentStore.run_saveEntries_of_perm`),
and none of them has to be made again (`DocumentStore.run_saveEntry_again`). For two
catalogs that is `DocumentStore.saves_in_either_order`.
-/
import ReleaseSchema.Proofs.Disk.Rewriting
import ReleaseSchema.Proofs.Schema.Catalog
import ReleaseSchema.Proofs.Store.Document

namespace ReleaseSchema

open Json (Fits)
open Store (storedName)

/-! ## Documents -/

namespace Document

/-- The document with values set one after another, each under its stored name. -/
def setEntries (saves : List (String × Json)) (document : Document) : Document :=
  saves.foldl (fun document save => document.insert (storedName save.1) save.2.distinct) document

/-- No name is given two values. -/
def Agree (saves : List (String × Json)) : Prop :=
  ∀ save ∈ saves, ∀ other ∈ saves, storedName save.1 = storedName other.1 → save.2 = other.2

variable {saves saves' : List (String × Json)} {document : Document}

theorem setEntries_concat (saves : List (String × Json)) (save : String × Json)
    (document : Document) :
    setEntries (saves ++ [save]) document =
      (setEntries saves document).insert (storedName save.1) save.2.distinct := by
  rw [setEntries, List.foldl_append]
  rfl

theorem agree_singleton (save : String × Json) : Agree [save] := by
  intro first hfirst second hsecond _
  rw [List.eq_of_mem_singleton hfirst, List.eq_of_mem_singleton hsecond]

theorem agree_pair {save other : String × Json} (h : storedName save.1 ≠ storedName other.1) :
    Agree [save, other] := by
  intro first hfirst second hsecond hname
  simp only [List.mem_cons, List.not_mem_nil, or_false] at hfirst hsecond
  rcases hfirst with rfl | rfl <;> rcases hsecond with rfl | rfl
  · rfl
  · exact absurd hname h
  · exact absurd hname.symm h
  · rfl

theorem IsPlain.setEntries (h : document.IsPlain)
    (fits : ∀ save ∈ saves, Fits (Json.maxDepth - 1) save.2) :
    (document.setEntries saves).IsPlain := by
  induction saves generalizing document with
  | nil => exact h
  | cons save saves ih =>
    obtain ⟨hsave, hsaves⟩ := List.forall_mem_cons.1 fits
    exact ih (h.insert ⟨hsave.distinct, Json.distinct_distinct save.2⟩) hsaves

theorem get?_setEntries_of_ne {name : String} (h : ∀ save ∈ saves, name ≠ storedName save.1) :
    (setEntries saves document).get? name = document.get? name := by
  induction saves generalizing document with
  | nil => rfl
  | cons save saves ih =>
    obtain ⟨hsave, hsaves⟩ := List.forall_mem_cons.1 h
    exact (ih hsaves).trans (SortedMap.get?_insert_other hsave _ _)

/-- Values that agree may be set in any order. -/
theorem setEntries_of_perm (h : saves.Perm saves') (agree : Agree saves) (document : Document) :
    setEntries saves document = setEntries saves' document := by
  refine h.foldl_eq' (fun save hsave other hother document => ?_) document
  by_cases hname : storedName save.1 = storedName other.1
  · rw [hname, agree save hsave other hother hname]
  · exact (SortedMap.insert_comm hname _ _ document)

/-- Each of the values that agree is there. -/
theorem get?_setEntries_of_mem (agree : Agree saves) {save : String × Json} (h : save ∈ saves)
    (document : Document) :
    (setEntries saves document).get? (storedName save.1) = some save.2.distinct := by
  obtain ⟨before, behind, rfl⟩ := List.append_of_mem h
  have last : (before ++ save :: behind).Perm (before ++ behind ++ [save]) :=
    List.perm_middle.trans (List.perm_append_singleton save _).symm
  rw [setEntries_of_perm last agree, setEntries_concat, SortedMap.get?_insert_self]

end Document

namespace DocumentStore

open Document (Agree setEntries)

variable {d d' : Disk} {path : String} {document : Document}

/-! ## Writing a document again -/

/-- Whether a document can be written does not depend on the document. -/
theorem run_writeDocument_of_error {e : Failure}
    (h : d.run (writeDocument path document) = (.error e, d')) (other : Document) :
    d.run (writeDocument path other) = (.error e, d') := by
  rw [run_writeDocument] at h ⊢
  rcases hmade : d.makeFolders (parentOf path) with ⟨cause | ⟨⟩, next⟩
  · rw [hmade] at h
    exact h
  simp only [hmade] at h ⊢
  rcases hput : next.write path.toList document.toText.toUTF8 with cause | last
  · simp only [hput] at h
    simp only [Disk.write_of_error hput]
    exact h
  · simp only [hput, Prod.mk.injEq, reduceCtorEq, false_and] at h

/-- A document is written over another as if that had never been there. -/
theorem run_writeDocument_of_ok (h : d.run (writeDocument path document) = (.ok (), d'))
    (other : Document) : d'.run (writeDocument path other) = d.run (writeDocument path other) := by
  obtain ⟨next, hmade, hput⟩ := exists_of_writeDocument h
  obtain ⟨place, -, wrote⟩ := Disk.wrote_of_write hput
  have again := Disk.makeFolders_again hmade wrote.toExtends
  obtain ⟨last, hother⟩ := Disk.exists_write_of_write hput other.toText.toUTF8
  simp only [run_writeDocument, again, hmade, Disk.write_of_write hput, hother]

theorem read_of_writeDocument (h : d.run (writeDocument path document) = (.ok (), d')) :
    d'.read path.toList = .ok document.toText.toUTF8 := by
  obtain ⟨next, -, hput⟩ := exists_of_writeDocument h
  exact (Disk.read_of_write hput).2

/-- A document is written unless its file or its folder cannot be. -/
theorem exists_run_writeDocument
    (written : ∀ place cause, (d.run (writeDocument path document)).1 ≠
      .error (.documentUnwritable place cause)) :
    ∃ d', d.run (writeDocument path document) = (.ok (), d') := by
  rw [run_writeDocument] at written ⊢
  rcases hmade : d.makeFolders (parentOf path) with ⟨cause | ⟨⟩, next⟩
  · rw [hmade] at written
    exact absurd rfl (written _ _)
  simp only [hmade] at written ⊢
  rcases hput : next.write path.toList document.toText.toUTF8 with cause | last
  · rw [hput] at written
    exact absurd rfl (written _ _)
  · exact ⟨last, rfl⟩

/-! ## Saves -/

/-- Saves values one after another. -/
def saveEntries (path : String) (saves : List (String × Json)) :
    ExceptT Failure (StateM Disk) Unit :=
  saves.forM fun save => saveEntry path save.1 save.2

variable {saves saves' : List (String × Json)} {save : String × Json}

theorem saveEntries_singleton (path : String) (save : String × Json) :
    saveEntries path [save] = saveEntry path save.1 save.2 :=
  bind_pure_unit

theorem saveEntries_cons (path : String) (save : String × Json) (saves : List (String × Json)) :
    saveEntries path (save :: saves) =
      saveEntry path save.1 save.2 >>= fun _ => saveEntries path saves :=
  rfl

/-- **Several saves.** They are one write of the document with all values set, or fail as it does. -/
theorem run_saveEntries (fits : ∀ other ∈ save :: saves, Fits (Json.maxDepth - 1) other.2)
    (d : Disk) :
    d.run (saveEntries path (save :: saves)) = match documentAt d path with
      | .error e => (.error e, d)
      | .ok document => d.run (writeDocument path (document.setEntries (save :: saves))) := by
  induction saves generalizing d save with
  | nil =>
    rw [saveEntries_singleton, run_saveEntry]
    rfl
  | cons next saves ih =>
    obtain ⟨hsave, hsaves⟩ := List.forall_mem_cons.1 fits
    rw [saveEntries_cons, Disk.run_bind, run_saveEntry]
    rcases hdocument : documentAt d path with e | document
    · rfl
    simp only
    rcases hwrite : d.run (writeDocument path
      (document.insert (storedName save.1) save.2.distinct)) with ⟨e | ⟨⟩, saved⟩
    · exact (run_writeDocument_of_error hwrite _).symm
    have plain : Document.IsPlain (document.insert (storedName save.1) save.2.distinct) :=
      (isPlain_of_documentAt hdocument).insert ⟨hsave.distinct, Json.distinct_distinct save.2⟩
    simp only [ih hsaves saved, documentAt_of_writeDocument plain hwrite]
    exact run_writeDocument_of_ok hwrite _

theorem run_saveEntries_of_perm (h : saves.Perm saves') (agree : Agree saves)
    (fits : ∀ save ∈ saves, Fits (Json.maxDepth - 1) save.2) (d : Disk) :
    d.run (saveEntries path saves) = d.run (saveEntries path saves') := by
  have fits' : ∀ save ∈ saves', Fits (Json.maxDepth - 1) save.2 :=
    fun save hsave => fits save (h.mem_iff.2 hsave)
  rcases saves with _ | ⟨save, saves⟩
  · rw [h.nil_eq]
  rcases saves' with _ | ⟨save', saves'⟩
  · exact absurd h.eq_nil (List.cons_ne_nil _ _)
  simp only [run_saveEntries fits, run_saveEntries fits', Document.setEntries_of_perm h agree]

/-- What several saves leave is the document with all values set. -/
theorem exists_of_saveEntries (fits : ∀ other ∈ save :: saves, Fits (Json.maxDepth - 1) other.2)
    (h : d.run (saveEntries path (save :: saves)) = (.ok (), d')) :
    ∃ document, documentAt d path = .ok document ∧
      d.run (writeDocument path (document.setEntries (save :: saves))) = (.ok (), d') ∧
      documentAt d' path = .ok (document.setEntries (save :: saves)) := by
  rw [run_saveEntries fits] at h
  rcases hdocument : documentAt d path with e | document
  · simp only [hdocument, Prod.mk.injEq, reduceCtorEq, false_and] at h
  · simp only [hdocument] at h
    have plain := (isPlain_of_documentAt hdocument).setEntries fits
    exact ⟨document, rfl, h, documentAt_of_writeDocument plain h⟩

/-- To save again what has been saved changes nothing on the disk. -/
theorem run_saveEntry_again {app : String} {json : Json}
    (fits : ∀ other ∈ save :: saves, Fits (Json.maxDepth - 1) other.2)
    (agree : Agree (save :: saves))
    (h : d.run (saveEntries path (save :: saves)) = (.ok (), d'))
    (hmem : (app, json) ∈ save :: saves) : d'.run (saveEntry path app json) = (.ok (), d') := by
  obtain ⟨document, -, hwrite, hsaved⟩ := exists_of_saveEntries fits h
  have there := Document.get?_setEntries_of_mem agree hmem document
  rw [run_saveEntry]
  simp only [hsaved, SortedMap.insert_of_get? there]
  rw [run_writeDocument_of_ok hwrite, hwrite]

/-! ## Two catalogs -/

section TwoCatalogs

variable {s : DocumentStore} {app other : String}

/-- Saves one catalog and then the other. -/
def saveBoth (s : DocumentStore) (app : String) (catalog : Catalog) (other : String)
    (next : Catalog) : ExceptT Failure (StateM Disk) Unit := do
  s.saveCatalog app catalog
  s.saveCatalog other next

theorem fits_both (app : String) (catalog : Catalog) (other : String) (next : Catalog) :
    ∀ save ∈ [(app, catalog.toJson), (other, next.toJson)], Fits (Json.maxDepth - 1) save.2 :=
  List.forall_mem_cons.2 ⟨catalog.fits_inside, List.forall_mem_singleton.2 next.fits_inside⟩

theorem saveBoth_eq_saveEntries (s : DocumentStore) (app : String) (catalog : Catalog)
    (other : String) (next : Catalog) :
    s.saveBoth app catalog other next =
      saveEntries s.catalogPath [(app, catalog.toJson), (other, next.toJson)] := by
  rw [saveEntries_cons, saveEntries_singleton]
  rfl

/-- Catalogs of two applications may be saved in either order, also where they cannot be saved. -/
theorem run_saveBoth_comm (names : storedName app ≠ storedName other) (catalog next : Catalog)
    (d : Disk) :
    d.run (s.saveBoth app catalog other next) = d.run (s.saveBoth other next app catalog) := by
  have agree : Agree [(app, catalog.toJson), (other, next.toJson)] := Document.agree_pair names
  rw [saveBoth_eq_saveEntries, saveBoth_eq_saveEntries]
  exact run_saveEntries_of_perm (.swap _ _ []) agree (fits_both app catalog other next) d

theorem run_saveCatalog_again {catalog : Catalog}
    (h : d.run (s.saveCatalog app catalog) = (.ok (), d')) :
    d'.run (s.saveCatalog app catalog) = (.ok (), d') := by
  have one : d.run (saveEntries s.catalogPath [(app, catalog.toJson)]) = (.ok (), d') := by
    rw [saveEntries_singleton]
    exact h
  have fits : ∀ save ∈ [(app, catalog.toJson)], Fits (Json.maxDepth - 1) save.2 :=
    List.forall_mem_singleton.2 catalog.fits_inside
  exact run_saveEntry_again fits (Document.agree_singleton _) one List.mem_cons_self

/-- **Two catalogs.** Catalogs of two applications that are saved into a document leave the same
disk in either order. Its file holds the values of both, and those of other applications as they
were; to save either catalog again changes nothing. -/
theorem saves_in_either_order (names : storedName app ≠ storedName other)
    (catalog next : Catalog) (hdocument : documentAt d s.catalogPath = .ok document)
    (written : ∀ path cause, (d.run (s.saveBoth app catalog other next)).1 ≠
      .error (.documentUnwritable path cause)) :
    ∃ (saved : Disk) (after : Document),
      d.run (s.saveBoth app catalog other next) = (.ok (), saved) ∧
      d.run (s.saveBoth other next app catalog) = (.ok (), saved) ∧
      saved.read s.catalogPath.toList = .ok after.toText.toUTF8 ∧
      documentAt saved s.catalogPath = .ok after ∧
      after.get? (storedName app) = some catalog.toJson.distinct ∧
      after.get? (storedName other) = some next.toJson.distinct ∧
      (∀ name, name ≠ storedName app → name ≠ storedName other →
        after.get? name = document.get? name) ∧
      saved.run (s.saveCatalog app catalog) = (.ok (), saved) ∧
      saved.run (s.saveCatalog other next) = (.ok (), saved) ∧
      ∃ once, d.run (s.saveCatalog app catalog) = (.ok (), once) ∧
        once.run (s.saveCatalog app catalog) = (.ok (), once) := by
  have fits := fits_both app catalog other next
  have agree : Agree [(app, catalog.toJson), (other, next.toJson)] := Document.agree_pair names
  have write : d.run (s.saveBoth app catalog other next) = d.run (writeDocument s.catalogPath
      (document.setEntries [(app, catalog.toJson), (other, next.toJson)])) := by
    rw [saveBoth_eq_saveEntries, run_saveEntries fits]
    simp only [hdocument]
  rw [write] at written
  obtain ⟨saved, hsaved⟩ := exists_run_writeDocument written
  have both := write.trans hsaved
  have entries := both
  rw [saveBoth_eq_saveEntries] at entries
  obtain ⟨before, hbefore, -, hafter⟩ := exists_of_saveEntries fits entries
  obtain rfl : document = before := Except.ok.inj (hdocument.symm.trans hbefore)
  refine ⟨saved, _, both, (run_saveBoth_comm names catalog next d).symm.trans both,
    read_of_writeDocument hsaved, hafter,
    Document.get?_setEntries_of_mem agree List.mem_cons_self document,
    Document.get?_setEntries_of_mem agree (List.mem_cons_of_mem _ List.mem_cons_self) document,
    fun name happ hother => ?_, ?_, ?_, ?_⟩
  · exact Document.get?_setEntries_of_ne
      (List.forall_mem_cons.2 ⟨happ, List.forall_mem_singleton.2 hother⟩)
  · exact run_saveEntry_again fits agree entries List.mem_cons_self
  · exact run_saveEntry_again fits agree entries (List.mem_cons_of_mem _ List.mem_cons_self)
  · rw [saveBoth, Disk.run_bind] at both
    rcases hfirst : d.run (s.saveCatalog app catalog) with ⟨e | ⟨⟩, once⟩
    · simp only [hfirst, Prod.mk.injEq, reduceCtorEq, false_and] at both
    · exact ⟨once, rfl, run_saveCatalog_again hfirst⟩

end TwoCatalogs

/-! ### Two catalogs beside others -/

/-- What an application that is never saved has in a document. -/
def hallJson : Json := .array [.string "kept", .bool true]

def hallDocument : Document := .ofList [("zoo-database", .string "z"), ("hall-database", hallJson)]

/-- The document in a layout that no save gives it. -/
def hallText : String :=
  "\x7b\"zoo-database\" : \"z\",\n\n \"hall-database\":[\"kept\",   true]\x7d"

def hallDisk : Disk where
  root := .folder [("data", .folder [("dbrepo-db-data.json", .file hallText.toUTF8)])]

theorem isPlain_hallDocument : hallDocument.IsPlain := by
  intro e he
  have hmem := SortedMap.mem_ofList he
  simp only [List.mem_cons, List.not_mem_nil, or_false] at hmem
  rcases hmem with rfl | rfl
  · exact .string
  · exact .array (List.forall_mem_cons.2 ⟨.string, List.forall_mem_singleton.2 .bool⟩)

theorem ofText?_hallText : Document.ofText? hallText = some hallDocument := by
  have same : (Document.ofText? hallText).map Document.toText = some hallDocument.toText := by
    decide +kernel
  obtain ⟨document, hread, htext⟩ := Option.map_eq_some_iff.1 same
  have plain := Document.isPlain_of_ofText? hread
  rw [hread, ← Document.ofText?_toText plain, htext, Document.ofText?_toText isPlain_hallDocument]

theorem documentAt_hallDisk :
    documentAt hallDisk (catalogPath { folder := "data" }) = .ok hallDocument := by
  have there : (hallDisk.find? (catalogPath { folder := "data" }).toList).toOption.isSome = true := by
    decide +kernel
  have read : hallDisk.read (catalogPath { folder := "data" }).toList = .ok hallText.toUTF8 := by
    rfl
  rw [documentAt, if_pos there, Disk.text_of_read read]
  simp only [ofText?_hallText]

/-- Catalogs of two other applications may be saved into it. -/
theorem written_hallDisk (catalog next : Catalog) (path : String) (cause : FileError) :
    (hallDisk.run (saveBoth { folder := "data" } "shop" catalog "mall" next)).1 ≠
      .error (.documentUnwritable path cause) := by
  have written : ∀ document : Document,
      (hallDisk.run (writeDocument (catalogPath { folder := "data" }) document)).1 = .ok () :=
    fun _ => rfl
  rw [saveBoth_eq_saveEntries, run_saveEntries (fits_both _ _ _ _)]
  simp only [documentAt_hallDisk, written]
  exact nofun

/-- Two catalogs are saved beside what was there, in either order. -/
theorem saves_in_either_order_shop_and_mall :
    ∃ (saved : Disk) (after : Document),
      hallDisk.run (saveBoth { folder := "data" } "shop" {} "mall" { versions := ["1.0.0.0"] }) =
        (.ok (), saved) ∧
      hallDisk.run (saveBoth { folder := "data" } "mall" { versions := ["1.0.0.0"] } "shop" {}) =
        (.ok (), saved) ∧
      documentAt saved (catalogPath { folder := "data" }) = .ok after ∧
      after.get? "hall-database" = some hallJson := by
  obtain ⟨saved, after, both, reversed, -, hafter, -, -, kept, -⟩ :=
    saves_in_either_order (by decide) {} { versions := ["1.0.0.0"] } documentAt_hallDisk
      (written_hallDisk {} { versions := ["1.0.0.0"] })
  refine ⟨saved, after, both, reversed, hafter, ?_⟩
  rw [kept "hall-database" (by decide) (by decide)]
  rfl

end DocumentStore

end ReleaseSchema
