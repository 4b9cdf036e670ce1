/-
Documents of stored values. What is read from a text has plain values only
(`Document.isPlain_of_ofText?`), and such a document is read back from the text
that is written for it (`Document.ofText?_toText`).

On a disk, what is saved under a name is what is loaded under it next
(`DocumentStore.loadEntry_of_saveEntry`). A save that fails leaves every file as
it was (`DocumentStore.grows_of_saveEntry`).
-/
import ReleaseSchema.Proofs.Disk.Files
import ReleaseSchema.Proofs.Json.Record
import ReleaseSchema.Proofs.Run
import ReleaseSchema.Proofs.SortedMap
import ReleaseSchema.Store.Document

namespace ReleaseSchema

open Json (Fits Plain)

namespace Document

/-- The values can be written inside the document, and have each name once. -/
def IsPlain (document : Document) : Prop := ∀ e ∈ document.entries, Plain (Json.maxDepth - 1) e.2

theorem isPlain_empty : IsPlain .empty := fun _ he => absurd he List.not_mem_nil

theorem IsPlain.insert {document : Document} (h : document.IsPlain) {name : String} {json : Json}
    (hjson : Plain (Json.maxDepth - 1) json) : IsPlain (document.insert name json) := by
  intro e he
  rcases SortedMap.mem_insert he with rfl | he
  · exact hjson
  · exact h e he

theorem isPlain_of_ofText? {text : String} {document : Document}
    (h : ofText? text = some document) : document.IsPlain := by
  simp only [ofText?, Option.bind_eq_bind, Option.bind_eq_some_iff, Option.pure_def,
    Option.some.injEq] at h
  obtain ⟨json, hparse, values, hvalues, rfl⟩ := h
  cases json with
  | object members =>
    have readable : ∀ member ∈ members, member.2.isReadable = true := by
      intro member hmember
      obtain ⟨e, he⟩ := Traverse.exists_of_mapM hvalues hmember
      obtain ⟨value, hvalue, -⟩ := Option.map_eq_some_iff.1 he
      rw [Json.value?] at hvalue
      split at hvalue
      next hreadable => exact hreadable
      next => cases hvalue
    have fits : Fits Json.maxDepth (.object members) := by
      refine Json.fits_of_parse? hparse ?_
      rw [Json.isReadable]
      exact Json.areReadableMembers_iff.2 readable
    intro e he
    obtain ⟨⟨name, json⟩, hmember, hread⟩ :=
      Traverse.exists_of_mem_mapM hvalues (SortedMap.mem_ofList he)
    obtain ⟨value, hvalue, rfl⟩ := Option.map_eq_some_iff.1 hread
    rw [Json.value?, if_pos (readable _ hmember), Option.some.injEq] at hvalue
    subst hvalue
    cases fits with
    | object fits => exact ⟨(fits _ hmember).distinct, Json.distinct_distinct json⟩
  | _ => cases hvalues

theorem ofText?_toText {document : Document} (h : document.IsPlain) :
    ofText? document.toText = some document := by
  have fits : Fits Json.maxDepth (.object document.entries) :=
    .object fun member hmember => (h member hmember).fits
  have values : (Json.object document.entries).asMembers? Json.value? = some document.entries := by
    have read : ∀ e ∈ document.entries, Json.value? e.2 = some e.2 := by
      intro e he
      rw [Json.value?, if_pos (h e he).fits.isReadable, (h e he).distinct]
    have members := @Json.asMembers?_map Json id Json.value? document.entries read
    rwa [show document.entries.map (fun e => (e.1, id e.2)) = document.entries from List.map_id _]
      at members
  simp only [ofText?, toText, Json.parse?_pretty fits, Option.bind_eq_bind, Option.bind_some,
    values, Option.pure_def, SortedMap.ofList_entries]

end Document

/-! ## On a disk -/

namespace DocumentStore

open Store

/-- The document at a path. -/
def documentAt (d : Disk) (path : String) : Except Failure Document :=
  if (d.find? path.toList).toOption.isSome then
    match d.text path with
    | .error cause => .error (.documentUnreadable path cause)
    | .ok text =>
      match Document.ofText? text with
      | some document => .ok document
      | none => .error (.documentInvalid path)
  else .ok .empty

variable {d d' : Disk} {path app : String} {document : Document} {json : Json}

theorem run_readDocument (d : Disk) (path : String) :
    d.run (readDocument path) = (documentAt d path, d) := by
  unfold readDocument documentAt
  rw [Disk.run_bind_of_ok (Disk.run_exists? path)]
  by_cases hthere : (d.find? path.toList).toOption.isSome = true
  · rw [if_pos hthere, if_pos hthere, Disk.run_bind_of_ok (Disk.run_readText path)]
    rcases d.text path with cause | text
    · exact Disk.run_throw _
    · simp only
      rcases Document.ofText? text with _ | document
      · exact Disk.run_throw _
      · exact Disk.run_pure _
  · rw [if_neg hthere, if_neg hthere]
    exact Disk.run_pure _

theorem isPlain_of_documentAt (h : documentAt d path = .ok document) : document.IsPlain := by
  unfold documentAt at h
  split at h
  · split at h
    · cases h
    · split at h
      next hread =>
        cases h
        exact Document.isPlain_of_ofText? hread
      next => cases h
  · cases h
    exact Document.isPlain_empty

/-- The folder that is made for a document. -/
def parentOf (path : String) : List Char := (Path.parent? path.toList).getD []

/-- Writing a document makes its folder, and then the file. -/
theorem run_writeDocument (d : Disk) (path : String) (document : Document) :
    d.run (writeDocument path document) = match d.makeFolders (parentOf path) with
      | (.error cause, next) =>
        (.error (.documentUnwritable (String.ofList (parentOf path)) cause), next)
      | (.ok (), next) =>
        match next.write path.toList document.toText.toUTF8 with
        | .error cause => (.error (.documentUnwritable path cause), next)
        | .ok last => (.ok (), last) := by
  unfold writeDocument
  have made := Disk.run_makeFolders (d := d) (String.ofList (parentOf path))
  rw [String.toList_ofList] at made
  refine (Disk.run_bind_of_ok made _).trans ?_
  rcases d.makeFolders (parentOf path) with ⟨cause | ⟨⟩, next⟩
  · exact Disk.run_throw _
  · simp only
    rw [Disk.run_bind, Disk.run_write]
    rcases next.write path.toList document.toText.toUTF8 with cause | last
    · exact Disk.run_throw _
    · exact Disk.run_pure _

/-- A document that was written was put into its folder. -/
theorem exists_of_writeDocument (h : d.run (writeDocument path document) = (.ok (), d')) :
    ∃ next, d.makeFolders (parentOf path) = (.ok (), next) ∧
      next.write path.toList document.toText.toUTF8 = .ok d' := by
  rw [run_writeDocument] at h
  rcases hmade : d.makeFolders (parentOf path) with ⟨cause | ⟨⟩, next⟩
  · simp only [hmade, Prod.mk.injEq, reduceCtorEq, false_and] at h
  · simp only [hmade] at h
    rcases hput : next.write path.toList document.toText.toUTF8 with cause | last
    · simp only [hput, Prod.mk.injEq, reduceCtorEq, false_and] at h
    · simp only [hput, Prod.mk.injEq, true_and] at h
      exact ⟨next, rfl, h ▸ hput⟩

theorem documentAt_of_writeDocument (hplain : document.IsPlain)
    (h : d.run (writeDocument path document) = (.ok (), d')) :
    documentAt d' path = .ok document := by
  obtain ⟨next, -, hput⟩ := exists_of_writeDocument h
  obtain ⟨⟨place, hfind⟩, hread⟩ := Disk.read_of_write hput
  have there : (d'.find? path.toList).toOption.isSome = true := by
    rw [hfind]
    rfl
  rw [documentAt, if_pos there, Disk.text_of_read hread]
  simp only [Document.ofText?_toText hplain]

/-- To save is to read the document and to write it with one entry set. -/
theorem run_saveEntry (d : Disk) (path app : String) (json : Json) :
    d.run (saveEntry path app json) = match documentAt d path with
      | .error e => (.error e, d)
      | .ok document =>
        d.run (writeDocument path (document.insert (storedName app) json.distinct)) := by
  unfold saveEntry
  rw [Disk.run_bind, run_readDocument]
  rcases documentAt d path with e | document <;> rfl

/-- To load is to read the document and to take one entry. -/
theorem run_loadEntry {α : Type} (d : Disk) (path app : String) (value? : Json → Option α) :
    d.run (loadEntry path value? app) = (match documentAt d path with
      | .error e => .error e
      | .ok document =>
        match document.get? (storedName app) with
        | none => .error (.notStored (storedName app))
        | some json =>
          match value? json with
          | some value => .ok value
          | none => .error (.documentInvalid path), d) := by
  unfold loadEntry
  rw [Disk.run_bind, run_readDocument]
  rcases documentAt d path with e | document
  · rfl
  simp only
  rcases document.get? (storedName app) with _ | json
  · exact Disk.run_throw _
  simp only
  rcases value? json with _ | value
  · exact Disk.run_throw _
  · exact Disk.run_pure _

theorem exists_of_saveEntry (h : d.run (saveEntry path app json) = (.ok (), d')) :
    ∃ document, documentAt d path = .ok document ∧
      d.run (writeDocument path (document.insert (storedName app) json.distinct)) =
        (.ok (), d') := by
  rw [run_saveEntry] at h
  rcases hdocument : documentAt d path with e | document
  · simp only [hdocument, Prod.mk.injEq, reduceCtorEq, false_and] at h
  · simp only [hdocument] at h
    exact ⟨document, rfl, h⟩

theorem documentAt_of_saveEntry (hjson : Fits (Json.maxDepth - 1) json)
    (h : d.run (saveEntry path app json) = (.ok (), d')) :
    ∃ document, documentAt d path = .ok document ∧
      documentAt d' path = .ok (document.insert (storedName app) json.distinct) := by
  obtain ⟨document, hdocument, hwrite⟩ := exists_of_saveEntry h
  have plain : Document.IsPlain (document.insert (storedName app) json.distinct) :=
    (isPlain_of_documentAt hdocument).insert ⟨hjson.distinct, Json.distinct_distinct json⟩
  exact ⟨document, hdocument, documentAt_of_writeDocument plain hwrite⟩

/-- **Saving and loading.** What is saved under a name is what is loaded under it next, each member
of its objects once. -/
theorem loadEntry_of_saveEntry {α : Type} {value? : Json → Option α}
    (hjson : Fits (Json.maxDepth - 1) json)
    (h : d.run (saveEntry path app json) = (.ok (), d')) :
    d'.run (loadEntry path value? app) =
      (match value? json.distinct with
        | some value => .ok value
        | none => .error (.documentInvalid path), d') := by
  obtain ⟨document, -, hsaved⟩ := documentAt_of_saveEntry hjson h
  simp only [run_loadEntry, hsaved, SortedMap.get?_insert, if_true]

/-! ### The files that are left -/

theorem wrote_of_writeDocument (h : d.run (writeDocument path document) = (.ok (), d')) :
    ∃ place, d'.find? path.toList = .ok place ∧ d.Wrote d' place document.toText.toUTF8 := by
  obtain ⟨next, hmade, hput⟩ := exists_of_writeDocument h
  obtain ⟨place, hfind, wrote⟩ := Disk.wrote_of_write hput
  have grows := Disk.grows_makeFolders d (parentOf path)
  rw [hmade] at grows
  exact ⟨place, hfind, grows.wrote wrote⟩

theorem grows_of_writeDocument {e : Failure}
    (h : d.run (writeDocument path document) = (.error e, d')) : d.Grows d' := by
  have grows := Disk.grows_makeFolders d (parentOf path)
  rw [run_writeDocument] at h
  rcases hmade : d.makeFolders (parentOf path) with ⟨cause | ⟨⟩, next⟩
  · simp only [hmade, Prod.mk.injEq] at h grows
    exact h.2 ▸ grows
  · simp only [hmade] at h grows
    rcases hput : next.write path.toList document.toText.toUTF8 with cause | last
    · simp only [hput, Prod.mk.injEq] at h
      exact h.2 ▸ grows
    · simp only [hput, Prod.mk.injEq, reduceCtorEq, false_and] at h

theorem grows_of_saveEntry {e : Failure}
    (h : d.run (saveEntry path app json) = (.error e, d')) : d.Grows d' := by
  rw [run_saveEntry] at h
  rcases hdocument : documentAt d path with e' | document
  · simp only [hdocument, Prod.mk.injEq] at h
    rw [← h.2]
    exact .refl d
  · simp only [hdocument] at h
    exact grows_of_writeDocument h

end DocumentStore

end ReleaseSchema
