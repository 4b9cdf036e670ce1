/-
Sessions with a store. A store of documents that begins without them answers
every session as a store in memory does (`DocumentStore.answers_eq_memory`), as
long as its files can be written. Each document holds the values that the
memory has, as they are written (`Document.Holds`), and each operation keeps
that (`DocumentStore.step_mirrors`): saving one document changes no entry of
other applications, and nothing of the other document.
-/
import ReleaseSchema.Proofs.Build
import ReleaseSchema.Proofs.Release.Manifest
import ReleaseSchema.Proofs.Store.Document
import ReleaseSchema.Proofs.Store.Paths
import ReleaseSchema.Store.Memory

namespace ReleaseSchema

open Json (Fits Plain)

/-! ## Operations and answers -/

namespace Store

/-- What a store is asked for. -/
inductive Operation where
  | saveCatalog (app : String) (catalog : Catalog)
  | loadCatalog (app : String)
  | saveManifests (app : String) (manifests : List Manifest)
  | loadManifests (app : String)

/-- What an operation gives. -/
inductive Outcome where
  | saved
  | catalog (catalog : Catalog)
  | manifests (manifests : List Manifest)

abbrev Answer := Except Failure Outcome

/-- A file could not be written. -/
def Answer.isUnwritable : Answer → Bool
  | .error (.documentUnwritable _ _) => true
  | _ => false

/-- The answers to operations, each asked in the state that the one before it left. -/
def answers (step : σ → Operation → Answer × σ) : σ → List Operation → List Answer
  | _, [] => []
  | state, op :: ops => (step state op).1 :: answers step (step state op).2 ops

/-- The catalogs are built or read and repeat no column. The manifests are built, and what they say
of other applications is nested at most a hundred deep. -/
def Operation.IsRegular : Operation → Prop
  | .saveCatalog _ catalog =>
    ((∃ manifests sources, Catalog.build manifests sources = catalog) ∨
      ∃ json, Catalog.ofJson? json = some catalog) ∧ catalog.HasDistinctColumns
  | .saveManifests _ manifests =>
    ∀ manifest ∈ manifests, (∃ path text, Manifest.ofText? path text = some manifest) ∧
      ∀ step ∈ manifest.steps, ∀ json ∈ step.dependencies, Fits 100 json
  | .loadCatalog _ | .loadManifests _ => True

end Store

open Store

/-- One operation on the documents of a disk. -/
def DocumentStore.step (s : DocumentStore) (d : Disk) : Operation → Answer × Disk
  | .saveCatalog app catalog => d.run do
    s.saveCatalog app catalog
    return .saved
  | .loadCatalog app => d.run do return .catalog (← s.loadCatalog app)
  | .saveManifests app manifests => d.run do
    s.saveManifests app manifests
    return .saved
  | .loadManifests app => d.run do return .manifests (← s.loadManifests app)

def MemoryStore.step (s : MemoryStore) : Operation → Answer × MemoryStore
  | .saveCatalog app catalog => (.ok .saved, s.saveCatalog app catalog)
  | .loadCatalog app => ((s.loadCatalog app).map .catalog, s)
  | .saveManifests app manifests => (.ok .saved, s.saveManifests app manifests)
  | .loadManifests app => ((s.loadManifests app).map .manifests, s)

/-! ## Documents and maps -/

section Holds

variable {α : Type} {write : α → Json} {read : Json → Option α}

/-- The document has the values of the map as they are written, and they are read back. -/
structure Document.Holds (write : α → Json) (read : Json → Option α) (document : Document)
    (m : SortedMap String α) : Prop where
  get? : ∀ name, document.get? name = (m.get? name).map write
  read : ∀ name, ∀ a ∈ m.get? name, read (write a) = some a

theorem Document.holds_empty : Holds write read .empty .empty :=
  ⟨fun _ => rfl, fun _ _ h => nomatch h⟩

theorem Document.Holds.insert {document : Document} {m : SortedMap String α}
    (h : document.Holds write read m) {a : α} (ha : read (write a) = some a) (name : String) :
    Holds write read (SortedMap.insert name (write a) document) (m.insert name a) := by
  refine ⟨fun other => ?_, fun other b hb => ?_⟩
  · rw [SortedMap.get?_insert, SortedMap.get?_insert]
    by_cases hother : other = name
    · rw [if_pos hother, if_pos hother, Option.map_some]
    · rw [if_neg hother, if_neg hother, h.get?]
  · rw [SortedMap.get?_insert] at hb
    by_cases hother : other = name
    · rw [if_pos hother] at hb
      cases hb
      exact ha
    · rw [if_neg hother] at hb
      exact h.read other b hb

/-- Loading from a document that holds a map answers as the map does. -/
theorem DocumentStore.run_loadEntry_of_holds {d : Disk} {path : String} {document : Document}
    {m : SortedMap String α} (hdocument : documentAt d path = .ok document)
    (h : document.Holds write read m) (app : String) :
    d.run (loadEntry path read app) = (match m.get? (storedName app) with
      | some a => .ok a
      | none => .error (.notStored (storedName app)), d) := by
  rw [run_loadEntry, hdocument]
  simp only [h.get?]
  cases hvalue : m.get? (storedName app) with
  | none => rfl
  | some a => simp only [Option.map_some, h.read _ a hvalue]

end Holds

/-! ## Saving -/

namespace DocumentStore

variable {s : DocumentStore} {d d' : Disk} {ending other : String}

theorem parentOf_pathOf (s : DocumentStore) (h : IsEnding ending) (h' : IsEnding other) :
    parentOf (s.pathOf ending) = parentOf (s.pathOf other) := by
  rw [parentOf, parentOf, parent?_pathOf s h h']

theorem documentAt_of_write_other {content : ByteArray} (h : IsEnding ending)
    (h' : IsEnding other) (hne : other ≠ ending)
    (hwrite : d.write (s.pathOf ending).toList content = .ok d') :
    documentAt d' (s.pathOf other) = documentAt d (s.pathOf other) := by
  obtain ⟨hfind, hread⟩ := read_of_write_other h h' hne hwrite
  rw [documentAt, documentAt, Disk.text, Disk.text, hfind, hread]

/-- Neither document is there, also once the folder of the store is. -/
def IsFresh (s : DocumentStore) (d : Disk) : Prop :=
  ∀ path ∈ [s.catalogPath, s.manifestPath], ∀ place,
    (d.makeFolders (parentOf path)).2.find? path.toList ≠ .ok place

/-- Making the folder of the document does not change it. -/
def IsSettled (d : Disk) (path : String) : Prop :=
  documentAt (d.makeFolders (parentOf path)).2 path = documentAt d path

/-- What a save leaves if the file can be written. -/
theorem documents_of_saveEntry {app : String} {json : Json} {document : Document}
    (h : IsEnding ending) (h' : IsEnding other) (hne : other ≠ ending)
    (plain : Plain (Json.maxDepth - 1) json)
    (hdocument : documentAt d (s.pathOf ending) = .ok document)
    (settled : IsSettled d (s.pathOf other))
    (written : ∀ path cause, (d.run (saveEntry (s.pathOf ending) app json)).1 ≠
      .error (.documentUnwritable path cause)) :
    ∃ d', d.run (saveEntry (s.pathOf ending) app json) = (.ok (), d') ∧
      documentAt d' (s.pathOf ending) = .ok (SortedMap.insert (storedName app) json document) ∧
      documentAt d' (s.pathOf other) = documentAt d (s.pathOf other) ∧
      IsSettled d' (s.pathOf ending) ∧ IsSettled d' (s.pathOf other) := by
  have hrun := run_saveEntry d (s.pathOf ending) app json
  simp only [hdocument, run_writeDocument, plain.distinct] at hrun
  rcases hmade : d.makeFolders (parentOf (s.pathOf ending)) with ⟨cause | ⟨⟩, next⟩
  · simp only [hmade] at hrun
    exact absurd (congrArg Prod.fst hrun) (written _ _)
  simp only [hmade] at hrun
  rcases hput : next.write (s.pathOf ending).toList (Document.toText
    (SortedMap.insert (storedName app) json document)).toUTF8 with cause | d'
  · simp only [hput] at hrun
    exact absurd (congrArg Prod.fst hrun) (written _ _)
  simp only [hput] at hrun
  have parents := parentOf_pathOf s h h'
  obtain ⟨place, -, wrote⟩ := Disk.wrote_of_write hput
  have again := Disk.makeFolders_again hmade wrote.toExtends
  refine ⟨d', hrun, ?_, ?_, ?_, ?_⟩
  · obtain ⟨before, hbefore, hsaved⟩ := documentAt_of_saveEntry plain.fits hrun
    rw [hdocument] at hbefore
    cases hbefore
    rw [hsaved, plain.distinct]
  · rw [IsSettled, ← parents, hmade] at settled
    rw [documentAt_of_write_other h h' hne hput, settled]
  · rw [IsSettled, again]
  · rw [IsSettled, ← parents, again]

/-! ## Sessions -/

/-- The documents hold what a store in memory does, whether or not their folder is there. -/
structure Mirrors (s : DocumentStore) (d : Disk) (memory : MemoryStore) : Prop where
  catalogs : ∃ document, documentAt d s.catalogPath = .ok document ∧
    document.Holds Catalog.toJson Catalog.ofJson? memory.catalogs
  manifests : ∃ document, documentAt d s.manifestPath = .ok document ∧
    document.Holds (fun manifests => .array (manifests.map Manifest.toJson))
      (Json.asList? Manifest.ofJson?) memory.manifests
  settledCatalogs : IsSettled d s.catalogPath
  settledManifests : IsSettled d s.manifestPath

theorem documentAt_of_missing {path : String} (h : ∀ place, d.find? path.toList ≠ .ok place) :
    documentAt d path = .ok .empty := by
  rw [documentAt]
  rcases hfind : d.find? path.toList with e | place
  · rfl
  · exact absurd hfind (h place)

theorem IsFresh.mirrors (fresh : s.IsFresh d) : s.Mirrors d {} := by
  have empty : ∀ path ∈ [s.catalogPath, s.manifestPath],
      documentAt d path = .ok .empty ∧ IsSettled d path := by
    intro path hpath
    have kept := (Disk.grows_makeFolders d (parentOf path)).toExtends
    have now : documentAt d path = .ok .empty := documentAt_of_missing fun place hfind =>
      fresh path hpath place (Disk.find?_of_extends kept hfind)
    refine ⟨now, ?_⟩
    rw [IsSettled, now, documentAt_of_missing (fresh path hpath)]
  obtain ⟨hcatalogs, settledCatalogs⟩ := empty s.catalogPath (by simp)
  obtain ⟨hmanifests, settledManifests⟩ := empty s.manifestPath (by simp)
  exact ⟨⟨.empty, hcatalogs, Document.holds_empty⟩, ⟨.empty, hmanifests, Document.holds_empty⟩,
    settledCatalogs, settledManifests⟩

theorem isEnding_catalogs : IsEnding "-db-data.json" := by decide

theorem isEnding_manifests : IsEnding "-dbs.json" := by decide

/-- An operation that ends in a save could write its file if the save could. -/
theorem written_of_saving {x : ExceptT Failure (StateM Disk) Unit}
    (h : Answer.isUnwritable (d.run do x; return .saved).1 = false) (path : String)
    (cause : FileError) : (d.run x).1 ≠ .error (.documentUnwritable path cause) := by
  intro hx
  rw [Disk.run_bind] at h
  rcases hrun : d.run x with ⟨e | ⟨⟩, next⟩
  · rw [hrun] at h hx
    cases hx
    cases h
  · rw [hrun] at hx
    cases hx

section Steps

variable {memory : MemoryStore} {app : String}

theorem mirrors_saveCatalog (h : s.Mirrors d memory) {catalog : Catalog}
    (regular : (Operation.saveCatalog app catalog).IsRegular)
    (written : (s.step d (.saveCatalog app catalog)).1.isUnwritable = false) :
    (s.step d (.saveCatalog app catalog)).1 = .ok .saved ∧
      s.Mirrors (s.step d (.saveCatalog app catalog)).2 (memory.saveCatalog app catalog) := by
  obtain ⟨origin, distinct⟩ := regular
  have back : catalog.ReadsBack := by
    rcases origin with ⟨manifests, sources, rfl⟩ | ⟨json, hread⟩
    · exact Catalog.readsBack_build manifests sources
    · exact Catalog.readsBack_of_ofJson? hread
  have plain : Plain (Json.maxDepth - 1) catalog.toJson := by
    refine ⟨catalog.fits_inside, ?_⟩
    rw [catalog.distinct_toJson, (Catalog.collapsed_eq_self_iff catalog).2 distinct]
  obtain ⟨document, hdocument, holds⟩ := h.catalogs
  obtain ⟨manifests, hmanifests, holdsManifests⟩ := h.manifests
  obtain ⟨d', hrun, hsaved, hother, settled, settledOther⟩ :=
    documents_of_saveEntry isEnding_catalogs isEnding_manifests (by decide) plain hdocument
      h.settledManifests (written_of_saving written)
  have step : s.step d (.saveCatalog app catalog) = (.ok .saved, d') :=
    Disk.run_bind_of_ok hrun _
  rw [step]
  exact ⟨rfl, ⟨_, hsaved, holds.insert (Catalog.ofJson?_toJson back) _⟩,
    ⟨manifests, hother.trans hmanifests, holdsManifests⟩, settled, settledOther⟩

theorem mirrors_saveManifests (h : s.Mirrors d memory) {manifests : List Manifest}
    (regular : (Operation.saveManifests app manifests).IsRegular)
    (written : (s.step d (.saveManifests app manifests)).1.isUnwritable = false) :
    (s.step d (.saveManifests app manifests)).1 = .ok .saved ∧
      s.Mirrors (s.step d (.saveManifests app manifests)).2
        (memory.saveManifests app manifests) := by
  have plain : ∀ manifest ∈ manifests, manifest.IsPlain 100 := by
    intro manifest hmanifest
    obtain ⟨⟨path, text, hread⟩, fits⟩ := regular manifest hmanifest
    exact Manifest.isPlain_of_ofText? hread fits
  have plainAll : Plain (Json.maxDepth - 1) (.array (manifests.map Manifest.toJson)) := by
    refine Plain.array fun item hitem => ?_
    obtain ⟨manifest, hmanifest, rfl⟩ := List.mem_map.1 hitem
    exact (Manifest.plain_toJson (plain manifest hmanifest)).mono (show 105 ≤ 125 by decide)
  have read : Json.asList? Manifest.ofJson? (.array (manifests.map Manifest.toJson)) =
      some manifests :=
    Json.asList?_map fun manifest hmanifest => Manifest.ofJson?_toJson (plain manifest hmanifest)
  obtain ⟨document, hdocument, holds⟩ := h.manifests
  obtain ⟨catalogs, hcatalogs, holdsCatalogs⟩ := h.catalogs
  obtain ⟨d', hrun, hsaved, hother, settled, settledOther⟩ :=
    documents_of_saveEntry isEnding_manifests isEnding_catalogs (by decide) plainAll hdocument
      h.settledCatalogs (written_of_saving written)
  have step : s.step d (.saveManifests app manifests) = (.ok .saved, d') :=
    Disk.run_bind_of_ok hrun _
  rw [step]
  exact ⟨rfl, ⟨catalogs, hother.trans hcatalogs, holdsCatalogs⟩, ⟨_, hsaved, holds.insert read _⟩,
    settledOther, settled⟩

theorem step_loadCatalog (h : s.Mirrors d memory) :
    s.step d (.loadCatalog app) = ((memory.loadCatalog app).map .catalog, d) := by
  obtain ⟨document, hdocument, holds⟩ := h.catalogs
  have loaded : d.run (s.loadCatalog app) = (memory.loadCatalog app, d) := by
    refine (run_loadEntry_of_holds hdocument holds app).trans ?_
    rw [MemoryStore.loadCatalog]
    rcases memory.catalogs.get? (storedName app) with _ | catalog <;> rfl
  rw [step, Disk.run_bind, loaded]
  rcases memory.loadCatalog app with e | catalog <;> rfl

theorem step_loadManifests (h : s.Mirrors d memory) :
    s.step d (.loadManifests app) = ((memory.loadManifests app).map .manifests, d) := by
  obtain ⟨document, hdocument, holds⟩ := h.manifests
  have loaded : d.run (s.loadManifests app) = (memory.loadManifests app, d) := by
    refine (run_loadEntry_of_holds hdocument holds app).trans ?_
    rw [MemoryStore.loadManifests]
    rcases memory.manifests.get? (storedName app) with _ | manifests <;> rfl
  rw [step, Disk.run_bind, loaded]
  rcases memory.loadManifests app with e | manifests <;> rfl

/-- **One operation.** Both stores answer alike, and go on alike. -/
theorem step_mirrors (h : s.Mirrors d memory) {op : Operation} (regular : op.IsRegular)
    (written : (s.step d op).1.isUnwritable = false) :
    (s.step d op).1 = (memory.step op).1 ∧ s.Mirrors (s.step d op).2 (memory.step op).2 := by
  cases op with
  | saveCatalog app catalog => exact mirrors_saveCatalog h regular written
  | loadCatalog app =>
    rw [step_loadCatalog h]
    exact ⟨rfl, h⟩
  | saveManifests app manifests => exact mirrors_saveManifests h regular written
  | loadManifests app =>
    rw [step_loadManifests h]
    exact ⟨rfl, h⟩

end Steps

/-- **A session.** A store of documents that begins without them answers every operation as a store
in memory does: with the value last saved under the name, or that there is none. -/
theorem answers_eq_memory (fresh : s.IsFresh d) {ops : List Operation}
    (regular : ∀ op ∈ ops, op.IsRegular)
    (written : ∀ answer ∈ answers s.step d ops, answer.isUnwritable = false) :
    answers s.step d ops = answers MemoryStore.step {} ops := by
  have mirrors := fresh.mirrors
  clear fresh
  generalize ({} : MemoryStore) = memory at mirrors ⊢
  induction ops generalizing d memory with
  | nil => rfl
  | cons op ops ih =>
    rw [answers, List.forall_mem_cons] at written
    obtain ⟨same, next⟩ := step_mirrors mirrors (regular op List.mem_cons_self) written.1
    rw [answers, answers, same]
    exact congrArg _ (ih (fun op hop => regular op (List.mem_cons_of_mem _ hop)) written.2 _ next)

/-! ### A session in an empty folder -/

theorem documentAt_ne_unwritable (d : Disk) (path folder : String) (cause : FileError) :
    documentAt d path ≠ .error (.documentUnwritable folder cause) := by
  intro h
  unfold documentAt at h
  split at h
  · split at h
    · cases h
    · split at h <;> cases h
  · cases h

theorem isUnwritable_loadEntry {α : Type} (d : Disk) (path app : String) (read : Json → Option α)
    (outcome : α → Outcome) :
    Answer.isUnwritable (d.run do return outcome (← loadEntry path read app)).1 = false ∧
      (d.run do return outcome (← loadEntry path read app)).2 = d := by
  rw [Disk.run_bind, run_loadEntry]
  rcases hdocument : documentAt d path with e | document
  · cases e with
    | documentUnwritable folder cause =>
      exact absurd hdocument (documentAt_ne_unwritable d path folder cause)
    | _ => exact ⟨rfl, rfl⟩
  · simp only
    rcases document.get? (storedName app) with _ | json
    · exact ⟨rfl, rfl⟩
    simp only
    rcases read json with _ | value <;> exact ⟨rfl, rfl⟩

/-- What a manifest says of another application. -/
def baseFirst : Json := .array [.string "base"]

theorem fits_baseFirst {depth : Nat} : Fits (depth + 1) baseFirst :=
  .array (List.forall_mem_singleton.2 .string)

def shopManifest : Manifest where
  fileName := "app/postgres/release/1.0.0.0/version.json"
  versionName := "1.0.0.0"
  steps :=
    [{ dependencies := some baseFirst
       fileList := ["03-tables/abct_user_usr.sql"]
       files := [⟨.table, "abct_user_usr",
         "app/postgres/release/1.0.0.0/03-tables/abct_user_usr.sql"⟩] }]

def shopManifestText : Json :=
  .array [.object [("dependencies", baseFirst),
    ("fileList", .array [.string "03-tables/abct_user_usr.sql"])]]

theorem ofText?_shopManifest :
    Manifest.ofText? "app/postgres/release/1.0.0.0/version.json".toList shopManifestText.pretty =
      some shopManifest := by
  have fits : Fits Json.maxDepth shopManifestText :=
    .array (List.forall_mem_singleton.2 (.object (List.forall_mem_cons.2
      ⟨fits_baseFirst, List.forall_mem_singleton.2 (.array (List.forall_mem_singleton.2 .string))⟩)))
  rw [Manifest.ofText?, Json.parse?_pretty fits]
  rfl

/-- The catalog of the manifest, whose only file defines a table. -/
def shopCatalog : Catalog :=
  Catalog.build [shopManifest] fun _ => some "create table abct_user_usr (usr_a int, usr_b text);"

/-- Two names of one application, and one of another. -/
def shopSession (manifests : List Manifest) (catalog : Catalog) : List Operation :=
  [.loadCatalog "shop", .saveManifests "shop" manifests, .saveCatalog "shop-database" catalog,
    .loadManifests "shop-database", .loadCatalog "shop", .loadManifests "mall"]

theorem isRegular_shopSession : ∀ op ∈ shopSession [shopManifest] shopCatalog, op.IsRegular := by
  have manifests : (Operation.saveManifests "shop" [shopManifest]).IsRegular := by
    refine List.forall_mem_singleton.2 ⟨⟨_, _, ofText?_shopManifest⟩, ?_⟩
    refine List.forall_mem_singleton.2 fun json hjson => ?_
    cases hjson
    exact fits_baseFirst
  have catalog : (Operation.saveCatalog "shop-database" shopCatalog).IsRegular :=
    ⟨.inl ⟨_, _, rfl⟩, by decide +kernel⟩
  simp only [shopSession, List.forall_mem_cons]
  exact ⟨trivial, manifests, catalog, trivial, trivial, trivial, fun _ h => nomatch h⟩

theorem isFresh_empty : IsFresh { folder := "data" } {} := by
  have missing : ∀ path ∈ ["data/dbrepo-db-data.json", "data/dbrepo-dbs.json"],
      ((Disk.makeFolders {} (parentOf path)).2.find? path.toList).toOption = none := by
    decide +kernel
  intro path hpath place hfind
  have none := missing path hpath
  rw [hfind] at none
  cases none

theorem written_shopSession :
    ∀ answer ∈ answers (step { folder := "data" }) {} (shopSession [shopManifest] shopCatalog),
      answer.isUnwritable = false := by
  have catalogs : ∀ d app, (step { folder := "data" } d (.loadCatalog app)).1.isUnwritable = false ∧
      (step { folder := "data" } d (.loadCatalog app)).2 = d :=
    fun d app => isUnwritable_loadEntry d _ app _ _
  have manifests : ∀ d app,
      (step { folder := "data" } d (.loadManifests app)).1.isUnwritable = false ∧
        (step { folder := "data" } d (.loadManifests app)).2 = d :=
    fun d app => isUnwritable_loadEntry d _ app _ _
  simp only [shopSession, answers, List.forall_mem_cons, catalogs, manifests]
  refine ⟨trivial, ?_, ?_, trivial, trivial, trivial, fun _ h => nomatch h⟩
  · decide +kernel
  · decide +kernel

theorem answers_memory_shopSession (manifests : List Manifest) (catalog : Catalog) :
    answers MemoryStore.step {} (shopSession manifests catalog) =
      [.error (.notStored "shop-database"), .ok .saved, .ok .saved, .ok (.manifests manifests),
        .ok (.catalog catalog), .error (.notStored "mall-database")] := by
  rfl

/-- In an empty folder a session finds what it saved, under either name of the application. -/
theorem answers_eq_memory_shop_session :
    answers (step { folder := "data" }) {} (shopSession [shopManifest] shopCatalog) =
      [.error (.notStored "shop-database"), .ok .saved, .ok .saved,
        .ok (.manifests [shopManifest]), .ok (.catalog shopCatalog),
        .error (.notStored "mall-database")] :=
  (answers_eq_memory isFresh_empty isRegular_shopSession written_shopSession).trans
    (answers_memory_shopSession _ _)

end DocumentStore

end ReleaseSchema
