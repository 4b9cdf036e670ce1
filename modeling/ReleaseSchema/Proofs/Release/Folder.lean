/-
The release of a repository as it is read from a disk. The manifests that are found are
the files of that name right inside the folders of the release folder, in the order of the
names of those (`run_findManifests`), and each is read for itself, from the file that its
path leads to (`readManifest_comesTo`).
-/
import ReleaseSchema.Proofs.Disk.Tree
import ReleaseSchema.Proofs.Run
import ReleaseSchema.Proofs.Traverse
import ReleaseSchema.Release.Folder

namespace ReleaseSchema.Release

open Disk (ReadsOnly)

/-! ## Reading leaves the disk as it is -/

theorem readsOnly_findManifests (repository : String) : ReadsOnly (findManifests repository) := by
  refine (ReadsOnly.isFolder _).bind fun there => ?_
  cases there with
  | false => exact .throw _
  | true =>
    refine (ReadsOnly.folders _).bind fun versions => ?_
    refine (ReadsOnly.filterM (fun version => ?_) versions).bind fun _ => .pure _
    exact (ReadsOnly.files _).bind fun _ => .pure _

theorem readsOnly_readManifest (path : String) : ReadsOnly (readManifest path) := by
  refine (ReadsOnly.readText path).bind fun answer => ?_
  rcases answer with cause | text
  · exact .throw _
  · dsimp only
    rcases Manifest.ofText? path.toList text with _ | manifest
    · exact .throw _
    · exact .pure _

theorem readsOnly_read (repository : String) : ReadsOnly (read repository) :=
  (readsOnly_findManifests repository).bind fun paths => .mapM readsOnly_readManifest paths

variable {d : Disk} {repository version : String} {place : Place}

/-! ## The release folder -/

/-- `postgres/release` under a repository is a folder, and this is where. An empty path is that of
the working folder. -/
def FolderAt (d : Disk) (repository : String) (place : Place) : Prop :=
  ∃ home entries, d.home? repository.toList = .ok home ∧ place = "release" :: "postgres" :: home ∧
    d.at? place = some (.folder entries)

theorem isName_release : Path.IsName "release".toList := by decide

theorem isName_postgres : Path.IsName "postgres".toList := by decide

theorem isName_manifest : Path.IsName Manifest.baseName.toList := by decide

theorem folder_end (repository : List Char) :
    folder repository ≠ [] ∧ (folder repository).getLast? ≠ some '/' :=
  isName_release.join_end _

/-- The text of the release folder leads to where it is. -/
theorem folderAt_iff : FolderAt d repository place ↔
    ∃ entries, d.find? (folder repository.toList) = .ok place ∧
      d.at? place = some (.folder entries) := by
  have hne := (isName_postgres.join_end repository.toList).1
  simp only [folder, Disk.find?_join isName_release, ← Disk.find?_eq_home? hne,
    Disk.find?_join isName_postgres, String.ofList_toList, FolderAt]
  constructor
  · rintro ⟨home, entries, hhome, rfl, hplace⟩
    obtain ⟨inner, hinner, -⟩ := Disk.exists_of_at?_cons hplace
    exact ⟨entries, ⟨_, _, ⟨home, _, hhome, hinner, rfl⟩, hplace, rfl⟩, hplace⟩
  · rintro ⟨entries, ⟨above, node, ⟨home, inner, hhome, hinner, rfl⟩, hnode, rfl⟩, hplace⟩
    exact ⟨home, entries, hhome, rfl, hplace⟩

theorem isFolder_folder_iff :
    d.isFolder (folder repository.toList) = true ↔ ∃ place, FolderAt d repository place := by
  simp only [Disk.isFolder_iff, folderAt_iff]

/-! ## The manifest of a version -/

/-- The folder of a version is a name behind the release folder, and its manifest one behind that. -/
theorem toList_manifestPath (named : Path.IsName version.toList) :
    (manifestPath (folder repository.toList) version).toList =
      (folder repository.toList ++ '/' :: version.toList) ++ '/' :: Manifest.baseName.toList := by
  obtain ⟨hne, hlast⟩ := folder_end repository.toList
  obtain ⟨hne', hlast'⟩ := named.join_end (folder repository.toList)
  rw [manifestPath, String.toList_ofList, Path.join_of_name isName_manifest hne' hlast',
    Path.join_of_name named hne hlast]

theorem manifestPath_eq (named : Path.IsName version.toList) :
    manifestPath (folder repository.toList) version =
      String.ofList (folder repository.toList) ++ "/" ++ version ++ "/version.json" := by
  rw [← String.toList_inj, toList_manifestPath named]
  simp [Manifest.baseName]

theorem versionName_of_ofText? (named : Path.IsName version.toList) {text : String} {m : Manifest}
    (h : Manifest.ofText? (manifestPath (folder repository.toList) version).toList text = some m) :
    m.versionName = version := by
  have hne := (folder_end repository.toList).1
  simp only [Manifest.ofText?, Option.bind_eq_bind, Option.bind_eq_some_iff, Option.pure_def,
    Option.some.injEq] at h
  obtain ⟨json, -, steps, -, rfl⟩ := h
  rw [toList_manifestPath named, Path.parent?_child_child isName_manifest named hne, Option.getD_some,
    Path.fileName?_child named hne, Option.getD_some, String.ofList_toList]

theorem read_manifestPath (h : FolderAt d repository place) (named : Path.IsName version.toList)
    {content : ByteArray} :
    d.read (manifestPath (folder repository.toList) version).toList = .ok content ↔
      d.file? (Manifest.baseName :: version :: place) = some content := by
  obtain ⟨entries, hfind, hplace⟩ := folderAt_iff.1 h
  have inner := (named.join_end (folder repository.toList)).1
  rw [Disk.find?_eq_home? (folder_end repository.toList).1] at hfind
  simp only [Disk.read_eq_ok_iff, manifestPath, String.toList_ofList,
    Disk.find?_join isName_manifest, ← Disk.find?_eq_home? inner, Disk.find?_join named, hfind,
    String.ofList_toList]
  constructor
  · rintro ⟨_, ⟨_, node, ⟨_, inner, same, hinner, rfl⟩, hnode, rfl⟩, hfile⟩
    cases same
    exact hfile
  · intro hfile
    have hnode := Disk.file?_eq_some_iff.1 hfile
    obtain ⟨inner, hinner, -⟩ := Disk.exists_of_at?_cons hnode
    exact ⟨_, ⟨_, _, ⟨_, _, rfl, hinner, rfl⟩, hnode, rfl⟩, hfile⟩

/-- What reading a manifest comes to, by the bytes in its file. -/
inductive ReadsAs (path : String) : ByteArray → Except Failure Manifest → Prop
  | manifest {text : String} {m : Manifest} (parsed : Manifest.ofText? path.toList text = some m) :
      ReadsAs path text.toUTF8 (.ok m)
  | unreadable {content : ByteArray} (noText : ¬content.IsValidUTF8) :
      ReadsAs path content (.error (.manifestUnreadable path .invalidData))
  | invalid {text : String} (noManifest : Manifest.ofText? path.toList text = none) :
      ReadsAs path text.toUTF8 (.error (.manifestInvalid path))

theorem exists_readsAs (path : String) (content : ByteArray) :
    ∃ answer, ReadsAs path content answer := by
  cases decoded : String.fromUTF8? content with
  | none => exact ⟨_, .unreadable (Text.fromUTF8?_eq_none_iff.1 decoded)⟩
  | some text =>
    obtain rfl := Text.fromUTF8?_eq_some_iff.1 decoded
    cases parsed : Manifest.ofText? path.toList text with
    | none => exact ⟨_, .invalid parsed⟩
    | some m => exact ⟨_, .manifest parsed⟩

theorem run_readManifest {path : String} {content : ByteArray}
    (h : d.read path.toList = .ok content) {answer : Except Failure Manifest}
    (reads : ReadsAs path content answer) : d.run (readManifest path) = (answer, d) := by
  rw [readManifest, Disk.run_bind_of_ok (Disk.run_readText path)]
  cases reads with
  | manifest parsed =>
    simp only [Disk.text_of_read h, parsed]
    rfl
  | unreadable noText =>
    have decoded := Text.fromUTF8?_eq_none_iff.2 noText
    simp only [Disk.text, h, decoded]
    rfl
  | invalid noManifest =>
    simp only [Disk.text_of_read h, noManifest]
    rfl

/-- What the manifest of a version comes to in the release folder at a place. -/
def ComesTo (d : Disk) (repository : String) (place : Place) (version : String)
    (answer : Except Failure Manifest) : Prop :=
  ∃ content, d.file? (Manifest.baseName :: version :: place) = some content ∧
    ReadsAs (manifestPath (folder repository.toList) version) content answer

theorem ComesTo.versionName {m : Manifest} (h : ComesTo d repository place version (.ok m))
    (named : Path.IsName version.toList) : m.versionName = version := by
  obtain ⟨content, -, reads⟩ := h
  cases reads with
  | manifest parsed => exact versionName_of_ofText? named parsed

theorem readManifest_comesTo (h : FolderAt d repository place)
    (named : Path.IsName version.toList) {content : ByteArray}
    (hfile : d.file? (Manifest.baseName :: version :: place) = some content)
    {answer : Except Failure Manifest} :
    (d.run (readManifest (manifestPath (folder repository.toList) version))).1 = answer ↔
      ComesTo d repository place version answer := by
  have hread := (read_manifestPath h named).2 hfile
  constructor
  · rintro rfl
    obtain ⟨answer, reads⟩ := exists_readsAs (manifestPath (folder repository.toList) version) content
    rw [run_readManifest hread reads]
    exact ⟨content, hfile, reads⟩
  · rintro ⟨other, hother, reads⟩
    rw [hfile] at hother
    cases hother
    rw [run_readManifest hread reads]

/-! ## The manifests of a release -/

/-- The versions with a manifest, as the release folder lists them. -/
def versions (d : Disk) (repository : String) : List String :=
  (d.names (·.isFolder) (folder repository.toList)).filter fun version =>
    (d.names (!·.isFolder) (Path.join (folder repository.toList) version.toList)).contains
      Manifest.baseName

theorem run_findManifests (h : FolderAt d repository place) :
    d.run (findManifests repository) =
      (.ok ((versions d repository).map (manifestPath (folder repository.toList))), d) := by
  have there := isFolder_folder_iff.2 ⟨place, h⟩
  have listed (version : String) :
      d.run (do
        let files ← FileSystem.files
          (String.ofList (Path.join (folder repository.toList) version.toList))
        return files.contains Manifest.baseName) =
      (.ok ((d.names (!·.isFolder) (Path.join (folder repository.toList) version.toList)).contains
        Manifest.baseName), d) := by
    rw [Disk.run_bind_of_ok (Disk.run_files _), String.toList_ofList]
    rfl
  rw [findManifests, Disk.run_bind_of_ok (Disk.run_isFolder _), String.toList_ofList, there,
    if_pos rfl, Disk.run_bind_of_ok (Disk.run_folders _),
    Disk.run_bind_of_ok (Disk.run_filterM listed _), String.toList_ofList]
  rfl

theorem run_findManifests_missing (h : ¬∃ place, FolderAt d repository place) :
    d.run (findManifests repository) =
      (.error (.releaseFolderMissing (String.ofList (folder repository.toList))), d) := by
  have missing : d.isFolder (folder repository.toList) = false := by
    rw [← Bool.not_eq_true, isFolder_folder_iff]
    exact h
  rw [findManifests, Disk.run_bind_of_ok (Disk.run_isFolder _), String.toList_ofList, missing]
  rfl

theorem mem_versions (tree : d.root.IsTree) (h : FolderAt d repository place) :
    version ∈ versions d repository ↔
      ∃ content, d.file? (Manifest.baseName :: version :: place) = some content := by
  obtain ⟨entries, hfind, hplace⟩ := folderAt_iff.1 h
  obtain ⟨hne, -⟩ := folder_end repository.toList
  -- the files of a folder of the release folder
  have files {inner : List (String × Node)}
      (hinner : d.at? (version :: place) = some (.folder inner)) :
      Manifest.baseName ∈ d.names (!·.isFolder) (Path.join (folder repository.toList) version.toList) ↔
        ∃ content, d.file? (Manifest.baseName :: version :: place) = some content := by
    have named := Disk.isName_of_at? tree hinner
    have there : d.find? (Path.join (folder repository.toList) version.toList) =
        .ok (version :: place) := by
      rw [Disk.find?_join named, String.ofList_toList]
      exact ⟨place, _, (Disk.find?_eq_home? hne).symm.trans hfind, hinner, rfl⟩
    rw [Disk.mem_names tree there hinner]
    constructor
    · rintro ⟨node, hnode, hfile⟩
      cases node with
      | file content => exact ⟨content, Disk.file?_eq_some_iff.2 hnode⟩
      | folder inner => cases hfile
    · rintro ⟨content, hfile⟩
      exact ⟨_, Disk.file?_eq_some_iff.1 hfile, rfl⟩
  rw [versions, List.mem_filter, Disk.mem_names tree hfind hplace, List.contains_iff_mem]
  constructor
  · rintro ⟨⟨node, hnode, hfolder⟩, listed⟩
    cases node with
    | file content => cases hfolder
    | folder inner => exact (files hnode).1 listed
  · rintro ⟨content, hfile⟩
    obtain ⟨inner, hinner, -⟩ := Disk.exists_of_at?_cons (Disk.file?_eq_some_iff.1 hfile)
    exact ⟨⟨_, hinner, rfl⟩, (files hinner).2 ⟨content, hfile⟩⟩

theorem named_of_mem (tree : d.root.IsTree) (h : FolderAt d repository place)
    (hmem : version ∈ versions d repository) : Path.IsName version.toList := by
  obtain ⟨content, hfile⟩ := (mem_versions tree h).1 hmem
  obtain ⟨inner, hinner, -⟩ := Disk.exists_of_at?_cons (Disk.file?_eq_some_iff.1 hfile)
  exact Disk.isName_of_at? tree hinner

theorem versions_ascending (tree : d.root.IsTree) (repository : String) :
    (versions d repository).Pairwise fun a b => a.toUTF8.toList < b.toUTF8.toList :=
  ((Disk.names_ascending tree _ _).filter _).imp Text.bytes_lt

theorem run_read (h : FolderAt d repository place) :
    d.run (read repository) =
      ((versions d repository).mapM fun version =>
        (d.run (readManifest (manifestPath (folder repository.toList) version))).1, d) := by
  rw [read, Disk.run_bind_of_ok (run_findManifests h), ReadsOnly.run_mapM readsOnly_readManifest,
    List.mapM_map]
  rfl

theorem readManifest_of_mem (tree : d.root.IsTree) (h : FolderAt d repository place)
    (hmem : version ∈ versions d repository) (answer : Except Failure Manifest) :
    (d.run (readManifest (manifestPath (folder repository.toList) version))).1 = answer ↔
      ComesTo d repository place version answer := by
  obtain ⟨content, hfile⟩ := (mem_versions tree h).1 hmem
  exact readManifest_comesTo h (named_of_mem tree h hmem) hfile

/-- A release that is read is read in the manifest of every version. -/
theorem run_read_eq_ok_iff (tree : d.root.IsTree) (h : FolderAt d repository place)
    {manifests : List Manifest} :
    d.run (read repository) = (.ok manifests, d) ↔
      List.Forall₂ (fun version m => ComesTo d repository place version (.ok m) ∧
        m.versionName = version) (versions d repository) manifests := by
  rw [run_read h, Prod.mk.injEq, and_iff_left rfl, Traverse.mapM_eq_ok_iff]
  constructor
  · intro found
    have found := (List.forall₂_and_left _ _).2 ⟨fun version hmem => hmem, found⟩
    refine found.imp fun version m hm => ?_
    have comes := (readManifest_of_mem tree h hm.1 _).1 hm.2
    exact ⟨comes, comes.versionName (named_of_mem tree h hm.1)⟩
  · intro found
    have found := (List.forall₂_and_left _ _).2 ⟨fun version hmem => hmem, found⟩
    exact found.imp fun version m hm => (readManifest_of_mem tree h hm.1 _).2 hm.2.1

/-- A release that is not read is refused as the first version is whose manifest is not. -/
theorem run_read_eq_error_iff (tree : d.root.IsTree) (h : FolderAt d repository place)
    {e : Failure} :
    d.run (read repository) = (.error e, d) ↔
      ∃ before version after, versions d repository = before ++ version :: after ∧
        (∀ good ∈ before, ∃ m, ComesTo d repository place good (.ok m)) ∧
        ComesTo d repository place version (.error e) := by
  rw [run_read h, Prod.mk.injEq, and_iff_left rfl, Traverse.mapM_eq_error_iff]
  refine exists_congr fun before => exists_congr fun version => exists_congr fun after =>
    and_congr_right fun cut => ?_
  have inside {v : String} (hv : v ∈ before ++ version :: after) : v ∈ versions d repository :=
    cut ▸ hv
  refine and_congr (forall₂_congr fun good hgood => exists_congr fun m => ?_) ?_
  · exact readManifest_of_mem tree h (inside (List.mem_append_left _ hgood)) _
  · exact readManifest_of_mem tree h (inside (by simp)) _

/-- **The manifests of a release.** A repository without the folder `postgres/release` is refused.
In one, the manifests are the files `version.json` in the folders right inside it, each once and in
the order of the bytes of the names of these. The release is read where each of them is the text of
a manifest, to what they come to, one after the other; otherwise it is refused as the first of them
is that is not. -/
theorem manifests_exact (tree : d.root.IsTree) (repository : String) :
    (d.run (findManifests repository) =
        (.error (.releaseFolderMissing (String.ofList (folder repository.toList))), d) ↔
      ¬∃ place, FolderAt d repository place) ∧
    ((¬∃ place, FolderAt d repository place) → d.run (read repository) =
      (.error (.releaseFolderMissing (String.ofList (folder repository.toList))), d)) ∧
    ∀ place, FolderAt d repository place → ∃ versions : List String,
      versions.Pairwise (fun a b => a.toUTF8.toList < b.toUTF8.toList) ∧
      (∀ version, version ∈ versions ↔
        ∃ content, d.file? (Manifest.baseName :: version :: place) = some content) ∧
      d.run (findManifests repository) = (.ok (versions.map fun version =>
        String.ofList (folder repository.toList) ++ "/" ++ version ++ "/version.json"), d) ∧
      (∀ manifests, d.run (read repository) = (.ok manifests, d) ↔
        List.Forall₂ (fun version m => ComesTo d repository place version (.ok m) ∧
          m.versionName = version) versions manifests) ∧
      ∀ e, d.run (read repository) = (.error e, d) ↔
        ∃ before version after, versions = before ++ version :: after ∧
          (∀ good ∈ before, ∃ m, ComesTo d repository place good (.ok m)) ∧
          ComesTo d repository place version (.error e) := by
  refine ⟨⟨fun missing => ?_, run_findManifests_missing⟩, fun missing => ?_, fun place h => ?_⟩
  · rintro ⟨place, h⟩
    rw [run_findManifests h] at missing
    cases missing
  · rw [read, Disk.run_bind, run_findManifests_missing missing]
  · refine ⟨versions d repository, versions_ascending tree repository,
      fun version => mem_versions tree h, ?_, fun manifests => run_read_eq_ok_iff tree h,
      fun e => run_read_eq_error_iff tree h⟩
    rw [run_findManifests h, List.map_congr_left fun version hmem =>
      manifestPath_eq (named_of_mem tree h hmem)]

/-- A release with a manifest that cannot be read, among files and folders that are none. -/
def mixedRelease : Disk where
  root := .folder [("app", .folder [("postgres", .folder [("release", .folder
    [("version.json", .file "[]".toUTF8),
      ("2.0.0.0", .folder [("version.json", .folder [("version.json", .file "[]".toUTF8)])]),
      ("1.0.0.1", .folder [("old", .folder [("version.json", .file "[]".toUTF8)]),
        ("version.json", .file "not json".toUTF8)]),
      ("1.0.0.0", .folder [("version.json", .file "[]".toUTF8)])])])])]

theorem isTree_mixedRelease : mixedRelease.root.IsTree := by
  repeat' first
    | exact .empty
    | exact .file _
    | refine .entry (by decide) (by decide) ?_ ?_

theorem folderAt_mixedRelease : FolderAt mixedRelease "app" ["release", "postgres", "app"] :=
  ⟨["app"], _, by decide +kernel, rfl, rfl⟩

theorem versions_mixedRelease : versions mixedRelease "app" = ["1.0.0.0", "1.0.0.1"] := by
  have hfind : mixedRelease.find? (folder "app".toList) = .ok ["release", "postgres", "app"] := by
    decide +kernel
  have listed : mixedRelease.names (·.isFolder) (folder "app".toList) =
      ["1.0.0.0", "1.0.0.1", "2.0.0.0"] := by
    rw [Disk.names_of_find? hfind rfl]
    simp [Node.isFolder, List.mergeSort]
  rw [versions, listed]
  decide +kernel

theorem run_mixedRelease : mixedRelease.run (read "app") =
    (.error (.manifestInvalid "app/postgres/release/1.0.0.1/version.json"), mixedRelease) := by
  have path : manifestPath (folder "app".toList) "1.0.0.1" =
      "app/postgres/release/1.0.0.1/version.json" := by decide +kernel
  have parsed : (Manifest.ofText? (manifestPath (folder "app".toList) "1.0.0.0").toList
      "[]").isSome = true := by decide +kernel
  have refused : Manifest.ofText? (manifestPath (folder "app".toList) "1.0.0.1").toList
      "not json" = none := Option.isNone_iff_eq_none.1 (by decide +kernel)
  rw [← path, run_read_eq_error_iff isTree_mixedRelease folderAt_mixedRelease]
  refine ⟨["1.0.0.0"], "1.0.0.1", [], versions_mixedRelease, fun good hgood => ?_, ?_⟩
  · obtain ⟨m, hm⟩ := Option.isSome_iff_exists.1 parsed
    rw [List.mem_singleton.1 hgood]
    exact ⟨m, _, rfl, .manifest hm⟩
  · exact ⟨_, rfl, .invalid refused⟩

/-- Two manifests are found, and the release is refused as the second of them is. -/
theorem manifests_exact_mixed_release :
    mixedRelease.root.IsTree ∧ FolderAt mixedRelease "app" ["release", "postgres", "app"] ∧
      ∃ versions : List String,
        (∀ version, version ∈ versions ↔ ∃ content, mixedRelease.file?
          [Manifest.baseName, version, "release", "postgres", "app"] = some content) ∧
        (versions.map fun version =>
          String.ofList (folder "app".toList) ++ "/" ++ version ++ "/version.json") =
          ["app/postgres/release/1.0.0.0/version.json",
            "app/postgres/release/1.0.0.1/version.json"] ∧
        ∃ before version after, versions = before ++ version :: after ∧
          (∀ good ∈ before,
            ∃ m, ComesTo mixedRelease "app" ["release", "postgres", "app"] good (.ok m)) ∧
          ComesTo mixedRelease "app" ["release", "postgres", "app"] version
            (.error (.manifestInvalid "app/postgres/release/1.0.0.1/version.json")) := by
  obtain ⟨-, -, release⟩ := manifests_exact isTree_mixedRelease "app"
  obtain ⟨versions, -, hmem, hfind, -, hfailed⟩ := release _ folderAt_mixedRelease
  have paths : (["1.0.0.0", "1.0.0.1"].map (manifestPath (folder "app".toList))) =
      ["app/postgres/release/1.0.0.0/version.json",
        "app/postgres/release/1.0.0.1/version.json"] := by decide +kernel
  rw [run_findManifests folderAt_mixedRelease, versions_mixedRelease, paths] at hfind
  simp only [Prod.mk.injEq, Except.ok.injEq, and_true] at hfind
  exact ⟨isTree_mixedRelease, folderAt_mixedRelease, versions, hmem, hfind.symm,
    (hfailed _).1 run_mixedRelease⟩

end ReleaseSchema.Release
