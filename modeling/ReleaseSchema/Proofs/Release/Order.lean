/-
The order in which manifests are folded, told by the numbers of their versions.
Versions are sorted by a key that agrees with those numbers while components
are written in ASCII digits and stay below nine thousand (`Version.sortKey_le_iff`);
so with such versions the fold runs from the lowest version to the highest and
takes `current` last, and what it keeps as the latest of an object, or of all
releases, is the latest by number (`fold_ascending`). One component of nine
thousand is enough to break the order (`fold_of_nine_thousand`).

Where no two acceptable manifests have one key, the order in which the manifests
are given does not matter (`fold_of_perm`).
-/
import Mathlib.Data.List.Nodup
import ReleaseSchema.Proofs.Release.Listing
import ReleaseSchema.Proofs.Release.VersionKey

namespace ReleaseSchema

/-! ## What the fold keeps of versions -/

namespace Folded

theorem foldl_addFile_eq (version : String) (files : List ReleaseFile) (f : Folded) :
    ∃ buckets paths, files.foldl (addFile version) f = { f with buckets, files := paths } := by
  induction files generalizing f with
  | nil => exact ⟨f.buckets, f.files, rfl⟩
  | cons file rest ih =>
    obtain ⟨buckets, paths, hrest⟩ := ih (f.addFile version file)
    refine ⟨buckets, paths, ?_⟩
    rw [List.foldl_cons, hrest, addFile]
    split <;> rfl

theorem addManifest_versions (f : Folded) (m : Manifest) :
    (f.addManifest m).versions = addDistinct f.versions m.versionName := by
  obtain ⟨buckets, paths, h⟩ := foldl_addFile_eq m.versionName m.files (f.addVersion m.versionName)
  rw [addManifest, h, addVersion_eq]

theorem addManifest_lastVersion (f : Folded) (m : Manifest) :
    (f.addManifest m).lastVersion =
      if m.versionName = Version.current then f.lastVersion else m.versionName := by
  obtain ⟨buckets, paths, h⟩ := foldl_addFile_eq m.versionName m.files (f.addVersion m.versionName)
  rw [addManifest, h, addVersion_eq]

theorem foldl_addManifest_versions (manifests : List Manifest) (f : Folded) :
    (manifests.foldl addManifest f).versions =
      (manifests.map (·.versionName)).foldl addDistinct f.versions := by
  induction manifests generalizing f with
  | nil => rfl
  | cons m rest ih => rw [List.foldl_cons, ih, addManifest_versions, List.map_cons, List.foldl_cons]

theorem foldl_addManifest_lastVersion (manifests : List Manifest) (f : Folded) :
    (manifests.foldl addManifest f).lastVersion =
      (((manifests.map (·.versionName)).filter (· ≠ Version.current)).getLast?).getD
        f.lastVersion := by
  induction manifests generalizing f with
  | nil => rfl
  | cons m rest ih =>
    rw [List.foldl_cons, ih, addManifest_lastVersion, List.map_cons]
    by_cases h : m.versionName = Version.current
    · simp [h]
    · rw [if_neg h, List.filter_cons_of_pos (by simpa using h), List.getLast?_cons]
      rfl

end Folded

/-! ## Ascending lists -/

theorem rel_getLast_of_pairwise {R : α → α → Prop} (refl : ∀ a, R a a) {l : List α} {last : α}
    (h : l.Pairwise R) (hlast : l.getLast? = some last) {a : α} (ha : a ∈ l) : R a last := by
  obtain ⟨before, rfl⟩ := List.getLast?_eq_some_iff.1 hlast
  rcases List.mem_append.1 ha with ha | ha
  · exact (List.pairwise_append.1 h).2.2 a ha last (by simp)
  · rw [List.mem_singleton] at ha
    exact ha ▸ refl a

namespace Manifest

/-- The manifest has a file of this kind and name. -/
def Lists (m : Manifest) (kind : Kind) (name : String) : Prop :=
  ∃ file ∈ m.files, file.kind = kind ∧ file.name = name

/-- The acceptable released versions of the manifests have components below nine thousand. -/
def VersionsBelow (manifests : List Manifest) : Prop :=
  ∀ m ∈ manifests, m.isAcceptable = true →
    m.versionName = Version.current ∨ Version.ComponentsBelow 9000 m.versionName

instance (manifests : List Manifest) : Decidable (VersionsBelow manifests) :=
  inferInstanceAs (Decidable (∀ m ∈ manifests, _ → _ ∨ _))

theorem inOrder_ascending {manifests : List Manifest} (h : VersionsBelow manifests) :
    (inOrder manifests).Pairwise fun a b => Version.NotAfter a.versionName b.versionName := by
  refine (inOrder_pairwise manifests).imp_of_mem fun {a b} ha hb hkey => ?_
  rw [mem_inOrder] at ha hb
  exact (Version.sortKey_le_iff ha.2 hb.2 (h a ha.1 ha.2) (h b hb.1 hb.2)).1 hkey

theorem mem_listing {manifests : List Manifest} {version : String} {file : ReleaseFile} :
    (version, file) ∈ listing manifests ↔
      ∃ m ∈ manifests, m.isAcceptable = true ∧ m.versionName = version ∧ file ∈ m.files := by
  simp only [listing, listed, List.mem_flatMap, mem_inOrder, List.mem_map, Prod.mk.injEq]
  constructor
  · rintro ⟨m, ⟨hm, haccept⟩, f, hf, rfl, rfl⟩
    exact ⟨m, hm, haccept, rfl, hf⟩
  · rintro ⟨m, hm, haccept, rfl, hf⟩
    exact ⟨m, ⟨hm, haccept⟩, file, hf, rfl, rfl⟩

theorem listing_ascending {manifests : List Manifest} (h : VersionsBelow manifests) :
    (listing manifests).Pairwise fun a b => Version.NotAfter a.1 b.1 := by
  rw [listing, List.pairwise_flatMap]
  refine ⟨fun m _ => ?_, (inOrder_ascending h).imp fun {a b} hab => ?_⟩
  · rw [listed, List.pairwise_map]
    exact List.pairwise_of_forall fun _ _ => .refl _
  · simp only [listed, List.mem_map]
    rintro _ ⟨_, -, rfl⟩ _ ⟨_, -, rfl⟩
    exact hab

theorem fold_versions (manifests : List Manifest) :
    (fold manifests).versions = distinct ((inOrder manifests).map (·.versionName)) :=
  Folded.foldl_addManifest_versions _ _

/-- The history of an object is in order, and its latest file is that of the latest manifest which
lists the object. -/
theorem history_ascending {manifests : List Manifest} (h : VersionsBelow manifests) {kind : Kind}
    {name : String} {history : History}
    (hhistory : (fold manifests).history? kind name = some history) :
    (history.revisions.Pairwise fun a b => Version.NotAfter a.version b.version) ∧
    (∃ m ∈ manifests, m.isAcceptable = true ∧ m.versionName = history.latestVersion ∧
      ∃ file ∈ m.files, file.kind = kind ∧ file.name = name ∧ file.file = history.latestFile) ∧
    (∀ m ∈ manifests, m.isAcceptable = true → m.Lists kind name →
      Version.NotAfter m.versionName history.latestVersion) := by
  obtain ⟨-, hrevisions, hlast⟩ := history_listed hhistory
  have hascending : history.revisions.Pairwise fun a b => Version.NotAfter a.version b.version := by
    rw [hrevisions, List.pairwise_map]
    exact (listing_ascending h).filter _
  refine ⟨hascending, ?_, fun m hm haccept ⟨file, hfile, hkind, hname⟩ => ?_⟩
  · have hmem := List.mem_of_getLast? hlast
    simp only [hrevisions, List.mem_map, List.mem_filter, Bool.and_eq_true, beq_iff_eq,
      Revision.mk.injEq] at hmem
    obtain ⟨⟨version, file⟩, ⟨hlisted, hkind, hname⟩, rfl, hpath⟩ := hmem
    obtain ⟨m, hm, haccept, hversion, hfile⟩ := mem_listing.1 hlisted
    exact ⟨m, hm, haccept, hversion, file, hfile, hkind, hname, hpath⟩
  · have hmem : (⟨m.versionName, file.file⟩ : Revision) ∈ history.revisions := by
      rw [hrevisions, List.mem_map]
      refine ⟨(m.versionName, file), List.mem_filter.2 ⟨?_, by simp [hkind, hname]⟩, rfl⟩
      exact mem_listing.2 ⟨m, hm, haccept, rfl, hfile⟩
    exact rel_getLast_of_pairwise (R := fun a b : Revision => Version.NotAfter a.version b.version)
      (fun _ => .refl _) hascending hlast hmem

theorem fold_lastVersion (manifests : List Manifest) :
    (fold manifests).lastVersion =
      (((inOrder manifests).map (·.versionName)).filter (· ≠ Version.current)).getLast?.getD "" :=
  Folded.foldl_addManifest_lastVersion _ _

/-- The last version is that of a release, and no release is after it. -/
theorem lastVersion_ascending {manifests : List Manifest} (h : VersionsBelow manifests)
    {m : Manifest} (hm : m ∈ manifests) (haccept : m.isAcceptable = true)
    (hreleased : m.versionName ≠ Version.current) :
    (∃ last ∈ manifests, last.isAcceptable = true ∧ last.versionName ≠ Version.current ∧
      last.versionName = (fold manifests).lastVersion) ∧
    Version.numbers m.versionName ≤ Version.numbers (fold manifests).lastVersion := by
  let released := ((inOrder manifests).map (·.versionName)).filter (· ≠ Version.current)
  have hmem : m.versionName ∈ released :=
    List.mem_filter.2 ⟨List.mem_map_of_mem (mem_inOrder.2 ⟨hm, haccept⟩), by simpa using hreleased⟩
  have hascending : released.Pairwise Version.NotAfter :=
    (List.pairwise_map.2 (inOrder_ascending h)).filter _
  cases hlast : released.getLast? with
  | none => simp [List.getLast?_eq_none_iff.1 hlast] at hmem
  | some last =>
    have hfold : (fold manifests).lastVersion = last := by
      rw [fold_lastVersion]
      exact congrArg (·.getD "") hlast
    have hfrom := List.mem_filter.1 (List.mem_of_getLast? hlast)
    simp only [List.mem_map, mem_inOrder, decide_eq_true_eq] at hfrom
    obtain ⟨⟨l, ⟨hl, hlaccept⟩, rfl⟩, hlreleased⟩ := hfrom
    rw [hfold]
    refine ⟨⟨l, hl, hlaccept, hlreleased, rfl⟩, ?_⟩
    have hnotAfter := rel_getLast_of_pairwise Version.NotAfter.refl hascending hlast hmem
    exact (hnotAfter.resolve_left hlreleased).2

/-- **The fold runs in the order of the versions.** Where the components of acceptable released
versions are ASCII numbers below nine thousand, the manifests that are folded are the acceptable
ones, ascending by the numbers of their versions and `current` behind them. So the versions come
out in that order; every object of a known kind that an acceptable manifest lists has a history in
that order, whose latest version and file are those of a manifest that lists it and that no other
such manifest is after; and the last version is the greatest of the released ones. -/
theorem fold_ascending (manifests : List Manifest) (h : VersionsBelow manifests) :
    (∃ ordered : List Manifest, ordered.Perm (manifests.filter isAcceptable) ∧
      (ordered.Pairwise fun a b => Version.NotAfter a.versionName b.versionName) ∧
      fold manifests = ordered.foldl Folded.addManifest {}) ∧
    (fold manifests).versions.Pairwise Version.NotAfter ∧
    (∀ version, version ∈ (fold manifests).versions ↔
      ∃ m ∈ manifests, m.isAcceptable = true ∧ m.versionName = version) ∧
    (∀ m ∈ manifests, m.isAcceptable = true → ∀ file ∈ m.files, file.kind ≠ .unknown →
      ((fold manifests).history? file.kind file.name).isSome) ∧
    (∀ kind name history, (fold manifests).history? kind name = some history →
      (history.revisions.Pairwise fun a b => Version.NotAfter a.version b.version) ∧
      (∃ m ∈ manifests, m.isAcceptable = true ∧ m.versionName = history.latestVersion ∧
        ∃ file ∈ m.files,
          file.kind = kind ∧ file.name = name ∧ file.file = history.latestFile) ∧
      (∀ m ∈ manifests, m.isAcceptable = true → m.Lists kind name →
        Version.NotAfter m.versionName history.latestVersion)) ∧
    (∀ m ∈ manifests, m.isAcceptable = true → m.versionName ≠ Version.current →
      (∃ last ∈ manifests, last.isAcceptable = true ∧ last.versionName ≠ Version.current ∧
        last.versionName = (fold manifests).lastVersion) ∧
      Version.numbers m.versionName ≤ Version.numbers (fold manifests).lastVersion) := by
  refine ⟨⟨inOrder manifests, inOrder_perm manifests, inOrder_ascending h, rfl⟩, ?_,
    fun version => ?_, fun m hm haccept file hfile hkind => ?_,
    fun kind name history => history_ascending h,
    fun m hm haccept hreleased => lastVersion_ascending h hm haccept hreleased⟩
  · rw [fold_versions]
    have hnames := List.pairwise_map.2 (inOrder_ascending h)
    exact hnames.sublist (foldl_addDistinct_sublist [] _)
  · rw [fold_versions, distinct, mem_foldl_addDistinct]
    simp [mem_inOrder, and_assoc]
  · rw [isSome_history?_iff]
    exact ⟨hkind, _, mem_listing.2 ⟨m, hm, haccept, rfl, hfile⟩, rfl, rfl⟩

theorem fold_of_sorted {manifests : List Manifest} (haccept : manifests.all isAcceptable = true)
    (hsorted : manifests.Pairwise fun a b => keyLE a b = true) :
    fold manifests = manifests.foldl Folded.addManifest {} := by
  rw [fold, inOrder_eq, List.filter_eq_self.2 (List.all_eq_true.1 haccept),
    List.mergeSort_of_pairwise hsorted]

/-- A manifest of a version that defines one table. -/
def ofUserTable (version : String) : Manifest :=
  { fileName := "app/postgres/release/" ++ version ++ "/version.json"
    versionName := version
    steps := [{ files := [⟨.table, "abct_user_usr",
      "app/postgres/release/" ++ version ++ "/03-tables/abct_user_usr.sql"⟩] }] }

/-- With a two-digit component, one just below the bound and a `current` version. -/
theorem fold_ascending_user_table :
    VersionsBelow (["1.10.0.0", "current", "1.9.0.8999"].map ofUserTable) ∧
      Version.numbers "1.9.0.8999" ≤
        Version.numbers
          (fold (["1.10.0.0", "current", "1.9.0.8999"].map ofUserTable)).lastVersion := by
  have hbelow : VersionsBelow (["1.10.0.0", "current", "1.9.0.8999"].map ofUserTable) := by
    decide +kernel
  obtain ⟨-, -, -, -, -, hlast⟩ := fold_ascending _ hbelow
  exact ⟨hbelow, (hlast (ofUserTable "1.9.0.8999") (by simp) (by decide +kernel) (by decide)).2⟩

/-- A component of nine thousand takes five digits in the key and puts a version behind greater
ones: 1.0.0.9000 is folded after 1.0.1.0, and its file and its name are kept as the latest. -/
theorem fold_of_nine_thousand :
    let manifests := ["1.0.1.0", "1.0.0.9000"].map ofUserTable
    manifests.all isAcceptable = true ∧
      Version.numbers "1.0.0.9000" < Version.numbers "1.0.1.0" ∧
      (fold manifests).versions = ["1.0.1.0", "1.0.0.9000"] ∧
      (fold manifests).lastVersion = "1.0.0.9000" ∧
      ((fold manifests).history? .table "abct_user_usr").map (·.latestVersion) =
        some "1.0.0.9000" := by
  have hfold : fold (["1.0.1.0", "1.0.0.9000"].map ofUserTable) =
      (["1.0.1.0", "1.0.0.9000"].map ofUserTable).foldl Folded.addManifest {} :=
    fold_of_sorted (by decide +kernel) (by decide +kernel)
  simp only [hfold]
  decide +kernel

/-! ## The order in which manifests are given -/

/-- No two acceptable manifests have one version key. -/
def HasDistinctKeys (manifests : List Manifest) : Prop :=
  ((manifests.filter isAcceptable).map key).Nodup

instance (manifests : List Manifest) : Decidable (HasDistinctKeys manifests) :=
  inferInstanceAs (Decidable (List.Nodup _))

/-- Manifests with keys of their own can be sorted in one way only. -/
theorem inOrder_of_perm {manifests others : List Manifest} (h : manifests.Perm others)
    (distinct : HasDistinctKeys manifests) : inOrder manifests = inOrder others := by
  have acceptable : (manifests.filter isAcceptable).Perm (others.filter isAcceptable) :=
    h.filter isAcceptable
  have sorted : (inOrder manifests).Perm (inOrder others) :=
    (inOrder_perm manifests).trans (acceptable.trans (inOrder_perm others).symm)
  refine sorted.eq_of_pairwise ?_ (inOrder_pairwise manifests) (inOrder_pairwise others)
  intro a b ha hb hab hba
  have ha' := (inOrder_perm manifests).mem_iff.1 ha
  have hb' := acceptable.mem_iff.2 ((inOrder_perm others).mem_iff.1 hb)
  exact List.inj_on_of_nodup_map distinct ha' hb' (Nat.le_antisymm hab hba)

/-- **The fold does not depend on the order of its manifests.** Where the acceptable manifests have
keys of their own, they may be given in any order, with manifests of other versions anywhere among
them: the histories, the versions and the files are the same. -/
theorem fold_of_perm {manifests others : List Manifest} (h : manifests.Perm others)
    (distinct : HasDistinctKeys manifests) : fold manifests = fold others := by
  rw [fold, fold, inOrder_of_perm h distinct]

/-- Two releases and `current` in two orders, with two drafts among them. -/
theorem fold_of_perm_user_table :
    let manifests := ["draft", "current", "1.10.0.0", "draft", "1.9.0.1"].map ofUserTable
    let others := ["1.9.0.1", "draft", "1.10.0.0", "current", "draft"].map ofUserTable
    manifests.Perm others ∧ HasDistinctKeys manifests ∧ fold manifests = fold others := by
  intro manifests others
  have names : ["draft", "current", "1.10.0.0", "draft", "1.9.0.1"].Perm
      ["1.9.0.1", "draft", "1.10.0.0", "current", "draft"] := by decide
  have distinct : HasDistinctKeys manifests := by decide +kernel
  exact ⟨names.map ofUserTable, distinct, fold_of_perm (names.map ofUserTable) distinct⟩

end Manifest

end ReleaseSchema
