/-
What the fold of manifests makes of every object, told by one list: the files
of the acceptable manifests, each with its version, in the order in which the
fold meets them (`Manifest.listing`). An object's history is the part of that
list with its kind and its name, and nothing else is kept in a bucket
(`fold_matches_listing`).

One file added to the fold is one entry added to the list (`Matches.addFile`);
the rest is the two loops around that step.
-/
import ReleaseSchema.Distinct
import ReleaseSchema.Release.Fold

namespace ReleaseSchema

/-- A version and a file that a manifest of it lists. -/
abbrev Listed := String × ReleaseFile

namespace Manifest

/-- The files of a manifest with its version. -/
def listed (m : Manifest) : List Listed := m.files.map (m.versionName, ·)

/-- The files of all acceptable manifests, in the order of the fold. -/
def listing (manifests : List Manifest) : List Listed := (inOrder manifests).flatMap listed

/-! ## The order of the manifests -/

def key (m : Manifest) : Nat := Version.sortKey m.versionName

/-- The comparison that manifests are sorted by. -/
def keyLE (a b : Manifest) : Bool := decide (a.key ≤ b.key)

theorem keyLE_trans (a b c : Manifest) (hab : keyLE a b = true) (hbc : keyLE b c = true) :
    keyLE a c = true := by
  simp only [keyLE, decide_eq_true_eq] at *
  omega

theorem keyLE_total (a b : Manifest) : (keyLE a b || keyLE b a) = true := by
  simp only [keyLE, Bool.or_eq_true, decide_eq_true_eq]
  omega

theorem inOrder_eq (manifests : List Manifest) :
    inOrder manifests = (manifests.filter isAcceptable).mergeSort keyLE := rfl

theorem inOrder_perm (manifests : List Manifest) :
    (inOrder manifests).Perm (manifests.filter isAcceptable) :=
  List.mergeSort_perm ..

theorem mem_inOrder {manifests : List Manifest} {m : Manifest} :
    m ∈ inOrder manifests ↔ m ∈ manifests ∧ m.isAcceptable = true := by
  rw [(inOrder_perm manifests).mem_iff, List.mem_filter]

theorem inOrder_pairwise (manifests : List Manifest) :
    (inOrder manifests).Pairwise fun a b => a.key ≤ b.key := by
  have h := List.pairwise_mergeSort keyLE_trans keyLE_total (manifests.filter isAcceptable)
  exact h.imp fun hab => by simpa [keyLE] using hab

/-- Manifests of one key stay in the order in which they were given: they are a sorted part of the
list, and sorting keeps such a part whole. -/
theorem inOrder_stable (manifests : List Manifest) (k : Nat) :
    (inOrder manifests).filter (·.key = k) =
      (manifests.filter isAcceptable).filter (·.key = k) := by
  have hsorted : ((manifests.filter isAcceptable).filter (·.key = k)).Pairwise
      fun a b => keyLE a b = true := by
    refine List.pairwise_of_forall_mem_list fun a ha b hb => ?_
    simp only [List.mem_filter, decide_eq_true_eq] at ha hb
    simp [keyLE, ha.2, hb.2]
  have hpart := (List.sublist_mergeSort keyLE_trans keyLE_total hsorted List.filter_sublist).filter
    (·.key = k)
  rw [List.filter_eq_self.2 fun m hm => (List.mem_filter.1 hm).2, ← inOrder_eq] at hpart
  exact (hpart.eq_of_length ((inOrder_perm manifests).filter (·.key = k)).length_eq.symm).symm

end Manifest

/-! ## Histories -/

namespace History

/-- The history of an object with the given revisions, of which the last is the latest. -/
def ofRevisions (name : String) (revisions : List Revision) : History :=
  { name
    latestVersion := (revisions.getLast?.map (·.version)).getD ""
    latestFile := (revisions.getLast?.map (·.file)).getD ""
    revisions }

theorem ofRevisions_record (name : String) (revisions : List Revision) (version file : String) :
    (ofRevisions name revisions).record version file =
      ofRevisions name (revisions ++ [⟨version, file⟩]) := by
  simp [ofRevisions, record]

theorem getLast?_ofRevisions {name : String} {revisions : List Revision} (h : revisions ≠ []) :
    (ofRevisions name revisions).revisions.getLast? =
      some ⟨(ofRevisions name revisions).latestVersion,
        (ofRevisions name revisions).latestFile⟩ := by
  simp [ofRevisions, List.getLast?_eq_some_getLast h]

end History

namespace Listed

/-- The entry is a file of this kind and name. -/
def isOf (kind : Kind) (name : String) (entry : Listed) : Bool :=
  entry.2.kind == kind && entry.2.name == name

def revision (entry : Listed) : Revision := ⟨entry.1, entry.2.file⟩

/-- The revisions of an object that a list tells of. -/
def revisionsOf (kind : Kind) (name : String) (listing : List Listed) : List Revision :=
  (listing.filter (isOf kind name)).map revision

theorem revisionsOf_append (kind : Kind) (name : String) (a b : List Listed) :
    revisionsOf kind name (a ++ b) = revisionsOf kind name a ++ revisionsOf kind name b := by
  simp [revisionsOf]

/-- What a list tells of an object: its history, if a file of it is listed. -/
def history? (kind : Kind) (name : String) (listing : List Listed) : Option History :=
  if kind = .unknown ∨ revisionsOf kind name listing = [] then none
  else some (.ofRevisions name (revisionsOf kind name listing))

theorem history?_eq_some {kind : Kind} {name : String} {listing : List Listed} {h : History} :
    history? kind name listing = some h ↔
      kind ≠ .unknown ∧ revisionsOf kind name listing ≠ [] ∧
        h = .ofRevisions name (revisionsOf kind name listing) := by
  unfold history?
  split
  next hnone =>
    simp only [reduceCtorEq, false_iff, not_and]
    intro hkind hrevisions
    exact absurd (hnone.resolve_left hkind) hrevisions
  next hsome =>
    simp only [not_or] at hsome
    simp only [Option.some.injEq, hsome, ne_eq, not_false_eq_true, true_and]
    exact eq_comm

theorem revisionsOf_ne_nil {kind : Kind} {name : String} {listing : List Listed} :
    revisionsOf kind name listing ≠ [] ↔
      ∃ entry ∈ listing, entry.2.kind = kind ∧ entry.2.name = name := by
  simp [revisionsOf, isOf]

/-- What a list tells of an object does not change with a file of another one. -/
theorem history?_append_of_other {kind : Kind} {name : String} (listing : List Listed)
    {entry : Listed} (h : kind = .unknown ∨ ¬(entry.2.kind = kind ∧ entry.2.name = name)) :
    history? kind name (listing ++ [entry]) = history? kind name listing := by
  rcases h with hunknown | hother
  · rw [history?, history?, if_pos (.inl hunknown), if_pos (.inl hunknown)]
  · have hnone : revisionsOf kind name [entry] = [] := by
      rw [revisionsOf, List.map_eq_nil_iff, List.filter_eq_nil_iff]
      intro other hmem
      rw [List.mem_singleton.1 hmem]
      simpa [isOf] using hother
    rw [history?, history?, revisionsOf_append, hnone, List.append_nil]

/-- A file of a known kind is one more revision of its object. -/
theorem history?_append_of_known (listing : List Listed) (version : String) {file : ReleaseFile}
    (hkind : file.kind ≠ .unknown) :
    history? file.kind file.name (listing ++ [(version, file)]) =
      some (((history? file.kind file.name listing).getD { name := file.name }).record version
        file.file) := by
  have hadded : revisionsOf file.kind file.name (listing ++ [(version, file)]) =
      revisionsOf file.kind file.name listing ++ [⟨version, file.file⟩] := by
    rw [revisionsOf_append]
    simp [revisionsOf, isOf, revision]
  have hbefore : (history? file.kind file.name listing).getD { name := file.name } =
      .ofRevisions file.name (revisionsOf file.kind file.name listing) := by
    unfold history?
    split
    next hnone =>
      rw [hnone.resolve_left hkind]
      rfl
    next => rfl
  rw [hbefore, History.ofRevisions_record, ← hadded, history?_eq_some]
  refine ⟨hkind, ?_, rfl⟩
  rw [hadded]
  exact List.append_ne_nil_of_right_ne_nil _ (List.cons_ne_nil _ _)

end Listed

/-! ## The fold -/

namespace Folded

/-- The history of an object, if the fold has one. -/
def history? (f : Folded) (kind : Kind) (name : String) : Option History :=
  (f.buckets.get? kind).bind (·.get? name)

/-- The fold has kept exactly what a list tells of each object. -/
structure Matches (f : Folded) (listing : List Listed) : Prop where
  files : f.files = listing.map (·.2.file)
  history? : ∀ kind name, f.history? kind name = Listed.history? kind name listing
  /-- A bucket is only made to hold an object. -/
  filled : ∀ kind bucket, f.buckets.get? kind = some bucket → bucket ≠ .empty

theorem Matches.start : Matches {} [] where
  files := rfl
  history? kind name := by simp [Folded.history?, Listed.history?, Listed.revisionsOf]
  filled kind bucket h := by simp at h

theorem addVersion_eq (version : String) (f : Folded) :
    f.addVersion version =
      { f with
        versions := addDistinct f.versions version
        hasCurrent := f.hasCurrent || version == Version.current
        lastVersion := if version = Version.current then f.lastVersion else version } := by
  simp only [addVersion, addDistinct]
  by_cases hcurrent : version = Version.current
  · rw [if_pos hcurrent, if_pos hcurrent]
    split <;> simp [hcurrent]
  · rw [if_neg hcurrent, if_neg hcurrent]
    split <;> simp [hcurrent]

theorem Matches.addVersion {f : Folded} {listing : List Listed} (h : f.Matches listing)
    (version : String) : (f.addVersion version).Matches listing where
  files := by rw [addVersion_eq]; exact h.files
  history? kind name := by rw [← h.history?, addVersion_eq]; rfl
  filled kind bucket := by rw [addVersion_eq]; exact h.filled kind bucket

theorem addFile_files (version : String) (f : Folded) (file : ReleaseFile) :
    (f.addFile version file).files = f.files ++ [file.file] := by
  unfold addFile
  split <;> rfl

theorem addFile_buckets_of_unknown {file : ReleaseFile} (h : file.kind = .unknown)
    (version : String) (f : Folded) : (f.addFile version file).buckets = f.buckets := by
  simp [addFile, h]

theorem addFile_buckets {file : ReleaseFile} (h : file.kind ≠ .unknown) (version : String)
    (f : Folded) :
    (f.addFile version file).buckets = f.buckets.alter file.kind .empty fun bucket =>
      bucket.alter file.name { name := file.name } fun h => h.record version file.file := by
  simp [addFile, h]

/-- The bucket of a kind, where one that is missing counts as empty, answers like the fold. -/
theorem get?_bucket (f : Folded) (kind : Kind) (name : String) :
    ((f.buckets.get? kind).getD .empty).get? name = f.history? kind name := by
  unfold history?
  cases f.buckets.get? kind with
  | none => rfl
  | some bucket => rfl

/-- A file of a known kind is recorded with its object, and no other object notices. -/
theorem history?_addFile {file : ReleaseFile} (hkind : file.kind ≠ .unknown) (version : String)
    (f : Folded) (kind : Kind) (name : String) :
    (f.addFile version file).history? kind name =
      if kind = file.kind ∧ name = file.name then
        some (((f.history? kind name).getD { name }).record version file.file)
      else f.history? kind name := by
  rw [Folded.history?, addFile_buckets hkind, SortedMap.get?_alter]
  by_cases hk : kind = file.kind
  · subst hk
    rw [if_pos rfl, Option.bind_some, SortedMap.get?_alter, get?_bucket, get?_bucket]
    by_cases hn : name = file.name
    · subst hn
      rw [if_pos rfl, if_pos ⟨rfl, rfl⟩]
    · rw [if_neg hn, if_neg fun h => hn h.2]
  · rw [if_neg hk, if_neg fun h => hk h.1, Folded.history?]

/-- One more file of the fold is one more entry of the list. -/
theorem Matches.addFile {f : Folded} {listing : List Listed} (h : f.Matches listing)
    (version : String) (file : ReleaseFile) :
    (f.addFile version file).Matches (listing ++ [(version, file)]) := by
  have hfiles : (f.addFile version file).files = (listing ++ [(version, file)]).map (·.2.file) := by
    rw [addFile_files, h.files]
    simp
  by_cases hkind : file.kind = .unknown
  · have hbuckets := addFile_buckets_of_unknown hkind version f
    refine ⟨hfiles, fun kind name => ?_, fun kind bucket hbucket => ?_⟩
    · rw [Folded.history?, hbuckets, ← Folded.history?, h.history?]
      refine (Listed.history?_append_of_other listing ?_).symm
      by_cases hunknown : kind = .unknown
      · exact .inl hunknown
      · exact .inr fun hentry => hunknown (hentry.1.symm.trans hkind)
    · rw [hbuckets] at hbucket
      exact h.filled kind bucket hbucket
  · refine ⟨hfiles, fun kind name => ?_, fun kind bucket hbucket => ?_⟩
    · rw [history?_addFile hkind, h.history?]
      by_cases hsame : kind = file.kind ∧ name = file.name
      · obtain ⟨rfl, rfl⟩ := hsame
        rw [if_pos ⟨rfl, rfl⟩]
        exact (Listed.history?_append_of_known listing version hkind).symm
      · rw [if_neg hsame]
        refine (Listed.history?_append_of_other listing (.inr fun hentry => ?_)).symm
        exact hsame ⟨hentry.1.symm, hentry.2.symm⟩
    · rw [addFile_buckets hkind, SortedMap.get?_alter] at hbucket
      split at hbucket
      · rintro rfl
        have hget := congrArg (·.get? file.name) (Option.some.inj hbucket)
        simp [SortedMap.get?_alter] at hget
      · exact h.filled kind bucket hbucket

theorem Matches.addFiles {f : Folded} {listing : List Listed} (version : String)
    (files : List ReleaseFile) (h : f.Matches listing) :
    (files.foldl (Folded.addFile version) f).Matches (listing ++ files.map (version, ·)) := by
  induction files generalizing f listing with
  | nil => simpa using h
  | cons file rest ih =>
    have hrest := ih (h.addFile version file)
    simpa using hrest

theorem Matches.addManifest {f : Folded} {listing : List Listed} (h : f.Matches listing)
    (m : Manifest) : (f.addManifest m).Matches (listing ++ m.listed) :=
  (h.addVersion m.versionName).addFiles m.versionName m.files

theorem Matches.addManifests {f : Folded} {listing : List Listed} (manifests : List Manifest)
    (h : f.Matches listing) :
    (manifests.foldl Folded.addManifest f).Matches
      (listing ++ manifests.flatMap Manifest.listed) := by
  induction manifests generalizing f listing with
  | nil => simpa using h
  | cons m rest ih =>
    have hrest := ih (h.addManifest m)
    simpa using hrest

end Folded

namespace Manifest

theorem matches_fold (manifests : List Manifest) :
    (fold manifests).Matches (listing manifests) :=
  Folded.Matches.start.addManifests (inOrder manifests)

/-- An object is in a bucket exactly when its kind is known and the listing has a file of it. -/
theorem isSome_history?_iff (manifests : List Manifest) (kind : Kind) (name : String) :
    ((fold manifests).history? kind name).isSome ↔
      kind ≠ .unknown ∧
        ∃ entry ∈ listing manifests, entry.2.kind = kind ∧ entry.2.name = name := by
  rw [(matches_fold manifests).history?, Option.isSome_iff_exists]
  simp only [Listed.history?_eq_some, Listed.revisionsOf_ne_nil, exists_and_left, exists_eq,
    and_true]

/-- The history of an object is its part of the listing. -/
theorem history_listed {manifests : List Manifest} {kind : Kind} {name : String}
    {history : History} (h : (fold manifests).history? kind name = some history) :
    history.name = name ∧
    history.revisions =
      ((listing manifests).filter fun entry => entry.2.kind == kind && entry.2.name == name).map
        (fun entry => ⟨entry.1, entry.2.file⟩) ∧
    history.revisions.getLast? = some ⟨history.latestVersion, history.latestFile⟩ := by
  rw [(matches_fold manifests).history?, Listed.history?_eq_some] at h
  obtain ⟨-, hlisted, rfl⟩ := h
  exact ⟨rfl, rfl, History.getLast?_ofRevisions hlisted⟩

/-- **The fold is its listing.** The acceptable manifests are put in the order of their version
keys, those of one key in the order given, and their files strung together. The fold's files are
the paths of that list; an object is in a bucket exactly when its kind is known and the list has a
file of it; it goes by its own name, its revisions are its part of the list, nothing lost, doubled
or moved, and the last of them is the latest; and no bucket is empty. -/
theorem fold_matches_listing (manifests : List Manifest) :
    ((inOrder manifests).Pairwise fun a b => a.key ≤ b.key) ∧
    (∀ k, (inOrder manifests).filter (·.key = k) =
      (manifests.filter isAcceptable).filter (·.key = k)) ∧
    (fold manifests).files = (listing manifests).map (·.2.file) ∧
    (∀ kind name, ((fold manifests).history? kind name).isSome ↔
      kind ≠ .unknown ∧
        ∃ entry ∈ listing manifests, entry.2.kind = kind ∧ entry.2.name = name) ∧
    (∀ kind name history, (fold manifests).history? kind name = some history →
      history.name = name ∧
      history.revisions =
        ((listing manifests).filter fun entry => entry.2.kind == kind && entry.2.name == name).map
          (fun entry => ⟨entry.1, entry.2.file⟩) ∧
      history.revisions.getLast? = some ⟨history.latestVersion, history.latestFile⟩) ∧
    (∀ kind bucket, (fold manifests).buckets.get? kind = some bucket → bucket.entries ≠ []) := by
  have h := matches_fold manifests
  refine ⟨inOrder_pairwise manifests, inOrder_stable manifests, h.files,
    isSome_history?_iff manifests, fun kind name history hhistory => history_listed hhistory, ?_⟩
  intro kind bucket hbucket hempty
  refine h.filled kind bucket hbucket ?_
  cases bucket
  subst hempty
  rfl

end Manifest

end ReleaseSchema
