/-
What a scan for placeholders finds. A text is searched for words in angle
brackets, each search behind the one before, and none is missed: only the first
character of a placeholder is an opening bracket, so no two of them overlap
(`mem_searchAll`).

One file adds itself to the uses of the placeholders that its text holds
(`get?_addFile`), so a scan gives each placeholder the files that hold it, in the
order in which they are listed first (`get?_scan`).
-/
import ReleaseSchema.Build
import ReleaseSchema.Proofs.Distinct
import ReleaseSchema.Proofs.Release.Order
import ReleaseSchema.Proofs.Text.Cursor

namespace ReleaseSchema.Placeholder

open Text

/-- A name in angle brackets. -/
def written (name : List Char) : List Char := '<' :: (name ++ ['>'])

/-- The name of a placeholder: word characters, and at least one. -/
def IsName (name : List Char) : Prop := name ≠ [] ∧ ∀ c ∈ name, isWord c = true

/-- The text holds the placeholder. -/
def Holds (text name : List Char) : Prop := IsName name ∧ written name <:+: text

/-! ## One placeholder -/

section Reading

variable {passed text name other rest before : List Char} {c : Char} {d : Cursor}

theorem written_append (name rest : List Char) :
    written name ++ rest = '<' :: (name ++ '>' :: rest) := by
  simp [written]

theorem bracketed?_eq_some_iff :
    bracketed? ⟨passed, text⟩ = some (name, d) ↔
      IsName name ∧ ∃ rest, text = written name ++ rest ∧
        d = ⟨(written name).reverse ++ passed, rest⟩ := by
  constructor
  · intro h
    simp only [bracketed?, Option.bind_eq_bind, Option.bind_eq_some_iff] at h
    obtain ⟨inside, hopen, ⟨word, behind⟩, hword, closed, hclose, hpair⟩ := h
    cases hpair
    obtain ⟨_, rfl, rfl⟩ := Cursor.exists_of_char? hopen
    obtain ⟨hne, hall, _, rfl, rfl⟩ := Cursor.exists_of_run? hword
    obtain ⟨rest, rfl, rfl⟩ := Cursor.exists_of_char? hclose
    exact ⟨⟨hne, hall⟩, rest, (written_append _ rest).symm, by simp [written]⟩
  · rintro ⟨⟨hne, hword⟩, rest, rfl, rfl⟩
    have stop : Stops isWord ('>' :: rest) := stops_cons.2 (by decide)
    have opened : Cursor.char? '<' ⟨passed, '<' :: (name ++ '>' :: rest)⟩ =
        some ⟨'<' :: passed, name ++ '>' :: rest⟩ := rfl
    have read := @Cursor.run?_append isWord ('<' :: passed) name ('>' :: rest) hne hword stop
    rw [written_append, bracketed?, opened]
    simp only [Option.bind_eq_bind, Option.bind_some, Cursor.word?, read]
    simp [Cursor.char?, written]

theorem eq_of_written_prefix (hname : IsName name) (hother : IsName other)
    (h : written other <+: written name ++ rest) : other = name := by
  obtain ⟨more, hmore⟩ := h
  rw [written_append, written_append] at hmore
  have close : ∀ text, Stops isWord ('>' :: text) := fun text => stops_cons.2 (by decide)
  have same := congrArg (List.takeWhile isWord) (List.cons.inj hmore).2
  rwa [takeWhile_run hother.2 (close more), takeWhile_run hname.2 (close rest)] at same

theorem holds_cons :
    Holds (c :: text) name ↔ (IsName name ∧ written name <+: c :: text) ∨ Holds text name := by
  rw [Holds, Holds, List.infix_cons_iff, and_or_left]

/-- Where the reader answers nowhere, no placeholder begins. -/
theorem holds_append_of_none
    (h : ∀ x y, before = x ++ y → y ≠ [] → bracketed? ⟨x.reverse ++ passed, y ++ text⟩ = none) :
    Holds (before ++ text) name ↔ Holds text name := by
  induction before generalizing passed with
  | nil => exact Iff.rfl
  | cons c before ih =>
    have here : ¬(IsName name ∧ written name <+: c :: (before ++ text)) := by
      rintro ⟨hname, rest, hrest⟩
      have nothing : bracketed? ⟨passed, c :: (before ++ text)⟩ = none :=
        h [] (c :: before) rfl (List.cons_ne_nil c before)
      rw [bracketed?_eq_some_iff.2 ⟨hname, rest, hrest.symm, rfl⟩] at nothing
      cases nothing
    rw [List.cons_append, holds_cons, or_iff_right here]
    refine @ih (c :: passed) fun x y hsplit hy => ?_
    have behind := h (c :: x) y (congrArg (c :: ·) hsplit) hy
    simpa using behind

theorem holds_append_of_not_mem (h : '<' ∉ before) :
    Holds (before ++ text) name ↔ Holds text name := by
  induction before with
  | nil => exact Iff.rfl
  | cons c before ih =>
    rw [List.mem_cons, not_or] at h
    have here : ¬(IsName name ∧ written name <+: c :: (before ++ text)) :=
      fun ⟨_, hprefix⟩ => h.1 (List.cons_prefix_cons.1 hprefix).1
    rw [List.cons_append, holds_cons, or_iff_right here, ih h.2]

theorem holds_written_append (hother : IsName other) :
    Holds (written other ++ rest) name ↔ name = other ∨ Holds rest name := by
  have inside : '<' ∉ other ++ ['>'] := by
    rw [List.mem_append, not_or]
    exact ⟨fun hopen => absurd (hother.2 _ hopen) (by decide), by decide⟩
  have first : IsName name ∧ written name <+: written other ++ rest ↔ name = other := by
    constructor
    · rintro ⟨hname, hprefix⟩
      exact eq_of_written_prefix hother hname hprefix
    · rintro rfl
      exact ⟨hother, List.prefix_append ..⟩
  have behind := @holds_append_of_not_mem rest name _ inside
  have split : written other ++ rest = '<' :: (other ++ ['>'] ++ rest) := rfl
  rw [split] at first ⊢
  rw [holds_cons, first, behind]

end Reading

/-! ## All placeholders of a text -/

/-- A search gives the placeholders that are still to read, whatever was passed. -/
theorem mem_searchAllFrom {fuel : Nat} {passed text name : List Char} (h : text.length < fuel) :
    name ∈ searchAllFrom bracketed? fuel ⟨passed, text⟩ ↔ Holds text name := by
  induction fuel generalizing passed text with
  | zero => exact absurd h (Nat.not_lt_zero _)
  | succ fuel ih =>
    rw [searchAllFrom]
    split
    next nothing =>
      refine iff_of_false List.not_mem_nil ?_
      rintro ⟨hname, before, rest, rfl⟩
      rw [Cursor.find?, List.append_assoc] at nothing
      have none := Cursor.reader_eq_none_of_findFrom nothing
      rw [bracketed?_eq_some_iff.2 ⟨hname, rest, rfl, rfl⟩] at none
      cases none
    next place other next found =>
      obtain ⟨before, after, rfl, rfl, hread, hbefore⟩ := Cursor.exists_of_findFrom found
      obtain ⟨hother, rest, rfl, rfl⟩ := bracketed?_eq_some_iff.1 hread
      have shorter : rest.length < fuel := by
        simp only [written, List.length_append, List.length_cons] at h
        omega
      rw [List.mem_cons, ih shorter, holds_append_of_none hbefore, holds_written_append hother]

theorem mem_searchAll {text name : List Char} :
    name ∈ searchAll bracketed? text ↔ Holds text name :=
  mem_searchAllFrom (Nat.lt_succ_self _)

theorem mem_names {text : List Char} {name : String} :
    name ∈ names text ↔ Holds text name.toList := by
  rw [names, mem_distinct, List.mem_map]
  constructor
  · rintro ⟨chars, hchars, rfl⟩
    rw [String.toList_ofList]
    exact mem_searchAll.1 hchars
  · intro h
    exact ⟨name.toList, mem_searchAll.2 h, String.ofList_toList⟩

example : names "<a<b>_<c>> < d> <> <b> <e".toList = ["b", "c"] := by decide +kernel

theorem nodup_names (text : List Char) : (names text).Nodup := nodup_distinct _

/-! ## Files -/

section Files

variable (sources : Sources)

/-- The file can be read and holds the placeholder. -/
def Mentions (file name : String) : Prop :=
  ∃ text, sources file = some text ∧ Holds text.toList name.toList

/-- The placeholder is one of those that are noted for the file. -/
def notes (name file : String) : Bool :=
  (sources file).any fun text => (names text.toList).contains name

theorem notes_iff {name file : String} :
    notes sources name file = true ↔ Mentions sources file name := by
  rw [notes, Option.any_eq_true]
  simp only [List.contains_iff_mem, mem_names]
  rfl

variable {sources}

/-- Each placeholder of a file is noted once. -/
theorem get?_addUses {file name : String} {uses : Uses} {found : List String} (h : found.Nodup) :
    (found.foldl (addUse file) uses).get? name =
      if name ∈ found then some ((uses.get? name).getD [] ++ [file]) else uses.get? name := by
  induction found generalizing uses with
  | nil => rfl
  | cons first found ih =>
    obtain ⟨hfirst, hfound⟩ := List.nodup_cons.1 h
    rw [List.foldl_cons, ih hfound, addUse, SortedMap.get?_alter]
    by_cases hname : name = first
    · subst hname
      simp [hfirst]
    · simp [hname]

theorem get?_addFile (file name : String) (uses : Uses) :
    (addFile sources uses file).get? name =
      if notes sources name file then some ((uses.get? name).getD [] ++ [file])
      else uses.get? name := by
  rw [addFile, notes]
  cases sources file with
  | none => rfl
  | some text =>
    have each := @get?_addUses file name uses _ (nodup_names text.toList)
    simpa using each

/-- Files add themselves in their order, behind the ones that are noted already. -/
theorem get?_addFiles (files : List String) (name : String) (uses : Uses) :
    (files.foldl (addFile sources) uses).get? name =
      if files.filter (notes sources name) = [] then uses.get? name
      else some ((uses.get? name).getD [] ++ files.filter (notes sources name)) := by
  induction files generalizing uses with
  | nil => rfl
  | cons file files ih =>
    rw [List.foldl_cons, ih, get?_addFile, List.filter_cons]
    by_cases hfile : notes sources name file = true
    · by_cases hothers : files.filter (notes sources name) = []
      · simp [hfile, hothers]
      · simp [hfile, hothers]
    · simp only [hfile, if_false, Bool.false_eq_true]

theorem get?_scan (files : List String) (name : String) :
    (scan sources files).get? name =
      if (distinct files).filter (notes sources name) = [] then none
      else some ((distinct files).filter (notes sources name)) := by
  rw [scan, get?_addFiles]
  rfl

end Files

/-! ## Scans -/

/-- The uses are those of the placeholders in the listed files: a placeholder has the readable files
whose texts hold it, each once, in the order in which they are listed first, and a placeholder that
is in none of them has no entry. -/
structure IsExact (sources : Sources) (files : List String) (uses : Uses) : Prop where
  mem_iff : ∀ name file, (∃ found, uses.get? name = some found ∧ file ∈ found) ↔
    file ∈ files ∧ Mentions sources file name
  ne_nil : ∀ name found, uses.get? name = some found → found ≠ []
  nodup : ∀ name found, uses.get? name = some found → found.Nodup
  ordered : ∀ name found, uses.get? name = some found →
    found.Pairwise (files.idxOf · < files.idxOf ·)

theorem isExact_scan (sources : Sources) (files : List String) :
    IsExact sources files (scan sources files) := by
  have eq_of_get? : ∀ name found, (scan sources files).get? name = some found →
      found = (distinct files).filter (notes sources name) ∧ found ≠ [] := by
    intro name found h
    rw [get?_scan] at h
    split at h
    · cases h
    next hne =>
      cases h
      exact ⟨rfl, hne⟩
  constructor
  case mem_iff =>
    intro name file
    have mem : file ∈ (distinct files).filter (notes sources name) ↔
        file ∈ files ∧ Mentions sources file name := by
      rw [List.mem_filter, mem_distinct, notes_iff]
    rw [← mem]
    constructor
    · rintro ⟨found, h, hfile⟩
      exact (eq_of_get? name found h).1 ▸ hfile
    · intro hfile
      refine ⟨_, ?_, hfile⟩
      rw [get?_scan, if_neg (List.ne_nil_of_mem hfile)]
  case ne_nil => exact fun name found h => (eq_of_get? name found h).2
  case nodup =>
    intro name found h
    rw [(eq_of_get? name found h).1]
    exact (nodup_distinct files).filter _
  case ordered =>
    intro name found h
    rw [(eq_of_get? name found h).1]
    exact (pairwise_idxOf_distinct files).filter _

theorem parameters_build (manifests : List Manifest) (sources : Sources) :
    (Catalog.build manifests sources).parameters =
      scan sources ((Manifest.listing manifests).map (·.2.file)) := by
  rw [← (Manifest.matches_fold manifests).files]
  rfl

/-- The listing has the files of all acceptable manifests, of known kinds and of unknown ones. -/
theorem mem_listing_files {manifests : List Manifest} {file : String} :
    file ∈ (Manifest.listing manifests).map (·.2.file) ↔
      ∃ m ∈ manifests, m.isAcceptable = true ∧ ∃ f ∈ m.files, f.file = file := by
  rw [List.mem_map]
  constructor
  · rintro ⟨⟨version, f⟩, hlisted, rfl⟩
    obtain ⟨m, hm, haccept, -, hf⟩ := Manifest.mem_listing.1 hlisted
    exact ⟨m, hm, haccept, f, hf, rfl⟩
  · rintro ⟨m, hm, haccept, f, hf, rfl⟩
    exact ⟨(m.versionName, f), Manifest.mem_listing.2 ⟨m, hm, haccept, rfl, hf⟩, rfl⟩

/-- **Placeholders.** A scan finds every placeholder of every listed file that can be read, and no
other: a placeholder has a file exactly when the file is listed, can be read, and holds the name in
angle brackets; it has each file once, in the order of their first listing, and none is kept without
a file. The placeholders of a built catalog are those of all files that the manifests of acceptable
versions list, whatever their kind, in the order of the fold. -/
theorem placeholders_exact (sources : Sources) :
    (∀ files, IsExact sources files (scan sources files)) ∧
    ∀ manifests,
      IsExact sources ((Manifest.listing manifests).map (·.2.file))
        (Catalog.build manifests sources).parameters ∧
      ∀ file, file ∈ (Manifest.listing manifests).map (·.2.file) ↔
        ∃ m ∈ manifests, m.isAcceptable = true ∧ ∃ f ∈ m.files, f.file = file := by
  refine ⟨isExact_scan sources, fun manifests => ⟨?_, fun _ => mem_listing_files⟩⟩
  rw [parameters_build]
  exact isExact_scan sources _

end ReleaseSchema.Placeholder
