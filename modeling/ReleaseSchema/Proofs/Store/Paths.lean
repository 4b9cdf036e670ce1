/-
Where a store keeps its documents. Their paths have one beginning and two
endings (`DocumentStore.pathOf_eq`), so both documents lie in one folder under
two names (`DocumentStore.steps_pathOf`), and the folder that is made for the
one is the folder of the other (`DocumentStore.parent?_pathOf`).
-/
import ReleaseSchema.Proofs.Disk.Files
import ReleaseSchema.Proofs.Path
import ReleaseSchema.Store.Document

namespace ReleaseSchema

namespace DocumentStore

/-- What may stand at the end of a document's path. -/
def IsEnding (ending : String) : Prop := ending.toList.head? = some '-' ∧ '/' ∉ ending.toList

instance (ending : String) : Decidable (IsEnding ending) := inferInstanceAs (Decidable (_ ∧ _))

/-- The paths of the documents up to their endings. -/
def beginning (s : DocumentStore) : List Char :=
  if s.label.toList.head? = some '/' then s.label.toList
  else Path.base s.folder.toList ++ s.label.toList

variable {ending other : String}

theorem IsEnding.exists_cons (h : IsEnding ending) : ∃ rest, ending.toList = '-' :: rest := by
  obtain ⟨hhead, -⟩ := h
  cases hending : ending.toList with
  | nil => simp [hending] at hhead
  | cons c rest =>
    have hc : c = '-' := by simpa [hending] using hhead
    exact ⟨rest, by rw [hc]⟩

/-- A segment with an ending leads somewhere. -/
theorem isIdle_append (h : IsEnding ending) (segment : List Char) :
    Path.isIdle (segment ++ ending.toList) = false := by
  obtain ⟨rest, hrest⟩ := h.exists_cons
  have dash : '-' ∈ segment ++ ending.toList := by simp [hrest]
  rw [Path.isIdle, Bool.or_eq_false_iff, beq_eq_false_iff_ne]
  constructor
  · cases hsegment : segment ++ ending.toList with
    | nil => simp [hsegment] at dash
    | cons c name => rfl
  · intro hdot
    simp [hdot] at dash

theorem pathOf_eq (s : DocumentStore) (h : IsEnding ending) :
    (s.pathOf ending).toList = s.beginning ++ ending.toList := by
  obtain ⟨rest, hrest⟩ := h.exists_cons
  rw [pathOf, String.toList_ofList, String.toList_append, hrest, beginning]
  by_cases habsolute : s.label.toList.head? = some '/'
  · have absolute : (s.label.toList ++ '-' :: rest).head? = some '/' := by
      simp [List.head?_append, habsolute]
    rw [Path.join_of_absolute absolute, if_pos habsolute]
  · have relative : (s.label.toList ++ '-' :: rest).head? ≠ some '/' := by
      cases hlabel : s.label.toList with
      | nil => simp
      | cons c label => simpa [hlabel] using habsolute
    rw [Path.join_of_relative relative, if_neg habsolute, List.append_assoc]

/-- The name of a document in the folder of the store. -/
def documentName (s : DocumentStore) (ending : String) : List Char :=
  ((Path.segments s.beginning).getLast?.getD []) ++ ending.toList

theorem isIdle_documentName (s : DocumentStore) (h : IsEnding ending) :
    Path.isIdle (s.documentName ending) = false :=
  isIdle_append h _

theorem documentName_ne_up (s : DocumentStore) (h : IsEnding ending) :
    s.documentName ending ≠ ['.', '.'] := by
  obtain ⟨rest, hrest⟩ := h.exists_cons
  have dash : '-' ∈ s.documentName ending := by simp [documentName, hrest]
  intro hup
  simp [hup] at dash

theorem documentName_inj {s : DocumentStore}
    (h : s.documentName ending = s.documentName other) : ending = other :=
  String.toList_inj.1 (List.append_cancel_left h)

/-- The segments in front of a document's name. -/
def folderSegments (s : DocumentStore) (d : Disk) : List (List Char) :=
  (d.steps s.beginning).2.dropLast

/-- The way to a document is the way to the folder of the store, and the document's name. -/
theorem steps_pathOf (s : DocumentStore) (d : Disk) (h : IsEnding ending) :
    d.steps (s.pathOf ending).toList =
      ((d.steps s.beginning).1, s.folderSegments d ++ [s.documentName ending]) := by
  obtain ⟨rest, hrest⟩ := h.exists_cons
  rw [pathOf_eq s h, folderSegments, documentName]
  cases hbeginning : s.beginning with
  | nil =>
    have relative : d.steps ending.toList = (d.cwd, Path.segments ending.toList) := by
      rw [hrest]
      rfl
    rw [List.nil_append, relative]
    exact Prod.ext rfl (Path.segments_append [] h.2)
  | cons c text =>
    by_cases hc : c = '/'
    · subst hc
      have last : (Path.segments ('/' :: text)).getLast? = (Path.segments text).getLast? := by
        have some := List.splitOn_ne_nil '/' text
        rw [Path.segments, List.splitOn_cons_eq_if_modifyHead, if_pos (by simp)]
        cases htext : text.splitOn '/' with
        | nil => exact absurd htext some
        | cons first others => simp [Path.segments, htext]
      rw [last]
      exact Prod.ext rfl (Path.segments_append text h.2)
    · have relative : ∀ more, d.steps (c :: more) = (d.cwd, Path.segments (c :: more)) := by
        intro more
        rw [Disk.steps]
        intro body heq
        exact hc (List.cons.inj heq).1
      rw [List.cons_append, relative, relative]
      exact Prod.ext rfl (Path.segments_append (c :: text) h.2)

/-- The place of a document has its name. -/
theorem exists_of_find?_pathOf {s : DocumentStore} {d : Disk} {place : Place} (h : IsEnding ending)
    (hfind : d.find? (s.pathOf ending).toList = .ok place) :
    ∃ folder, place = String.ofList (s.documentName ending) :: folder := by
  rw [Disk.find?, steps_pathOf s d h] at hfind
  split at hfind
  · cases hfind
  · obtain ⟨folder, -, hlast⟩ := Disk.exists_of_walk?_append hfind
    obtain ⟨entries, next, -, hturn, hnil⟩ := Disk.walk?_cons_eq_ok_iff.1 hlast
    rw [Disk.turn?, if_neg (by simp [isIdle_documentName s h]), if_neg (documentName_ne_up s h)]
      at hturn
    split at hturn
    next =>
      cases hturn
      cases hnil
      exact ⟨folder, rfl⟩
    next => cases hturn

/-- No two documents are at one place. -/
theorem find?_pathOf_inj {s : DocumentStore} {d : Disk} {place : Place} (h : IsEnding ending)
    (h' : IsEnding other) (hfind : d.find? (s.pathOf ending).toList = .ok place)
    (hfind' : d.find? (s.pathOf other).toList = .ok place) : ending = other := by
  obtain ⟨folder, rfl⟩ := exists_of_find?_pathOf h hfind
  obtain ⟨folder', heq⟩ := exists_of_find?_pathOf h' hfind'
  have names := String.ofList_inj.1 (List.cons.inj heq).1
  exact documentName_inj names

/-! ## The folder -/

/-- An ending is no part of the lead of a path. -/
theorem exists_split_append (text : List Char) :
    ∃ lead body, ∀ ending, IsEnding ending →
      Path.split (text ++ ending.toList) = (lead, body ++ ending.toList) := by
  rcases text with _ | ⟨c, text⟩
  · refine ⟨.none, [], fun ending h => ?_⟩
    obtain ⟨rest, hrest⟩ := h.exists_cons
    rw [hrest]
    rfl
  by_cases hroot : c = '/'
  · subst hroot
    exact ⟨.root, text, fun ending _ => rfl⟩
  by_cases hdot : c = '.'
  · subst hdot
    rcases text with _ | ⟨next, text⟩
    · refine ⟨.none, ['.'], fun ending h => ?_⟩
      obtain ⟨rest, hrest⟩ := h.exists_cons
      rw [hrest]
      rfl
    by_cases hnext : next = '/'
    · subst hnext
      exact ⟨.here, '/' :: text, fun ending _ => rfl⟩
    · exact ⟨.none, '.' :: next :: text, fun ending _ => by simp [Path.split, hnext]⟩
  · exact ⟨.none, c :: text, fun ending _ => by simp [Path.split, hroot, hdot]⟩

/-- The folder that is made for the one document is the folder of the other. -/
theorem parent?_pathOf (s : DocumentStore) (h : IsEnding ending) (h' : IsEnding other) :
    Path.parent? (s.pathOf ending).toList = Path.parent? (s.pathOf other).toList := by
  obtain ⟨lead, body, hsplit⟩ := exists_split_append s.beginning
  have significant : ∀ {ending}, IsEnding ending →
      Path.significantReversed (body ++ ending.toList) =
        (((Path.segments body).getLast?.getD []) ++ ending.toList) ::
          (Path.segments body).dropLast.reverse := by
    intro ending h
    rw [Path.significantReversed, Path.segments_append body h.2, List.reverse_append]
    exact List.dropWhile_cons_of_neg (by simp [isIdle_append h])
  rw [pathOf_eq s h, pathOf_eq s h', Path.parent?, Path.parent?, hsplit ending h, hsplit other h']
  simp only [significant h, significant h']

/-! ## Writing one of the documents -/

theorem pathOf_ne_nil (s : DocumentStore) (h : IsEnding ending) :
    (s.pathOf ending).toList ≠ [] := by
  obtain ⟨rest, hrest⟩ := h.exists_cons
  rw [pathOf_eq s h, hrest]
  simp

/-- Where the path of a document leads from the folder of the store. -/
theorem find?_pathOf {s : DocumentStore} {d : Disk} (h : IsEnding ending) {place : Place}
    {entries : List (String × Node)}
    (hwalk : d.walk? (d.steps s.beginning).1 (s.folderSegments d) = .ok place)
    (hplace : d.at? place = some (.folder entries)) :
    d.find? (s.pathOf ending).toList =
      if (entries.lookup (String.ofList (s.documentName ending))).isSome
      then .ok (String.ofList (s.documentName ending) :: place) else .error .notFound := by
  have hsteps := steps_pathOf s d h
  refine Disk.find?_of_walk? (pathOf_ne_nil s h) (congrArg Prod.snd hsteps)
    (isIdle_documentName s h) (documentName_ne_up s h) ?_ hplace
  rw [hsteps]
  exact hwalk

/-- **Two documents.** Writing the one leaves the other as it was. -/
theorem read_of_write_other {s : DocumentStore} {d d' : Disk} {content : ByteArray}
    (h : IsEnding ending) (h' : IsEnding other) (hne : other ≠ ending)
    (hwrite : d.write (s.pathOf ending).toList content = .ok d') :
    d'.find? (s.pathOf other).toList = d.find? (s.pathOf other).toList ∧
      d'.read (s.pathOf other).toList = d.read (s.pathOf other).toList := by
  obtain ⟨-, segments, last, place, entries, hsteps, -, -, hwalk, hplace, hfile, hput⟩ :=
    Disk.exists_of_write hwrite
  rw [steps_pathOf s d h] at hsteps hwalk
  obtain ⟨rfl, hlast⟩ := List.append_inj' hsteps rfl
  obtain rfl : s.documentName ending = last := by simpa using hlast
  have kept : Disk.Extends d d' := hput ▸ Disk.put_extends hplace hfile (.file content)
  have hplace' : d'.at? place = some (.folder
      (Bindings.bind (String.ofList (s.documentName ending)) (.file content) entries)) :=
    hput ▸ Disk.at?_put_folder hplace _ (.file content)
  have hwalk' : d'.walk? (d'.steps s.beginning).1 (s.folderSegments d') = .ok place := by
    rw [folderSegments, kept.steps]
    exact Disk.walk?_of_extends kept hwalk
  have names : String.ofList (s.documentName other) ≠ String.ofList (s.documentName ending) :=
    fun same => hne (documentName_inj (String.ofList_inj.1 same))
  have found := find?_pathOf h' hwalk hplace
  have hfind : d'.find? (s.pathOf other).toList = d.find? (s.pathOf other).toList := by
    rw [found, find?_pathOf h' hwalk' hplace', Bindings.lookup_bind, if_neg names]
  refine ⟨hfind, Disk.read_congr hfind fun leads hleads => ?_⟩
  rw [found] at hleads
  split at hleads
  · cases hleads
    rw [Disk.at?_cons, Disk.at?_cons, hplace, hplace', Option.bind_some, Option.bind_some,
      Node.child?, Node.child?, Bindings.lookup_bind, if_neg names]
  · cases hleads

end DocumentStore

end ReleaseSchema
