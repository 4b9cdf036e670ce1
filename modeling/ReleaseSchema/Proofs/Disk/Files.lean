/-
The folders and files of a disk. Making folders leaves every file as it was
(`Disk.grows_makeFolders`), and changes nothing once the folders are there
(`Disk.makeFolders_again`). Writing a file changes that one alone
(`Disk.wrote_of_write`), whatever paths lead to the others.
-/
import Mathlib.Data.List.TakeWhile
import ReleaseSchema.Proofs.Disk

namespace ReleaseSchema

namespace Node

/-- What a file holds. -/
def content? : Node → Option ByteArray
  | .file content => some content
  | .folder _ => none

/-- What the file holds that names lead to. -/
def fileAt? (root : Node) (names : List String) : Option ByteArray :=
  (root.descend? names).bind content?

/-- A node with no file below it. -/
def IsLeaf : Node → Prop
  | .file _ => True
  | .folder entries => entries = []

theorem fileAt?_cons {entries : List (String × Node)} (name : String) (rest : List String) :
    (Node.folder entries).fileAt? (name :: rest) =
      (entries.lookup name).bind (·.fileAt? rest) := by
  rw [fileAt?, descend?_cons, Option.bind_assoc]
  rfl

theorem IsLeaf.fileAt?_cons {node : Node} (h : node.IsLeaf) (name : String) (rest : List String) :
    node.fileAt? (name :: rest) = none := by
  cases node with
  | file content => rfl
  | folder entries =>
    cases h
    rfl

/-- A leaf that is put where no folder is changes the file at its own place only. -/
theorem fileAt?_put {node root : Node} (leaf : node.IsLeaf) {names : List String}
    {entries : List (String × Node)} (h : root.descend? names = some (.folder entries))
    {last : String} (hfile : ∀ inner, entries.lookup last ≠ some (.folder inner))
    (path : List String) :
    (put node (names ++ [last]) root).fileAt? path =
      if path = names ++ [last] then node.content? else root.fileAt? path := by
  induction names generalizing root path with
  | nil =>
    cases h
    rw [List.nil_append, put]
    cases path with
    | nil => rfl
    | cons name rest =>
      rw [fileAt?_cons, fileAt?_cons, Bindings.lookup_bind]
      by_cases hname : name = last
      · subst hname
        rw [if_pos rfl, Option.bind_some]
        cases rest with
        | nil =>
          rw [if_pos rfl]
          rfl
        | cons next rest =>
          rw [if_neg (by simp), leaf.fileAt?_cons]
          cases hold : entries.lookup name with
          | none => rfl
          | some old =>
            cases old with
            | file content => rfl
            | folder inner => exact absurd hold (hfile inner)
      · rw [if_neg hname, if_neg (by simp [hname])]
  | cons first names ih =>
    obtain ⟨others, next, rfl, hnext, hfound⟩ := exists_of_descend?_cons h
    rw [List.cons_append, put_cons (by simp) hnext]
    cases path with
    | nil => rfl
    | cons name rest =>
      rw [fileAt?_cons, fileAt?_cons, Bindings.lookup_bind]
      by_cases hname : name = first
      · subst hname
        simp only [if_true, Option.bind_some, hnext, ih hfound, List.cons.injEq, true_and]
      · rw [if_neg hname, if_neg (by simp [hname])]

theorem Extends.refl (root : Node) : Extends root root :=
  fun _ entries h => ⟨entries, h, fun _ h => h⟩

theorem Extends.trans {a b c : Node} (h : Extends a b) (h' : Extends b c) : Extends a c := by
  intro names entries hentries
  obtain ⟨middle, hmiddle, kept⟩ := h names entries hentries
  obtain ⟨last, hlast, kept'⟩ := h' names middle hmiddle
  exact ⟨last, hlast, fun name hname => kept' name (kept name hname)⟩

end Node

namespace Disk

variable {d d' : Disk} {path : List Char} {content : ByteArray}

/-- What the file at a place holds. -/
def file? (d : Disk) (place : Place) : Option ByteArray := (d.at? place).bind Node.content?

theorem file?_eq_some_iff {place : Place} :
    d.file? place = some content ↔ d.at? place = some (.file content) := by
  rw [file?]
  rcases d.at? place with _ | ⟨other | entries⟩
  · simp
  · simp [Node.content?]
  · simp [Node.content?]

theorem read_eq_ok_iff :
    d.read path = .ok content ↔ ∃ place, d.find? path = .ok place ∧ d.file? place = some content := by
  rw [read, node?]
  rcases d.find? path with e | place
  · simp [bind, Except.bind]
  · rcases hplace : d.at? place with _ | ⟨other | entries⟩ <;>
      simp [bind, Except.bind, file?, hplace, Node.content?]

theorem file?_put {node : Node} (leaf : node.IsLeaf) {place : Place}
    {entries : List (String × Node)} {name : String}
    (hplace : d.at? place = some (.folder entries))
    (hfile : ∀ inner, entries.lookup name ≠ some (.folder inner)) (other : Place) :
    (d.put (name :: place) node).file? other =
      if other = name :: place then node.content? else d.file? other := by
  have put := Node.fileAt?_put leaf hplace hfile other.reverse
  have same : other.reverse = place.reverse ++ [name] ↔ other = name :: place := by
    rw [← List.reverse_cons, List.reverse_inj]
  rw [← List.reverse_cons] at put
  simp only [List.reverse_cons, same] at put
  rw [← List.reverse_cons] at put
  exact put

/-! ## Folders -/

/-- The folders have grown, and the files are the same. -/
structure Grows (old new : Disk) : Prop extends Extends old new where
  files : ∀ place, new.file? place = old.file? place

theorem Grows.refl (d : Disk) : Grows d d := ⟨⟨rfl, Node.Extends.refl _⟩, fun _ => rfl⟩

theorem Grows.trans {a b c : Disk} (h : Grows a b) (h' : Grows b c) : Grows a c :=
  ⟨⟨h'.cwd.trans h.cwd, h.root.trans h'.root⟩, fun place => (h'.files place).trans (h.files place)⟩

theorem at?_cons (d : Disk) (name : String) (place : Place) :
    d.at? (name :: place) = (d.at? place).bind (·.child? name) := by
  rw [at?, List.reverse_cons, Node.descend?_append]
  refine congrArg _ (funext fun node => ?_)
  cases hchild : node.child? name <;> simp [Node.descend?, hchild]

theorem exists_of_at?_cons {name : String} {place : Place} {node : Node}
    (h : d.at? (name :: place) = some node) :
    ∃ entries, d.at? place = some (.folder entries) ∧ entries.lookup name = some node := by
  rw [at?_cons] at h
  obtain ⟨folder, hplace, hchild⟩ := Option.bind_eq_some_iff.1 h
  cases folder with
  | file content => cases hchild
  | folder entries => exact ⟨entries, hplace, hchild⟩

/-- The segments of a path up to its last significant one. -/
def significant (d : Disk) (path : List Char) : List (List Char) :=
  ((d.steps path).2.reverse.dropWhile Path.isIdle).reverse

/-- Only idle segments stand behind the significant ones. -/
theorem significant_append (d : Disk) (path : List Char) :
    ∃ idle, (d.steps path).2 = d.significant path ++ idle ∧
      ∀ segment ∈ idle, Path.isIdle segment = true := by
  refine ⟨((d.steps path).2.reverse.takeWhile Path.isIdle).reverse, ?_, fun segment h => ?_⟩
  · rw [significant, ← List.reverse_append, List.takeWhile_append_dropWhile, List.reverse_reverse]
  · exact List.mem_takeWhile_imp (List.mem_reverse.1 h)

theorem isIdle_of_significant {segments : List (List Char)} {last : List Char}
    (h : d.significant path = segments ++ [last]) : Path.isIdle last = false := by
  have reversed := congrArg List.reverse h
  rw [significant, List.reverse_reverse, List.reverse_append] at reversed
  have head := List.head?_dropWhile_not Path.isIdle (d.steps path).2.reverse
  rw [reversed] at head
  simpa using head

/-- Idle segments lead nowhere else. -/
theorem walk?_of_idle {idle : List (List Char)} (h : ∀ segment ∈ idle, Path.isIdle segment = true)
    {place : Place} {entries : List (String × Node)}
    (hplace : d.at? place = some (.folder entries)) : d.walk? place idle = .ok place := by
  induction idle with
  | nil => rfl
  | cons segment idle ih =>
    rw [walk?_cons hplace, turn?, if_pos (h segment List.mem_cons_self)]
    exact ih fun other hother => h other (List.mem_cons_of_mem _ hother)

/-- The folder in which a path's last segment is looked for. -/
theorem findParent?_of_walk? {segments : List (List Char)} {last : List Char} {place : Place}
    {entries : List (String × Node)} (hsegments : d.significant path = segments ++ [last])
    (hwalk : d.walk? (d.steps path).1 segments = .ok place)
    (hplace : d.at? place = some (.folder entries)) :
    d.findParent? path =
      if last = ['.', '.'] then .error .alreadyExists else .ok (place, String.ofList last) := by
  rw [significant] at hsegments
  unfold findParent?
  simp only [hsegments, List.getLast?_append, List.getLast?_singleton, Option.some_or,
    List.dropLast_concat, hwalk, bind, Except.bind, hplace]

theorem exists_of_findParent? {place : Place} {name : String}
    (h : d.findParent? path = .ok (place, name)) :
    ∃ segments last entries, d.significant path = segments ++ [last] ∧ last ≠ ['.', '.'] ∧
      d.walk? (d.steps path).1 segments = .ok place ∧ d.at? place = some (.folder entries) ∧
      name = String.ofList last := by
  unfold findParent? at h
  simp only at h
  split at h
  · cases h
  next last hlast =>
    obtain ⟨segments, hsegments⟩ := List.getLast?_eq_some_iff.1 hlast
    rw [hsegments, List.dropLast_concat] at h
    rcases hwalk : d.walk? (d.steps path).1 segments with e | found
    · simp only [hwalk, bind, Except.bind, reduceCtorEq] at h
    · simp only [hwalk, bind, Except.bind] at h
      split at h
      next entries hplace =>
        split at h
        · cases h
        next hup =>
          cases h
          exact ⟨segments, last, entries, hsegments, hup, hwalk, hplace, rfl⟩
      · cases h
      · cases h

/-- A folder is made in a folder, under a name that nothing has. -/
theorem exists_of_makeFolder (h : d.makeFolder path = .ok d') :
    ∃ segments last place entries, d.significant path = segments ++ [last] ∧
      last ≠ ['.', '.'] ∧ d.walk? (d.steps path).1 segments = .ok place ∧
      d.at? place = some (.folder entries) ∧ entries.lookup (String.ofList last) = none ∧
      d' = d.put (String.ofList last :: place) (.folder []) := by
  unfold makeFolder at h
  rcases hparent : d.findParent? path with e | ⟨place, name⟩
  · simp only [hparent, bind, Except.bind, reduceCtorEq] at h
  · obtain ⟨segments, last, entries, hsegments, hup, hwalk, hplace, rfl⟩ :=
      exists_of_findParent? hparent
    simp only [hparent, bind, Except.bind] at h
    split at h
    · cases h
    next hnew =>
      cases h
      rw [Option.not_isSome_iff_eq_none, at?_cons, hplace, Option.bind_some] at hnew
      exact ⟨segments, last, place, entries, hsegments, hup, hwalk, hplace, hnew, rfl⟩

theorem grows_makeFolder (h : d.makeFolder path = .ok d') : Grows d d' := by
  obtain ⟨segments, last, place, entries, -, -, -, hplace, hnew, rfl⟩ := exists_of_makeFolder h
  have hfile : ∀ inner, entries.lookup (String.ofList last) ≠ some (.folder inner) := by
    simp [hnew]
  refine ⟨put_extends hplace hfile _, fun other => ?_⟩
  have leaf : (Node.folder []).IsLeaf := rfl
  rw [file?_put leaf hplace hfile]
  split
  next hother =>
    rw [hother, file?, at?_cons, hplace, Option.bind_some, Node.child?, hnew]
    rfl
  next => rfl

theorem grows_ensureFolder (h : d.ensureFolder path = .ok d') : Grows d d' := by
  unfold ensureFolder at h
  split at h
  next made hmade =>
    cases h
    exact grows_makeFolder hmade
  next e _ =>
    split at h
    · cases h
      exact .refl d
    · cases h

theorem grows_makeFoldersFrom (fuel : Nat) (d : Disk) (path : List Char) :
    Grows d (makeFoldersFrom fuel d path).2 := by
  induction fuel generalizing d path with
  | zero => exact .refl d
  | succ fuel ih =>
    rw [makeFoldersFrom]
    split
    · exact .refl d
    split
    next made hmade => exact grows_makeFolder hmade
    next =>
      split
      · exact .refl d
      next parent _ =>
        have above := ih d parent
        split
        next e next hnext => exact hnext ▸ above
        next next hnext =>
          rw [hnext] at above
          split
          next made hmade => exact above.trans (grows_ensureFolder hmade)
          next => exact above
    next => split <;> exact .refl d

theorem grows_makeFolders (d : Disk) (path : List Char) : Grows d (d.makeFolders path).2 :=
  grows_makeFoldersFrom _ d path

/-! ### Folders that are there -/

theorem isFolder_iff : d.isFolder path = true ↔
    ∃ place entries, d.find? path = .ok place ∧ d.at? place = some (.folder entries) := by
  rw [isFolder, node?]
  rcases d.find? path with e | place
  · simp [bind, Except.bind]
  · rcases hplace : d.at? place with _ | ⟨content | entries⟩ <;>
      simp [bind, Except.bind, Node.isFolder, hplace]

theorem isFolder_of_extends (h : Extends d d') (hpath : d.isFolder path = true) :
    d'.isFolder path = true := by
  obtain ⟨place, entries, hfind, hplace⟩ := isFolder_iff.1 hpath
  obtain ⟨entries', hplace', -⟩ := h.root place.reverse entries hplace
  exact isFolder_iff.2 ⟨place, entries', find?_of_extends h hfind, hplace'⟩

theorem isFolder_of_makeFolder (h : d.makeFolder path = .ok d') : d'.isFolder path = true := by
  have kept := (grows_makeFolder h).toExtends
  obtain ⟨segments, last, place, entries, hsegments, hup, hwalk, hplace, -, rfl⟩ :=
    exists_of_makeFolder h
  obtain ⟨idle, hsteps, hidle⟩ := significant_append d path
  have hmade := at?_put hplace (String.ofList last) (.folder [])
  obtain ⟨entries', hplace', -⟩ := kept.root place.reverse entries hplace
  have hname := lookup_of_at?_cons hplace' hmade
  have turn : turn? entries' place last = some (String.ofList last :: place) := by
    rw [turn?, if_neg (by simp [isIdle_of_significant hsegments]), if_neg hup, hname]
    rfl
  have hne : path ≠ [] := by
    rintro rfl
    rw [significant] at hsegments
    have none : (d.steps []).2 = [[]] := rfl
    simp [none, Path.isIdle] at hsegments
  refine isFolder_iff.2 ⟨String.ofList last :: place, [], ?_, hmade⟩
  rw [find?, if_neg (by simpa using hne), kept.steps, hsteps, hsegments, List.append_assoc,
    walk?_append (walk?_of_extends kept hwalk), List.singleton_append, walk?_cons hplace', turn]
  exact walk?_of_idle hidle hmade

theorem isFolder_of_ensureFolder (h : d.ensureFolder path = .ok d') :
    d'.isFolder path = true := by
  unfold ensureFolder at h
  split at h
  next made hmade =>
    cases h
    exact isFolder_of_makeFolder hmade
  next =>
    split at h
    next hthere =>
      cases h
      exact hthere
    next => cases h

theorem isFolder_of_makeFolders (hne : path ≠ []) (h : d.makeFolders path = (.ok (), d')) :
    d'.isFolder path = true := by
  rw [makeFolders, makeFoldersFrom, if_neg (by simpa using hne)] at h
  split at h
  next made hmade =>
    cases h
    exact isFolder_of_makeFolder hmade
  next =>
    split at h
    · cases h
    next parent _ =>
      split at h
      · cases h
      next next hnext =>
        split at h
        next made hmade =>
          cases h
          exact isFolder_of_ensureFolder hmade
        next => cases h
  next =>
    split at h
    next hthere =>
      cases h
      exact hthere
    next => cases h

theorem makeFolder_of_isFolder (h : d.isFolder path = true) :
    d.makeFolder path = .error .alreadyExists := by
  obtain ⟨found, inner, hfind, -⟩ := isFolder_iff.1 h
  obtain ⟨idle, hsteps, -⟩ := significant_append d path
  rcases List.eq_nil_or_concat (d.significant path) with hnone | ⟨segments, last, hsegments⟩
  · have nothing : d.findParent? path = .error .alreadyExists := by
      rw [significant] at hnone
      unfold findParent?
      simp only [hnone, List.getLast?_nil]
    rw [makeFolder, nothing]
    rfl
  · rw [List.concat_eq_append] at hsegments
    rw [find?] at hfind
    split at hfind
    · cases hfind
    rw [hsteps, hsegments, List.append_assoc, List.singleton_append] at hfind
    obtain ⟨place, hwalk, hrest⟩ := exists_of_walk?_append hfind
    obtain ⟨entries, next, hplace, hturn, -⟩ := walk?_cons_eq_ok_iff.1 hrest
    rw [makeFolder, findParent?_of_walk? hsegments hwalk hplace]
    by_cases hup : last = ['.', '.']
    · rw [if_pos hup]
      rfl
    · rw [turn?, if_neg (by simp [isIdle_of_significant hsegments]), if_neg hup] at hturn
      split at hturn
      next hname =>
        have there : (d.at? (String.ofList last :: place)).isSome = true := by
          rw [at?_cons, hplace]
          exact hname
        rw [if_neg hup]
        simp only [bind, Except.bind, there, if_true]
      next => cases hturn

theorem makeFolders_of_isFolder (h : d.isFolder path = true) : d.makeFolders path = (.ok (), d) := by
  rw [makeFolders, makeFoldersFrom]
  split
  · rfl
  · simp only [makeFolder_of_isFolder h]

/-- **Making folders again.** Folders that were made are there, whatever else has been made since. -/
theorem makeFolders_again (h : d.makeFolders path = (.ok (), d')) {later : Disk}
    (kept : Extends d' later) : later.makeFolders path = (.ok (), later) := by
  by_cases hne : path = []
  · subst hne
    rfl
  · exact makeFolders_of_isFolder (isFolder_of_extends kept (isFolder_of_makeFolders hne h))

/-! ## Files -/

/-- The file at a place has been written, no other file has changed, and no folder is gone. -/
structure Wrote (old new : Disk) (place : Place) (content : ByteArray) : Prop
    extends Extends old new where
  files : ∀ other, new.file? other = if other = place then some content else old.file? other

theorem Grows.wrote {a b c : Disk} {place : Place} (h : Grows a b) (h' : Wrote b c place content) :
    Wrote a c place content where
  cwd := h'.cwd.trans h.cwd
  root := h.root.trans h'.root
  files other := by rw [h'.files, h.files]

theorem Wrote.grows {a b c : Disk} {place : Place} (h : Wrote a b place content) (h' : Grows b c) :
    Wrote a c place content where
  cwd := h'.cwd.trans h.cwd
  root := h.root.trans h'.root
  files other := by rw [h'.files, h.files]

/-- **Writing a file.** The path that was written leads to what was written, and every other file
is as it was. -/
theorem wrote_of_write (h : d.write path content = .ok d') :
    ∃ place, d'.find? path = .ok place ∧ Wrote d d' place content := by
  obtain ⟨place, name, entries, hplace, hfile, rfl, hfind⟩ := find?_of_write h
  have leaf : (Node.file content).IsLeaf := trivial
  exact ⟨_, hfind, put_extends hplace hfile _, file?_put leaf hplace hfile⟩

end Disk

end ReleaseSchema
