/-
What a disk keeps when a file is written. The folders stay folders and lose no
name (`Node.Extends`), so paths lead where they led (`walk?_of_extends`), and
the path that was written leads to what was written (`read_of_write`).
-/
import ReleaseSchema.Disk

namespace ReleaseSchema

namespace Node

/-- Where `old` has a folder, `new` has one with at least its names. -/
def Extends (old new : Node) : Prop :=
  ∀ names entries, old.descend? names = some (.folder entries) →
    ∃ entries', new.descend? names = some (.folder entries') ∧
      ∀ name, (entries.lookup name).isSome = true → (entries'.lookup name).isSome = true

theorem descend?_cons {entries : List (String × Node)} (name : String) (rest : List String) :
    (Node.folder entries).descend? (name :: rest) = (entries.lookup name).bind (·.descend? rest) :=
  rfl

theorem descend?_file_ne_folder (content : ByteArray) (names : List String)
    (entries : List (String × Node)) :
    (Node.file content).descend? names ≠ some (.folder entries) := by
  cases names with
  | nil => exact fun h => by cases h
  | cons name rest => exact fun h => by cases h

/-- A node is put below a folder by way of the child that leads there. -/
theorem put_cons {node : Node} {entries : List (String × Node)} {name : String}
    {names : List String} {next : Node} (hnames : names ≠ [])
    (h : entries.lookup name = some next) :
    put node (name :: names) (.folder entries) =
      .folder (Bindings.bind name (put node names next) entries) := by
  cases names with
  | nil => exact absurd rfl hnames
  | cons name' names => simp only [put, h]

theorem lookup_isSome_bind {entries : List (String × Node)} {name other : String} {node : Node}
    (h : (entries.lookup other).isSome = true) :
    ((Bindings.bind name node entries).lookup other).isSome = true := by
  rw [Bindings.lookup_bind]
  split
  · rfl
  · exact h

/-- A folder on the way to a place is led through by its first name. -/
theorem exists_of_descend?_cons {root : Node} {name : String} {names : List String} {found : Node}
    (h : root.descend? (name :: names) = some found) :
    ∃ entries next, root = .folder entries ∧ entries.lookup name = some next ∧
      next.descend? names = some found := by
  cases root with
  | file content => cases h
  | folder entries =>
    obtain ⟨next, hnext, hfound⟩ := Option.bind_eq_some_iff.1 h
    exact ⟨entries, next, rfl, hnext, hfound⟩

theorem descend?_append (root : Node) (names more : List String) :
    root.descend? (names ++ more) = (root.descend? names).bind (·.descend? more) := by
  induction names generalizing root with
  | nil => rfl
  | cons name names ih =>
    simp only [List.cons_append, descend?, Option.bind_assoc]
    exact congrArg _ (funext fun next => ih next)

theorem descend?_put (node : Node) {root : Node} {names : List String}
    {entries : List (String × Node)} (h : root.descend? names = some (.folder entries))
    (last : String) :
    (put node (names ++ [last]) root).descend? (names ++ [last]) = some node := by
  induction names generalizing root with
  | nil =>
    cases h
    rw [List.nil_append, put, descend?_cons, Bindings.lookup_bind, if_pos rfl]
    rfl
  | cons name names ih =>
    obtain ⟨others, next, rfl, hnext, hfound⟩ := exists_of_descend?_cons h
    rw [List.cons_append, put_cons (by simp) hnext, descend?_cons, Bindings.lookup_bind, if_pos rfl]
    exact ih hfound

theorem descend?_put_folder (node : Node) {root : Node} {names : List String}
    {entries : List (String × Node)} (h : root.descend? names = some (.folder entries))
    (last : String) :
    (put node (names ++ [last]) root).descend? names =
      some (.folder (Bindings.bind last node entries)) := by
  induction names generalizing root with
  | nil =>
    cases h
    rfl
  | cons name names ih =>
    obtain ⟨others, next, rfl, hnext, hfound⟩ := exists_of_descend?_cons h
    rw [List.cons_append, put_cons (by simp) hnext, descend?_cons, Bindings.lookup_bind, if_pos rfl]
    exact ih hfound

/-- A node that is put where no folder is takes nothing away. -/
theorem extends_put (node : Node) {root : Node} {names : List String}
    {entries : List (String × Node)} (h : root.descend? names = some (.folder entries))
    {last : String} (hfile : ∀ inner, entries.lookup last ≠ some (.folder inner)) :
    Extends root (put node (names ++ [last]) root) := by
  induction names generalizing root with
  | nil =>
    cases h
    intro path found hpath
    rw [List.nil_append, put]
    cases path with
    | nil =>
      cases hpath
      exact ⟨_, rfl, fun name hname => lookup_isSome_bind hname⟩
    | cons name rest =>
      rw [descend?_cons] at hpath
      have other : name ≠ last := by
        rintro rfl
        obtain ⟨child, hchild, hrest⟩ := Option.bind_eq_some_iff.1 hpath
        cases child with
        | file content => exact descend?_file_ne_folder content rest found hrest
        | folder inner => exact hfile inner hchild
      refine ⟨found, ?_, fun _ h => h⟩
      rw [descend?_cons, Bindings.lookup_bind, if_neg other]
      exact hpath
  | cons first names ih =>
    obtain ⟨others, next, rfl, hnext, hfound⟩ := exists_of_descend?_cons h
    have below := ih hfound
    rw [List.cons_append, put_cons (by simp) hnext]
    intro path found hpath
    cases path with
    | nil =>
      cases hpath
      exact ⟨_, rfl, fun name hname => lookup_isSome_bind hname⟩
    | cons name rest =>
      rw [descend?_cons] at hpath ⊢
      rw [Bindings.lookup_bind]
      by_cases hname : name = first
      · rw [hname, hnext, Option.bind_some] at hpath
        rw [if_pos hname, Option.bind_some]
        exact below rest found hpath
      · rw [if_neg hname]
        exact ⟨found, hpath, fun _ h => h⟩

end Node

namespace Disk

variable {d d' : Disk} {path : List Char} {content : ByteArray}

/-- The same working folder, and folders as before or with more names. -/
structure Extends (old new : Disk) : Prop where
  cwd : new.cwd = old.cwd
  root : old.root.Extends new.root

theorem Extends.steps (h : Extends d d') (path : List Char) : d'.steps path = d.steps path := by
  unfold Disk.steps
  split
  · rfl
  · rw [h.cwd]

/-- Where a segment leads from a folder with the given entries. -/
def turn? (entries : List (String × Node)) (place : Place) (segment : List Char) : Option Place :=
  if Path.isIdle segment then some place
  else if segment = ['.', '.'] then some place.tail
  else if (entries.lookup (String.ofList segment)).isSome then
    some (String.ofList segment :: place)
  else none

/-- More names in a folder lead nowhere else. -/
theorem turn?_of_names {entries entries' : List (String × Node)} {place next : Place}
    {segment : List Char} (h : turn? entries place segment = some next)
    (hnames : ∀ name, (entries.lookup name).isSome = true → (entries'.lookup name).isSome = true) :
    turn? entries' place segment = some next := by
  rw [turn?] at h ⊢
  split at h
  next hidle => rw [if_pos hidle, h]
  next hidle =>
    rw [if_neg hidle]
    split at h
    next hup => rw [if_pos hup, h]
    next hup =>
      rw [if_neg hup]
      split at h
      next hname => rw [if_pos (hnames _ hname), h]
      next => cases h

/-- A walk takes one segment from a folder, and then the others. -/
theorem walk?_cons {place : Place} {entries : List (String × Node)}
    (hplace : d.at? place = some (.folder entries)) (segment : List Char)
    (rest : List (List Char)) :
    d.walk? place (segment :: rest) = match turn? entries place segment with
      | some next => d.walk? next rest
      | none => .error .notFound := by
  simp only [walk?, hplace, turn?]
  split
  · rfl
  split
  · rfl
  split <;> rfl

/-- A walk that succeeds is in a folder at each of its segments. -/
theorem walk?_cons_eq_ok_iff {place found : Place} {segment : List Char}
    {rest : List (List Char)} :
    d.walk? place (segment :: rest) = .ok found ↔
      ∃ entries next, d.at? place = some (.folder entries) ∧
        turn? entries place segment = some next ∧ d.walk? next rest = .ok found := by
  rcases hplace : d.at? place with _ | ⟨content | entries⟩
  · simp [walk?, hplace]
  · simp [walk?, hplace]
  · rw [walk?_cons hplace]
    cases hturn : turn? entries place segment <;> simp [hturn]

theorem walk?_of_extends (h : Extends d d') {segments : List (List Char)} {place found : Place}
    (hwalk : d.walk? place segments = .ok found) : d'.walk? place segments = .ok found := by
  induction segments generalizing place with
  | nil => exact hwalk
  | cons segment rest ih =>
    obtain ⟨entries, next, hplace, hturn, hrest⟩ := walk?_cons_eq_ok_iff.1 hwalk
    obtain ⟨entries', hplace', hnames⟩ := h.root place.reverse entries hplace
    exact walk?_cons_eq_ok_iff.2 ⟨entries', next, hplace', turn?_of_names hturn hnames, ih hrest⟩

theorem find?_of_extends (h : Extends d d') {place : Place} (hfind : d.find? path = .ok place) :
    d'.find? path = .ok place := by
  rw [find?] at hfind ⊢
  split at hfind
  · cases hfind
  next hne =>
    rw [if_neg hne, h.steps]
    exact walk?_of_extends h hfind

theorem walk?_append {segments : List (List Char)} {place middle : Place}
    (h : d.walk? place segments = .ok middle) (more : List (List Char)) :
    d.walk? place (segments ++ more) = d.walk? middle more := by
  induction segments generalizing place with
  | nil =>
    cases h
    rfl
  | cons segment rest ih =>
    obtain ⟨entries, next, hplace, hturn, hrest⟩ := walk?_cons_eq_ok_iff.1 h
    rw [List.cons_append, walk?_cons hplace, hturn]
    exact ih hrest

theorem exists_of_walk?_append {segments more : List (List Char)} {place found : Place}
    (h : d.walk? place (segments ++ more) = .ok found) :
    ∃ middle, d.walk? place segments = .ok middle ∧ d.walk? middle more = .ok found := by
  induction segments generalizing place with
  | nil => exact ⟨place, rfl, h⟩
  | cons segment rest ih =>
    obtain ⟨entries, next, hplace, hturn, hrest⟩ := walk?_cons_eq_ok_iff.1 h
    obtain ⟨middle, hmiddle, hmore⟩ := ih hrest
    exact ⟨middle, walk?_cons_eq_ok_iff.2 ⟨entries, next, hplace, hturn, hmiddle⟩, hmore⟩

/-- Where a path leads whose last segment is a name. -/
theorem find?_of_walk? {segments : List (List Char)} {last : List Char} {place : Place}
    {entries : List (String × Node)} (hne : path ≠ [])
    (hsteps : (d.steps path).2 = segments ++ [last]) (hidle : Path.isIdle last = false)
    (hup : last ≠ ['.', '.']) (hwalk : d.walk? (d.steps path).1 segments = .ok place)
    (hplace : d.at? place = some (.folder entries)) :
    d.find? path = if (entries.lookup (String.ofList last)).isSome
      then .ok (String.ofList last :: place) else .error .notFound := by
  rw [find?, if_neg (by simpa using hne), hsteps, walk?_append hwalk, walk?_cons hplace, turn?,
    if_neg (by simp [hidle]), if_neg hup]
  by_cases hname : (entries.lookup (String.ofList last)).isSome = true
  · rw [if_pos hname, if_pos hname]
    rfl
  · rw [if_neg hname, if_neg hname]

/-- What a path reads depends on where it leads and what is there. -/
theorem read_congr (hfind : d'.find? path = d.find? path)
    (hat : ∀ place, d.find? path = .ok place → d'.at? place = d.at? place) :
    d'.read path = d.read path := by
  have node : d'.node? path = d.node? path := by
    rw [node?, node?, hfind]
    rcases hplace : d.find? path with e | place
    · rfl
    · simp only [bind, Except.bind, hat place hplace]
  rw [read, read, node]

/-! ## Writing -/

/-- A file is written into a folder, under a name that no folder has. -/
theorem exists_of_write (h : d.write path content = .ok d') :
    path ≠ [] ∧ ∃ segments last place entries,
      (d.steps path).2 = segments ++ [last] ∧ Path.isIdle last = false ∧ last ≠ ['.', '.'] ∧
      d.walk? (d.steps path).1 segments = .ok place ∧ d.at? place = some (.folder entries) ∧
      (∀ inner, entries.lookup (String.ofList last) ≠ some (.folder inner)) ∧
      d' = d.put (String.ofList last :: place) (.file content) := by
  unfold write at h
  split at h
  · cases h
  next hne =>
    refine ⟨by simpa using hne, ?_⟩
    simp only at h
    split at h
    · cases h
    next last hlast =>
      split at h
      · cases hnode : d.node? path <;> simp [hnode, bind, Except.bind] at h
      next hplain =>
        cases hwalk : d.walk? (d.steps path).1 (d.steps path).2.dropLast with
        | error e => simp [hwalk, bind, Except.bind] at h
        | ok place =>
          simp only [hwalk, bind, Except.bind] at h
          split at h
          next entries hplace =>
            have hsteps : (d.steps path).2 = (d.steps path).2.dropLast ++ [last] := by
              obtain ⟨segments, hsegments⟩ := List.getLast?_eq_some_iff.1 hlast
              rw [hsegments, List.dropLast_concat]
            simp only [Bool.or_eq_true, decide_eq_true_eq, not_or, Bool.not_eq_true] at hplain
            refine ⟨_, last, place, entries, hsteps, hplain.1, hplain.2, hwalk, hplace, ?_⟩
            split at h
            · cases h
            next hfile =>
              cases h
              exact ⟨hfile, rfl⟩
          · cases h
          · cases h

theorem put_extends {place : Place} {entries : List (String × Node)} {name : String}
    (hplace : d.at? place = some (.folder entries))
    (hfile : ∀ inner, entries.lookup name ≠ some (.folder inner)) (node : Node) :
    Extends d (d.put (name :: place) node) where
  cwd := rfl
  root := by
    have root := Node.extends_put node hplace hfile
    rwa [← List.reverse_cons] at root

theorem at?_put {place : Place} {entries : List (String × Node)}
    (hplace : d.at? place = some (.folder entries)) (name : String) (node : Node) :
    (d.put (name :: place) node).at? (name :: place) = some node := by
  have found := Node.descend?_put node hplace name
  rwa [← List.reverse_cons] at found

theorem at?_put_folder {place : Place} {entries : List (String × Node)}
    (hplace : d.at? place = some (.folder entries)) (name : String) (node : Node) :
    (d.put (name :: place) node).at? place = some (.folder (Bindings.bind name node entries)) := by
  have found := Node.descend?_put_folder node hplace name
  rwa [← List.reverse_cons] at found

theorem lookup_of_at?_cons {place : Place} {entries : List (String × Node)} {name : String}
    {node : Node} (hplace : d.at? place = some (.folder entries))
    (h : d.at? (name :: place) = some node) : entries.lookup name = some node := by
  have hplace : d.root.descend? place.reverse = some (.folder entries) := hplace
  rw [at?, List.reverse_cons, Node.descend?_append, hplace, Option.bind_some,
    Node.descend?_cons] at h
  obtain ⟨next, hnext, hfound⟩ := Option.bind_eq_some_iff.1 h
  cases hfound
  exact hnext

/-- The path that was written leads to the file that was put. -/
theorem find?_of_write (h : d.write path content = .ok d') :
    ∃ place name entries, d.at? place = some (.folder entries) ∧
      (∀ inner, entries.lookup name ≠ some (.folder inner)) ∧
      d' = d.put (name :: place) (.file content) ∧ d'.find? path = .ok (name :: place) := by
  obtain ⟨hne, segments, last, place, entries, hsteps, hidle, hup, hwalk, hplace, hfile, hput⟩ :=
    exists_of_write h
  refine ⟨place, String.ofList last, entries, hplace, hfile, hput, ?_⟩
  have kept : Extends d d' := hput ▸ put_extends hplace hfile (.file content)
  have written : d'.at? (String.ofList last :: place) = some (.file content) :=
    hput ▸ at?_put hplace (String.ofList last) (.file content)
  obtain ⟨entries', hplace', -⟩ := kept.root place.reverse entries hplace
  rw [← kept.steps path] at hsteps hwalk
  rw [find?_of_walk? hne hsteps hidle hup (walk?_of_extends kept hwalk) hplace',
    lookup_of_at?_cons hplace' written]
  rfl

/-- **Writing and reading.** The path that was written leads to a file with what was written. -/
theorem read_of_write (h : d.write path content = .ok d') :
    (∃ place, d'.find? path = .ok place) ∧ d'.read path = .ok content := by
  obtain ⟨place, name, entries, hplace, -, rfl, hfind⟩ := find?_of_write h
  refine ⟨⟨_, hfind⟩, ?_⟩
  simp only [read, node?, hfind, bind, Except.bind, at?_put hplace name (.file content)]

end Disk

end ReleaseSchema
