/-
What the program's operations answer on a disk, and the disk they leave. An
operation in steps is run step by step (`Disk.run_bind`), and one that fails has
failed in one of them (`Disk.cases_of_run_bind`).

Operations that only read leave every disk as it is (`Disk.ReadsOnly`), and so
answer for each of a list as they would alone (`ReadsOnly.run_mapM`).
-/
import ReleaseSchema.Disk
import ReleaseSchema.Failure
import ReleaseSchema.Proofs.Text.Utf8

namespace ReleaseSchema.Disk

/-- What an operation answers on a disk, and the disk behind it. -/
def run (d : Disk) (x : ExceptT Failure (StateM Disk) α) : Except Failure α × Disk :=
  StateT.run (ExceptT.run x) d

/-- The text in a file. -/
def text (d : Disk) (path : String) : Except FileError String :=
  match d.read path.toList with
  | .error e => .error e
  | .ok bytes =>
    match String.fromUTF8? bytes with
    | some text => .ok text
    | none => .error .invalidData

variable {α β : Type} {d d' : Disk}

theorem text_of_read {path content : String} (h : d.read path.toList = .ok content.toUTF8) :
    d.text path = .ok content := by
  have decoded : String.fromUTF8? content.toUTF8 = some content :=
    Text.fromUTF8?_eq_some_iff.2 rfl
  simp only [text, h, decoded]

theorem run_pure (a : α) : d.run (pure a) = (.ok a, d) := rfl

theorem run_throw (e : Failure) :
    d.run (throw e : ExceptT Failure (StateM Disk) α) = (.error e, d) := rfl

theorem run_bind (x : ExceptT Failure (StateM Disk) α) (f : α → ExceptT Failure (StateM Disk) β) :
    d.run (x >>= f) = match d.run x with
      | (.ok a, next) => next.run (f a)
      | (.error e, next) => (.error e, next) := by
  unfold run
  rw [ExceptT.run_bind, StateT.run_bind]
  show (match StateT.run (ExceptT.run x) d with | (answer, next) => _) = _
  rcases StateT.run (ExceptT.run x) d with ⟨a | e, next⟩
  · rfl
  · rfl

theorem run_bind_of_ok {x : ExceptT Failure (StateM Disk) α} {a : α} (h : d.run x = (.ok a, d'))
    (f : α → ExceptT Failure (StateM Disk) β) : d.run (x >>= f) = d'.run (f a) := by
  rw [run_bind, h]

/-- Steps fail in the first of them, or behind it. -/
theorem cases_of_run_bind {x : ExceptT Failure (StateM Disk) α}
    {f : α → ExceptT Failure (StateM Disk) β} {e : Failure}
    (h : d.run (x >>= f) = (.error e, d')) :
    d.run x = (.error e, d') ∨ ∃ a next, d.run x = (.ok a, next) ∧ next.run (f a) = (.error e, d') := by
  rw [run_bind] at h
  rcases hx : d.run x with ⟨e' | a, next⟩
  · simp only [hx, Prod.mk.injEq, Except.error.injEq] at h
    obtain ⟨rfl, rfl⟩ := h
    exact .inl rfl
  · rw [hx] at h
    exact .inr ⟨a, next, rfl, h⟩

/-- What is kept of a list by an operation that reads the disk and leaves it as it is. -/
theorem run_filterM {p : α → ExceptT Failure (StateM Disk) Bool} {kept : α → Bool}
    (h : ∀ a, d.run (p a) = (.ok (kept a), d)) (l : List α) :
    d.run (l.filterM p) = (.ok (l.filter kept), d) := by
  have passed : ∀ found : List α,
      d.run (List.filterAuxM p l found) = (.ok ((l.filter kept).reverse ++ found), d) := by
    induction l with
    | nil => exact fun found => rfl
    | cons a rest ih =>
      intro found
      rw [List.filterAuxM, run_bind_of_ok (h a), ih, List.filter_cons]
      cases kept a <;> simp
  rw [List.filterM, run_bind_of_ok (passed []), List.append_nil, List.reverse_reverse, run_pure]

theorem run_exists? (path : String) :
    d.run (FileSystem.exists? path) = (.ok (d.find? path.toList).toOption.isSome, d) := rfl

theorem run_isFolder (path : String) :
    d.run (FileSystem.isFolder path) = (.ok (d.isFolder path.toList), d) := rfl

theorem run_folders (path : String) :
    d.run (FileSystem.folders path) = (.ok (d.names (·.isFolder) path.toList), d) := rfl

theorem run_files (path : String) :
    d.run (FileSystem.files path) = (.ok (d.names (!·.isFolder) path.toList), d) := rfl

theorem run_read (path : String) : d.run (FileSystem.read path) = (.ok (d.read path.toList), d) :=
  rfl

theorem run_readText (path : String) :
    d.run (FileSystem.readText path) = (.ok (d.text path), d) := by
  unfold FileSystem.readText text
  rw [run_bind_of_ok (run_read path)]
  rcases d.read path.toList with e | bytes
  · exact run_pure _
  · simp only
    rcases String.fromUTF8? bytes with _ | text
    · exact run_pure _
    · exact run_pure _

theorem run_write (path : String) (content : ByteArray) :
    d.run (FileSystem.write path content) = match d.write path.toList content with
      | .ok next => (.ok (.ok ()), next)
      | .error e => (.ok (.error e), d) := by
  show (match (match d.write path.toList content with
    | .ok next => ((.ok (), next) : Except FileError Unit × Disk)
    | .error e => (.error e, d)) with | (answer, next) => (Except.ok answer, next)) = _
  rcases d.write path.toList content with e | next
  · rfl
  · rfl

theorem run_makeFolders (path : String) :
    d.run (FileSystem.makeFolders path) =
      (.ok (d.makeFolders path.toList).1, (d.makeFolders path.toList).2) := rfl

/-! ## Operations that only read -/

/-- The operation leaves every disk as it is. -/
def ReadsOnly (x : ExceptT Failure (StateM Disk) α) : Prop := ∀ d : Disk, (d.run x).2 = d

namespace ReadsOnly

theorem pure (a : α) : ReadsOnly (Pure.pure a) := fun _ => rfl

theorem throw (e : Failure) : ReadsOnly (MonadExcept.throw e : ExceptT Failure (StateM Disk) α) :=
  fun _ => rfl

theorem bind {x : ExceptT Failure (StateM Disk) α} {f : α → ExceptT Failure (StateM Disk) β}
    (hx : ReadsOnly x) (hf : ∀ a, ReadsOnly (f a)) : ReadsOnly (x >>= f) := by
  intro d
  have kept := hx d
  rw [run_bind]
  rcases h : d.run x with ⟨e | a, next⟩
  · rw [h] at kept
    exact kept
  · rw [h] at kept
    rw [show next = d from kept]
    exact hf a d

theorem mapM {f : α → ExceptT Failure (StateM Disk) β} (h : ∀ a, ReadsOnly (f a)) (l : List α) :
    ReadsOnly (l.mapM f) := by
  induction l with
  | nil => exact .pure _
  | cons a l ih =>
    rw [List.mapM_cons]
    exact (h a).bind fun _ => ih.bind fun _ => .pure _

theorem filterM {p : α → ExceptT Failure (StateM Disk) Bool} (h : ∀ a, ReadsOnly (p a))
    (l : List α) : ReadsOnly (l.filterM p) := by
  have kept : ∀ found : List α, ReadsOnly (List.filterAuxM p l found) := by
    induction l with
    | nil => exact fun found => .pure _
    | cons a l ih => exact fun found => (h a).bind fun _ => ih _
  exact (kept []).bind fun _ => .pure _

theorem isFolder (path : String) : ReadsOnly (FileSystem.isFolder path) := fun _ => rfl

theorem folders (path : String) : ReadsOnly (FileSystem.folders path) := fun _ => rfl

theorem files (path : String) : ReadsOnly (FileSystem.files path) := fun _ => rfl

theorem resolve? (path : String) : ReadsOnly (FileSystem.resolve? path) := fun _ => rfl

theorem read (path : String) : ReadsOnly (FileSystem.read path) := fun _ => rfl

theorem readText (path : String) : ReadsOnly (FileSystem.readText path) := by
  intro d
  rw [run_readText]

theorem eq_of_run {x : ExceptT Failure (StateM Disk) α} (h : ReadsOnly x)
    {answer : Except Failure α} (hrun : d.run x = (answer, d')) : d' = d := by
  have kept := h d
  rw [hrun] at kept
  exact kept

theorem run_eq {x : ExceptT Failure (StateM Disk) α} (h : ReadsOnly x) (d : Disk) :
    d.run x = ((d.run x).1, d) :=
  Prod.ext rfl (h d)

/-- An operation that only reads answers for each of a list on the same disk. -/
theorem run_mapM {f : α → ExceptT Failure (StateM Disk) β} (h : ∀ a, ReadsOnly (f a))
    (l : List α) : d.run (l.mapM f) = (l.mapM fun a => (d.run (f a)).1, d) := by
  induction l with
  | nil => rfl
  | cons a rest ih =>
    rw [List.mapM_cons, List.mapM_cons, run_bind, (h a).run_eq]
    cases (d.run (f a)).1 with
    | error e => rfl
    | ok b =>
      simp only [run_bind, ih]
      cases rest.mapM fun a => (d.run (f a)).1 <;> rfl

end ReadsOnly

end ReleaseSchema.Disk
