/-
The JSON form of manifests. What a manifest says of other applications is kept
as it is written, so a manifest is read back when that can be written again and
is not `null` (`Manifest.ofJson?_toJson`), which is so for every manifest that
was read from a text and is not nested too deep (`Manifest.isPlain_of_ofText?`).
-/
import ReleaseSchema.Proofs.Json.Record
import ReleaseSchema.Proofs.Schema.Catalog
import ReleaseSchema.Release.Manifest

namespace ReleaseSchema

open Json (Slots Plain Fits)
open Json.Slots

theorem Kind.ofJson?_toJson (kind : Kind) : ofJson? kind.toJson = some kind := kind.ofName?_name

namespace ReleaseFile

def slots (f : ReleaseFile) : Slots :=
  [("type", some f.kind.toJson), ("name", some (.string f.name)), ("file", some (.string f.file))]

theorem toJson_eq (f : ReleaseFile) : f.toJson = .object (members f.slots) := rfl

theorem nodup_slots (f : ReleaseFile) : (f.slots.map (·.1)).Nodup := by
  simp only [slots, List.map_cons, List.map_nil]
  decide

theorem plain_toJson (f : ReleaseFile) : Plain 1 f.toJson := by
  rw [toJson_eq]
  refine plain_members f.nodup_slots ?_
  simp [slots, Plain.string, Kind.toJson]

theorem ofJson?_toJson (f : ReleaseFile) : ofJson? f.toJson = some f := by
  have names := f.nodup_slots
  have kind : (members f.slots).required "type" Kind.ofJson? = some f.kind :=
    (required_members names rfl _).trans f.kind.ofJson?_toJson
  rw [toJson_eq]
  simp only [ofJson?, fields?_members names, Option.bind_eq_bind, Option.bind_some, kind]
  repeat rw [required_members names rfl]
  rfl

end ReleaseFile

variable {depth : Nat}

/-! ## Steps -/

namespace InstallStep

def slots (s : InstallStep) : Slots :=
  [("userToUse", some (.string s.user)), ("databaseToUse", some (.string s.database)),
    ("dependencies", s.dependencies), ("fileList", some (.array (s.fileList.map .string))),
    ("files", some (.array (s.files.map ReleaseFile.toJson)))]

/-- What is said of other applications can be written, and is something. -/
def IsPlain (depth : Nat) (s : InstallStep) : Prop :=
  ∀ json ∈ s.dependencies, Plain depth json ∧ json ≠ .null

theorem toJson_eq (s : InstallStep) : s.toJson = .object (members s.slots) := by
  simp [toJson, slots, members, Json.optionalMember]

theorem nodup_slots (s : InstallStep) : (s.slots.map (·.1)).Nodup := by
  simp only [slots, List.map_cons, List.map_nil]
  decide

theorem plain_toJson {s : InstallStep} (h : s.IsPlain depth) : Plain (depth + 3) s.toJson := by
  have files : Plain (depth + 2) (.array (s.files.map ReleaseFile.toJson)) := by
    refine .array fun item hitem => ?_
    obtain ⟨f, -, rfl⟩ := List.mem_map.1 hitem
    exact f.plain_toJson.mono (by omega)
  have fileList : Plain (depth + 2) (.array (s.fileList.map .string)) :=
    (DataScript.plain_strings s.fileList).mono (by omega)
  have dependencies : ∀ json ∈ s.dependencies, Plain (depth + 2) json := by
    intro json hjson
    exact (h json hjson).1.mono (by omega)
  rw [toJson_eq]
  refine plain_members s.nodup_slots ?_
  simpa [slots, Plain.string, files, fileList] using dependencies

theorem ofJson?_toJson {s : InstallStep} (h : s.IsPlain depth) : ofJson? s.toJson = some s := by
  have names := s.nodup_slots
  have dependencies : (members s.slots).optional "dependencies" Json.value? =
      some s.dependencies := by
    have slot : s.slots.lookup "dependencies" = some s.dependencies := rfl
    rw [Json.Fields.optional, Json.Fields.withDefault, lookup_members names, slot]
    cases hjson : s.dependencies with
    | none => rfl
    | some json =>
      obtain ⟨plain, hne⟩ := h json hjson
      have value : Json.value? json = some json := by
        rw [Json.value?, if_pos plain.fits.isReadable, plain.distinct]
      show Json.asOption? Json.value? json = some (some json)
      rw [Json.asOption?_of_ne_null hne, value, Option.map_some]
  have fileList : (members s.slots).withDefault "fileList" [] (Json.asList? Json.asString?) =
      some s.fileList :=
    (withDefault_members names rfl _ _).trans (Json.asList?_map fun s _ => rfl)
  have files : (members s.slots).withDefault "files" [] (Json.asList? ReleaseFile.ofJson?) =
      some s.files :=
    (withDefault_members names rfl _ _).trans (Json.asList?_map fun f _ => f.ofJson?_toJson)
  rw [toJson_eq]
  simp only [ofJson?, fields?_members names, Option.bind_eq_bind, Option.bind_some, dependencies,
    fileList, files]
  repeat rw [withDefault_members names rfl]
  rfl

/-- What was read is plain as far as it is not nested too deep. -/
theorem isPlain_of_ofJson? {json : Json} {s : InstallStep} (h : ofJson? json = some s)
    (fits : ∀ json ∈ s.dependencies, Fits depth json) : s.IsPlain depth := by
  simp only [ofJson?, Option.bind_eq_bind, Option.bind_eq_some_iff, Option.pure_def,
    Option.some.injEq] at h
  obtain ⟨fields, -, user, -, database, -, dependencies, hread, fileList, -, files, -, rfl⟩ := h
  intro value hvalue
  obtain ⟨written, hne, hvalue'⟩ := Json.Fields.exists_of_optional hread hvalue
  rw [Json.value?] at hvalue'
  split at hvalue'
  · cases hvalue'
    refine ⟨⟨fits _ hvalue, Json.distinct_distinct written⟩, fun hnull => hne ?_⟩
    cases written with
    | null => rfl
    | _ => simp [Json.distinct] at hnull
  · cases hvalue'

end InstallStep

/-! ## Manifests -/

namespace Manifest

def slots (m : Manifest) : Slots :=
  [("fileName", some (.string m.fileName)), ("versionName", some (.string m.versionName)),
    ("versions", some (.array (m.steps.map InstallStep.toJson)))]

/-- What the steps say of other applications can be written. -/
def IsPlain (depth : Nat) (m : Manifest) : Prop := ∀ step ∈ m.steps, step.IsPlain depth

theorem toJson_eq (m : Manifest) : m.toJson = .object (members m.slots) := rfl

theorem nodup_slots (m : Manifest) : (m.slots.map (·.1)).Nodup := by
  simp only [slots, List.map_cons, List.map_nil]
  decide

theorem plain_toJson {m : Manifest} (h : m.IsPlain depth) : Plain (depth + 5) m.toJson := by
  have steps : Plain (depth + 4) (.array (m.steps.map InstallStep.toJson)) := by
    refine .array fun item hitem => ?_
    obtain ⟨step, hstep, rfl⟩ := List.mem_map.1 hitem
    exact InstallStep.plain_toJson (h step hstep)
  rw [toJson_eq]
  refine plain_members m.nodup_slots ?_
  simp [slots, Plain.string, steps]

theorem ofJson?_toJson {m : Manifest} (h : m.IsPlain depth) : ofJson? m.toJson = some m := by
  have names := m.nodup_slots
  have steps : (members m.slots).required "versions" (Json.asList? InstallStep.ofJson?) =
      some m.steps :=
    (required_members names rfl _).trans
      (Json.asList?_map fun step hstep => InstallStep.ofJson?_toJson (h step hstep))
  rw [toJson_eq]
  simp only [ofJson?, fields?_members names, Option.bind_eq_bind, Option.bind_some, steps]
  repeat rw [required_members names rfl]
  rfl

theorem isPlain_of_ofText? {path : List Char} {text : String} {m : Manifest}
    (h : ofText? path text = some m)
    (fits : ∀ step ∈ m.steps, ∀ json ∈ step.dependencies, Fits depth json) : m.IsPlain depth := by
  simp only [ofText?, Option.bind_eq_bind, Option.bind_eq_some_iff, Option.pure_def,
    Option.some.injEq] at h
  obtain ⟨json, -, steps, hsteps, rfl⟩ := h
  intro step hstep
  obtain ⟨read, hread, rfl⟩ := List.mem_map.1 hstep
  cases json with
  | array items =>
    obtain ⟨item, -, hitem⟩ := Traverse.exists_of_mem_mapM hsteps hread
    have dependencies := fits _ hstep
    have plain : read.IsPlain depth := InstallStep.isPlain_of_ofJson? hitem dependencies
    exact plain
  | _ => cases hsteps

end Manifest

end ReleaseSchema
