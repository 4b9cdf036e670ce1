/-
The JSON form of entries. Nothing marks which form an entry has, so the reader
tries them in turn; an entry of a later form lacks a field that the earlier ones
need (`Entry.ofJson?_toJson`). Saving changes an entry in nothing but the
repeated columns of a table (`Entry.distinct_toJson`).
-/
import ReleaseSchema.Proofs.Schema.Routine
import ReleaseSchema.Proofs.Schema.Table
import ReleaseSchema.Schema.Entry

namespace ReleaseSchema

open Json (Slots Plain Fits)
open Json.Slots

/-! ## Data scripts -/

namespace DataScript

def ownSlots (d : DataScript) : Slots := [("targetTables", some (.array (d.targets.map .string)))]

def slots (d : DataScript) : Slots := d.history.slots ++ d.ownSlots

theorem toJson_eq (d : DataScript) : d.toJson = .object (members d.slots) := by
  rw [slots, History.members_append]
  rfl

theorem nodup_slots (d : DataScript) : (d.slots.map (·.1)).Nodup := by
  simp only [slots, History.slots, ownSlots, List.map_append, List.map_cons, List.map_nil]
  decide

theorem plain_strings (texts : List String) : Plain 1 (.array (texts.map .string)) := by
  refine .array fun item hitem => ?_
  obtain ⟨s, -, rfl⟩ := List.mem_map.1 hitem
  exact .string

theorem plain_toJson (d : DataScript) : Plain 3 d.toJson := by
  rw [toJson_eq]
  refine plain_members d.nodup_slots (List.forall_mem_append.2 ⟨d.history.plain_slots, ?_⟩)
  simp [ownSlots, (plain_strings d.targets).mono (show 1 ≤ 2 by decide)]

theorem ofJson?_toJson (d : DataScript) : ofJson? d.toJson = some d := by
  have names := d.nodup_slots
  have fits := d.plain_toJson.fits
  rw [toJson_eq] at fits ⊢
  have history : History.ofFields? (members d.slots) = some d.history :=
    d.history.ofFields?_members names
  have targets : (members d.slots).required "targetTables" (Json.asList? Json.asString?) =
      some d.targets :=
    (required_members names rfl _).trans (Json.asList?_map fun s _ => rfl)
  simp only [ofJson?, openFields?_members names fits, Option.bind_eq_bind, Option.bind_some,
    history, targets]
  rfl

end DataScript

/-! ## Entries -/

section Forms

variable {h : History} {slots : Slots} {depth : Nat}

/-- What has no columns of its own is no table. -/
theorem Table.ofJson?_of_missing (names : ((h.slots ++ slots).map (·.1)).Nodup)
    (fits : Fits depth (.object (members (h.slots ++ slots))))
    (missing : (h.slots ++ slots).lookup "fields" = none) :
    Table.ofJson? (.object (members (h.slots ++ slots))) = none := by
  simp only [Table.ofJson?, openFields?_members names fits, Option.bind_eq_bind, Option.bind_some,
    h.ofFields?_members names, required_of_missing names missing]
  rfl

/-- What has no prefix is no routine. -/
theorem Routine.ofJson?_of_missing (names : ((h.slots ++ slots).map (·.1)).Nodup)
    (fits : Fits depth (.object (members (h.slots ++ slots))))
    (missing : (h.slots ++ slots).lookup "dbPrefix" = none) :
    Routine.ofJson? (.object (members (h.slots ++ slots))) = none := by
  simp only [Routine.ofJson?, openFields?_members names fits, Option.bind_eq_bind,
    Option.bind_some, h.ofFields?_members names, required_of_missing names missing]
  rfl

/-- What has no targets is no data script. -/
theorem DataScript.ofJson?_of_missing (names : ((h.slots ++ slots).map (·.1)).Nodup)
    (fits : Fits depth (.object (members (h.slots ++ slots))))
    (missing : (h.slots ++ slots).lookup "targetTables" = none) :
    DataScript.ofJson? (.object (members (h.slots ++ slots))) = none := by
  simp only [DataScript.ofJson?, openFields?_members names fits, Option.bind_eq_bind,
    Option.bind_some, h.ofFields?_members names, required_of_missing names missing]
  rfl

end Forms

namespace Entry

/-- The entry as it is saved. -/
def collapsed : Entry → Entry
  | .table t => .table t.collapsed
  | e => e

/-- No two columns of a table have one name. -/
def HasDistinctColumns : Entry → Prop
  | .table t => t.HasDistinctColumns
  | _ => True

instance : (e : Entry) → Decidable e.HasDistinctColumns
  | .table t => inferInstanceAs (Decidable t.HasDistinctColumns)
  | .routine _ | .data _ | .plain _ => isTrue trivial

/-- What a routine returns is read back as it is written. -/
def ReadsBack : Entry → Prop
  | .routine r => r.returnType.ReadsBack
  | _ => True

theorem collapsed_eq_self_iff (e : Entry) : e.collapsed = e ↔ e.HasDistinctColumns := by
  cases e with
  | table t =>
    rw [collapsed, table.injEq]
    exact t.collapsed_eq_self_iff
  | routine r => exact ⟨fun _ => trivial, fun _ => rfl⟩
  | data d => exact ⟨fun _ => trivial, fun _ => rfl⟩
  | plain h => exact ⟨fun _ => trivial, fun _ => rfl⟩

theorem ReadsBack.collapsed {e : Entry} (h : e.ReadsBack) : e.collapsed.ReadsBack := by
  cases e <;> exact h

theorem fits_toJson (e : Entry) : Fits 5 e.toJson := by
  cases e with
  | table t => exact t.fits_toJson
  | routine r => exact r.plain_toJson.fits
  | data d => exact d.plain_toJson.fits.mono (by decide)
  | plain h => exact h.plain_toJson.fits.mono (by decide)

theorem distinct_toJson (e : Entry) : e.toJson.distinct = e.collapsed.toJson := by
  cases e with
  | table t => exact t.distinct_toJson
  | routine r => exact r.plain_toJson.distinct
  | data d => exact d.plain_toJson.distinct
  | plain h => exact h.plain_toJson.distinct

/-- An entry is read back in its own form, since the forms that are tried before lack a field. -/
theorem ofJson?_toJson {e : Entry} (back : e.ReadsBack) : ofJson? e.toJson = some e := by
  rw [ofJson?, if_pos e.fits_toJson.isReadable]
  cases e with
  | table t =>
    rw [toJson, t.ofJson?_toJson]
    rfl
  | routine r =>
    have noTable : Table.ofJson? r.toJson = none := by
      rw [r.toJson_eq]
      exact Table.ofJson?_of_missing r.nodup_slots (r.toJson_eq ▸ r.plain_toJson.fits) rfl
    rw [toJson, noTable, Routine.ofJson?_toJson back]
    rfl
  | data d =>
    have fits := d.plain_toJson.fits
    rw [d.toJson_eq] at fits
    have noTable : Table.ofJson? d.toJson = none := by
      rw [d.toJson_eq]
      exact Table.ofJson?_of_missing d.nodup_slots fits rfl
    have noRoutine : Routine.ofJson? d.toJson = none := by
      rw [d.toJson_eq]
      exact Routine.ofJson?_of_missing d.nodup_slots fits rfl
    rw [toJson, noTable, noRoutine, d.ofJson?_toJson]
    rfl
  | plain h =>
    have names : ((h.slots ++ ([] : Slots)).map (·.1)).Nodup := by simpa using h.nodup_slots
    have fits := h.plain_toJson.fits
    rw [h.toJson_eq, ← List.append_nil h.slots] at fits
    have noTable := Table.ofJson?_of_missing names fits rfl
    have noRoutine := Routine.ofJson?_of_missing names fits rfl
    have noData := DataScript.ofJson?_of_missing names fits rfl
    rw [List.append_nil, ← h.toJson_eq] at noTable noRoutine noData
    rw [toJson, noTable, noRoutine, noData, h.ofJson?_toJson]
    rfl

theorem readsBack_of_ofJson? {json : Json} {e : Entry} (h : ofJson? json = some e) :
    e.ReadsBack := by
  rw [ofJson?] at h
  split at h
  · simp only [Option.orElse_eq_orElse, Option.orElse_eq_or, Option.or_eq_some_iff,
      Option.map_eq_some_iff] at h
    rcases h with ⟨t, -, rfl⟩ | ⟨-, ⟨r, hr, rfl⟩ | ⟨-, ⟨d, -, rfl⟩ | ⟨-, p, -, rfl⟩⟩⟩
    · trivial
    · exact Routine.readsBack_of_ofJson? hr
    · trivial
    · trivial
  · cases h

end Entry

end ReleaseSchema
