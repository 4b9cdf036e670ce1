/-
The JSON form of histories. A history is written in front of the record that
contains it, and is read out of that record (`History.ofFields?_members`).
-/
import ReleaseSchema.Proofs.Json.Record
import ReleaseSchema.Schema.History

namespace ReleaseSchema

open Json (Slots Plain)
open Json.Slots

namespace Revision

def slots (r : Revision) : Slots :=
  [("version", some (.string r.version)), ("file", some (.string r.file))]

theorem toJson_eq (r : Revision) : r.toJson = .object (members r.slots) := rfl

theorem nodup_slots (r : Revision) : (r.slots.map (·.1)).Nodup := by
  simp only [slots, List.map_cons, List.map_nil]
  decide

theorem plain_toJson (r : Revision) : Plain 1 r.toJson := by
  rw [toJson_eq]
  refine plain_members r.nodup_slots ?_
  simp [slots, Plain.string]

theorem ofJson?_toJson (r : Revision) : ofJson? r.toJson = some r := by
  have names := r.nodup_slots
  rw [toJson_eq]
  simp only [ofJson?, fields?_members names, Option.bind_eq_bind, Option.bind_some]
  repeat rw [required_members names rfl]
  rfl

end Revision

namespace History

def slots (h : History) : Slots :=
  [("name", some (.string h.name)), ("latestVersion", some (.string h.latestVersion)),
    ("latestFile", some (.string h.latestFile)),
    ("versions", some (.array (h.revisions.map Revision.toJson)))]

theorem members_append (h : History) (slots : Slots) :
    members (h.slots ++ slots) = h.toMembers ++ members slots := by
  rw [members, List.flatMap_append]
  rfl

theorem toJson_eq (h : History) : h.toJson = .object (members h.slots) := rfl

theorem nodup_slots (h : History) : (h.slots.map (·.1)).Nodup := by
  simp only [slots, List.map_cons, List.map_nil]
  decide

theorem plain_slots (h : History) : ∀ slot ∈ h.slots, ∀ json ∈ slot.2, Plain 2 json := by
  have revisions : Plain 2 (.array (h.revisions.map Revision.toJson)) := by
    refine .array fun item hitem => ?_
    obtain ⟨r, -, rfl⟩ := List.mem_map.1 hitem
    exact r.plain_toJson
  simp [slots, Plain.string, revisions]

theorem plain_toJson (h : History) : Plain 3 h.toJson := by
  rw [toJson_eq]
  exact plain_members h.nodup_slots h.plain_slots

theorem ofFields?_members (h : History) {slots : Slots}
    (names : ((h.slots ++ slots).map (·.1)).Nodup) :
    ofFields? (members (h.slots ++ slots)) = some h := by
  have revisions : (members (h.slots ++ slots)).required "versions"
      (Json.asList? Revision.ofJson?) = some h.revisions :=
    (required_members names rfl _).trans (Json.asList?_map fun r _ => r.ofJson?_toJson)
  simp only [ofFields?, revisions, Option.bind_eq_bind]
  repeat rw [required_members names rfl]
  rfl

theorem ofJson?_toJson (h : History) : ofJson? h.toJson = some h := by
  have read : ofFields? (members (h.slots ++ [])) = some h :=
    h.ofFields?_members (by simpa using h.nodup_slots)
  rw [List.append_nil] at read
  rw [toJson_eq, ofJson?, fields?_members h.nodup_slots]
  exact read

end History

end ReleaseSchema
