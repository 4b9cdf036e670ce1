/-
The JSON form of columns and of what they are made of. Each record is written
from its slots, is plain, and is read back whole.
-/
import ReleaseSchema.Proofs.Json.Record
import ReleaseSchema.Proofs.SortedMap
import ReleaseSchema.Schema.Column

namespace ReleaseSchema

open Json (Slots Plain)
open Json.Slots

/-! ## Tags -/

theorem TagValue.ofJson?_toJson (value : TagValue) : ofJson? value.toJson = some value := by
  cases value <;> rfl

theorem TagValue.plain_toJson (value : TagValue) : Plain 0 value.toJson := by
  cases value with
  | flag b => exact .bool
  | text s => exact .string

namespace Tag

def slots (tag : Tag) : Slots :=
  [("name", some (.string tag.name)), ("value", some tag.value.toJson)]

theorem toJson_eq (tag : Tag) : tag.toJson = .object (members tag.slots) := rfl

theorem nodup_slots (tag : Tag) : (tag.slots.map (·.1)).Nodup := by
  simp only [slots, List.map_cons, List.map_nil]
  decide

theorem plain_toJson (tag : Tag) : Plain 1 tag.toJson := by
  rw [toJson_eq]
  refine plain_members tag.nodup_slots ?_
  simp [slots, Plain.string, tag.value.plain_toJson]

theorem ofJson?_toJson (tag : Tag) : ofJson? tag.toJson = some tag := by
  have names := tag.nodup_slots
  have value : (members tag.slots).required "value" TagValue.ofJson? = some tag.value :=
    (required_members names rfl _).trans tag.value.ofJson?_toJson
  rw [toJson_eq]
  simp only [ofJson?, fields?_members names, Option.bind_eq_bind, Option.bind_some, value]
  rw [required_members names rfl]
  rfl

theorem mapOfJson?_mapToJson (tags : TagMap) : mapOfJson? (mapToJson tags) = some tags := by
  rw [mapOfJson?, mapToJson, Json.asMembers?_map fun e _ => e.2.ofJson?_toJson, Option.map_some,
    SortedMap.ofList_entries]

theorem plain_mapToJson (tags : TagMap) : Plain 2 (mapToJson tags) := by
  refine Plain.object ?_ fun member hmember => ?_
  · rw [List.map_map]
    exact tags.nodup_keys
  · obtain ⟨⟨name, tag⟩, -, rfl⟩ := List.mem_map.1 hmember
    exact tag.plain_toJson

end Tag

/-! ## Foreign keys -/

namespace ForeignKey

def slots (key : ForeignKey) : Slots :=
  [("table", some (.string key.table)), ("key", some (.string key.key))]

theorem toJson_eq (key : ForeignKey) : key.toJson = .object (members key.slots) := rfl

theorem nodup_slots (key : ForeignKey) : (key.slots.map (·.1)).Nodup := by
  simp only [slots, List.map_cons, List.map_nil]
  decide

theorem plain_toJson (key : ForeignKey) : Plain 1 key.toJson := by
  rw [toJson_eq]
  refine plain_members key.nodup_slots ?_
  simp [slots, Plain.string]

theorem ofJson?_toJson (key : ForeignKey) : ofJson? key.toJson = some key := by
  have names := key.nodup_slots
  rw [toJson_eq]
  simp only [ofJson?, fields?_members names, Option.bind_eq_bind, Option.bind_some]
  repeat rw [required_members names rfl]
  rfl

end ForeignKey

/-! ## Columns -/

namespace Column

def slots (c : Column) : Slots :=
  [("name", some (.string c.name)), ("camelCasedName", some (.string c.camelName)),
    ("type", some (.string c.type)), ("notNull", some (.bool c.notNull)),
    ("unique", some (.bool c.unique)), ("default", c.defaultText.map .string),
    ("defaultValue", c.defaultValue.map .string), ("isPrimaryKey", some (.bool c.isPrimaryKey)),
    ("isForeignKey", some (.bool c.isForeignKey)),
    ("foreignKey", c.foreignKey.map ForeignKey.toJson), ("tags", some (Tag.mapToJson c.tags)),
    ("toUpdate", some (.bool c.toUpdate)), ("isListFilter", some (.bool c.isListFilter)),
    ("listFilterName", c.listFilterName.map .string),
    ("retrieveInList", some (.bool c.retrieveInList)), ("sort", some (.bool c.sort)),
    ("getWithParent", some (.bool c.getWithParent))]

theorem toJson_eq (c : Column) : c.toJson = .object (members c.slots) := by
  simp [toJson, slots, members, Json.optionalMember]

theorem nodup_slots (c : Column) : (c.slots.map (·.1)).Nodup := by
  simp only [slots, List.map_cons, List.map_nil]
  decide

theorem plain_toJson (c : Column) : Plain 3 c.toJson := by
  have key : ∀ key : ForeignKey, Plain 2 key.toJson := fun key => key.plain_toJson.mono (by decide)
  rw [toJson_eq]
  refine plain_members c.nodup_slots ?_
  simp [slots, Plain.string, Plain.bool, key, Tag.plain_mapToJson]

theorem ofJson?_toJson (c : Column) : ofJson? c.toJson = some c := by
  have names := c.nodup_slots
  have defaultText : (members c.slots).optional "default" Json.asString? = some c.defaultText :=
    optional_members names rfl (fun _ => Json.noConfusion) fun _ _ => rfl
  have defaultValue : (members c.slots).optional "defaultValue" Json.asString? =
      some c.defaultValue :=
    optional_members names rfl (fun _ => Json.noConfusion) fun _ _ => rfl
  have foreignKey : (members c.slots).optional "foreignKey" ForeignKey.ofJson? =
      some c.foreignKey :=
    optional_members names rfl (fun _ => Json.noConfusion) fun key _ => key.ofJson?_toJson
  have listFilterName : (members c.slots).optional "listFilterName" Json.asString? =
      some c.listFilterName :=
    optional_members names rfl (fun _ => Json.noConfusion) fun _ _ => rfl
  have tags : (members c.slots).withDefault "tags" .empty Tag.mapOfJson? = some c.tags :=
    (withDefault_members names rfl _ _).trans (Tag.mapOfJson?_mapToJson c.tags)
  rw [toJson_eq]
  unfold ofJson?
  rw [fields?_members names, Option.bind_eq_bind, Option.bind_some, defaultText, defaultValue,
    foreignKey, listFilterName, tags]
  repeat rw [required_members names rfl]
  rfl

end Column

end ReleaseSchema
