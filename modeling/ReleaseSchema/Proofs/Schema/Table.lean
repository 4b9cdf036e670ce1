/-
The JSON form of tables. It is read back whole (`Table.ofJson?_toJson`), but in
a saved value each name of an object occurs once. The columns are members of an
object, so of several columns with one name the last is kept, in the place of
the first (`Table.collapsed`); nothing else changes (`Table.distinct_toJson`).
-/
import ReleaseSchema.Proofs.Schema.Column
import ReleaseSchema.Proofs.Schema.History
import ReleaseSchema.Schema.Table

namespace ReleaseSchema

open Json (Slots Plain Fits)
open Json.Slots

namespace Table

/-- The columns as a member of an object each. -/
def columnsJson (columns : List Column) : Json := .object (columns.map fun c => (c.name, c.toJson))

def ownSlots (t : Table) : Slots :=
  [("fields", some (columnsJson t.columns)), ("tableSuffix", some (.string t.suffix)),
    ("dbPrefix", some (.string t.dbPrefix)), ("camelCasedName", some (.string t.camelName)),
    ("tags", some (Tag.mapToJson t.tags)), ("primaryKey", t.primaryKey.map .string)]

def slots (t : Table) : Slots := t.history.slots ++ t.ownSlots

theorem toJson_eq (t : Table) : t.toJson = .object (members t.slots) := by
  rw [slots, History.members_append]
  simp [toJson, ownSlots, members, Json.optionalMember, columnsJson]

theorem nodup_slots (t : Table) : (t.slots.map (·.1)).Nodup := by
  simp only [slots, History.slots, ownSlots, List.map_append, List.map_cons, List.map_nil]
  decide

theorem columnsJson_eq (columns : List Column) :
    columnsJson columns =
      .object ((columns.map fun c => (c.name, c)).map fun e => (e.1, e.2.toJson)) := by
  rw [List.map_map]
  rfl

theorem columnsOfJson?_columnsJson (columns : List Column) :
    columnsOfJson? (columnsJson columns) = some columns := by
  rw [columnsJson_eq, columnsOfJson?, Json.asMembers?_map fun e _ => e.2.ofJson?_toJson,
    Option.map_some, List.map_map]
  exact congrArg some (List.map_id _)

theorem fits_columnsJson (columns : List Column) : Fits 4 (columnsJson columns) := by
  refine .object fun member hmember => ?_
  obtain ⟨c, -, rfl⟩ := List.mem_map.1 hmember
  exact c.plain_toJson.fits

theorem fits_toJson (t : Table) : Fits 5 t.toJson := by
  have tags := (Tag.plain_mapToJson t.tags).fits.mono (show 2 ≤ 4 by decide)
  rw [toJson_eq]
  refine fits_members (List.forall_mem_append.2 ⟨fun slot hslot json hjson => ?_, ?_⟩)
  · exact (t.history.plain_slots slot hslot json hjson).fits.mono (by decide)
  · simp [ownSlots, Fits.string, tags, fits_columnsJson]

theorem ofJson?_toJson (t : Table) : ofJson? t.toJson = some t := by
  have names := t.nodup_slots
  have fits := t.fits_toJson
  rw [toJson_eq] at fits ⊢
  have history : History.ofFields? (members t.slots) = some t.history :=
    t.history.ofFields?_members names
  have columns : (members t.slots).required "fields" columnsOfJson? = some t.columns :=
    (required_members names rfl _).trans (columnsOfJson?_columnsJson t.columns)
  have tags : (members t.slots).withDefault "tags" .empty Tag.mapOfJson? = some t.tags :=
    (withDefault_members names rfl _ _).trans (Tag.mapOfJson?_mapToJson t.tags)
  have primaryKey : (members t.slots).optional "primaryKey" Json.asString? = some t.primaryKey :=
    optional_members names rfl (fun _ => Json.noConfusion) fun _ _ => rfl
  simp only [ofJson?, openFields?_members names fits, Option.bind_eq_bind, Option.bind_some,
    history, columns, tags, primaryKey]
  repeat rw [required_members names rfl]
  rfl

/-! ## Columns of one name -/

/-- The table as it is saved: of columns with one name the last, in the place of the first. -/
def collapsed (t : Table) : Table :=
  { t with columns := (Bindings.distinct (t.columns.map fun c => (c.name, c))).map (·.2) }

/-- No two columns have one name. -/
def HasDistinctColumns (t : Table) : Prop := (t.columns.map (·.name)).Nodup

instance (t : Table) : Decidable t.HasDistinctColumns :=
  inferInstanceAs (Decidable (t.columns.map (·.name)).Nodup)

theorem name_of_mem_distinct {columns : List Column} {e : String × Column}
    (h : e ∈ Bindings.distinct (columns.map fun c => (c.name, c))) : e.1 = e.2.name := by
  obtain ⟨c, -, rfl⟩ := List.mem_map.1 (Bindings.mem_distinct h)
  rfl

theorem collapsed_eq_self_iff (t : Table) : t.collapsed = t ↔ t.HasDistinctColumns := by
  have named : (Bindings.distinct (t.columns.map fun c => (c.name, c))).map (·.1) =
      t.collapsed.columns.map (·.name) := by
    rw [collapsed, List.map_map]
    exact List.map_congr_left fun e he => name_of_mem_distinct he
  constructor
  · intro h
    rw [HasDistinctColumns, ← h, ← named]
    exact Bindings.nodup_distinct _
  · intro h
    have names : ((t.columns.map fun c => (c.name, c)).map (·.1)).Nodup := by
      rw [List.map_map]
      exact h
    have same : (t.columns.map fun c => (c.name, c)).map (·.2) = t.columns := by
      rw [List.map_map]
      exact List.map_id _
    rw [collapsed, Bindings.distinct_of_nodup names, same]

theorem distinct_columnsJson (t : Table) :
    (columnsJson t.columns).distinct = columnsJson t.collapsed.columns := by
  rw [columnsJson_eq, Json.distinct_object, Bindings.distinct_map, List.map_map, columnsJson,
    collapsed, List.map_map]
  refine congrArg Json.object (List.map_congr_left fun e he => ?_)
  exact Prod.ext (name_of_mem_distinct he) e.2.plain_toJson.distinct

theorem distinct_toJson (t : Table) : t.toJson.distinct = t.collapsed.toJson := by
  have history := map_distinct_of_plain t.history.plain_slots
  have own : t.ownSlots.map (fun slot => (slot.1, slot.2.map Json.distinct)) =
      t.collapsed.ownSlots := by
    have tags := (Tag.plain_mapToJson t.tags).distinct
    have key : (t.primaryKey.map Json.string).map Json.distinct = t.primaryKey.map .string := by
      cases t.primaryKey <;> simp
    simp only [ownSlots, List.map_cons, List.map_nil, Option.map_some, distinct_columnsJson,
      Json.distinct_string, tags, key]
    rfl
  rw [toJson_eq, toJson_eq, distinct_members t.nodup_slots, slots, List.map_append, history, own]
  rfl

end Table

end ReleaseSchema
