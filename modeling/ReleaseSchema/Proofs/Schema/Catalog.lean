/-
The JSON form of catalogs. A catalog whose return types are read back as they
are written is read back whole (`Catalog.ofJson?_toJson`), and saving changes
it in nothing but repeated columns (`Catalog.distinct_toJson`).
-/
import ReleaseSchema.Proofs.Schema.Entry
import ReleaseSchema.Schema.Catalog

namespace ReleaseSchema

open Json (Slots Plain Fits)
open Json.Slots

theorem Kind.ofName?_name (kind : Kind) : ofName? kind.name = some kind := by
  cases kind <;> rfl

theorem Kind.name_inj {a b : Kind} (h : a.name = b.name) : a = b := by
  have := a.ofName?_name
  rw [h, b.ofName?_name, Option.some.injEq] at this
  exact this.symm

/-! ## Properties -/

namespace Properties

def slots (p : Properties) : Slots :=
  [("dbName", some (.string p.dbName)), ("hasCurrent", some (.bool p.hasCurrent)),
    ("path", some (.string p.path)), ("lastVersion", some (.string p.lastVersion))]

theorem toJson_eq (p : Properties) : p.toJson = .object (members p.slots) := rfl

theorem nodup_slots (p : Properties) : (p.slots.map (·.1)).Nodup := by
  simp only [slots, List.map_cons, List.map_nil]
  decide

theorem plain_toJson (p : Properties) : Plain 1 p.toJson := by
  rw [toJson_eq]
  refine plain_members p.nodup_slots ?_
  simp [slots, Plain.string, Plain.bool]

theorem ofJson?_toJson (p : Properties) : ofJson? p.toJson = some p := by
  have names := p.nodup_slots
  rw [toJson_eq]
  simp only [ofJson?, fields?_members names, Option.bind_eq_bind, Option.bind_some]
  repeat rw [required_members names rfl]
  rfl

end Properties

/-! ## Buckets -/

namespace Bucket

/-- The bucket as it is saved. -/
def collapsed (b : Bucket) : Bucket := b.mapValues fun _ entry => entry.collapsed

theorem ofJson?_toJson {b : Bucket} (h : ∀ e ∈ b.entries, e.2.ReadsBack) :
    ofJson? b.toJson = some b := by
  rw [ofJson?, toJson, Json.asMembers?_map fun e he => Entry.ofJson?_toJson (h e he),
    Option.map_some, SortedMap.ofList_entries]

theorem fits_toJson (b : Bucket) : Fits 6 b.toJson := by
  refine .object fun member hmember => ?_
  obtain ⟨e, -, rfl⟩ := List.mem_map.1 hmember
  exact e.2.fits_toJson

theorem distinct_toJson (b : Bucket) : b.toJson.distinct = b.collapsed.toJson := by
  have names : ((b.entries.map fun e => (e.1, e.2.toJson)).map (·.1)).Nodup := by
    rw [List.map_map]
    exact b.nodup_keys
  rw [toJson, Json.distinct_object_of_nodup names, List.map_map, toJson, collapsed,
    SortedMap.mapValues, List.map_map]
  refine congrArg Json.object (List.map_congr_left fun e _ => ?_)
  exact Prod.ext rfl e.2.distinct_toJson

theorem collapsed_eq_self_iff (b : Bucket) :
    b.collapsed = b ↔ ∀ e ∈ b.entries, e.2.HasDistinctColumns := by
  rw [collapsed, SortedMap.mapValues_eq_self_iff]
  exact forall_congr' fun e => forall_congr' fun _ => e.2.collapsed_eq_self_iff

end Bucket

/-! ## Catalogs -/

namespace Catalog

theorem parametersOfJson?_parametersToJson (parameters : SortedMap String (List String)) :
    parametersOfJson? (parametersToJson parameters) = some parameters := by
  have read : Json.asMembers? (Json.asList? Json.asString?) (parametersToJson parameters) =
      some parameters.entries :=
    @Json.asMembers?_map (List String) (fun files => .array (files.map .string)) _ _ fun e _ =>
      Json.asList?_map fun s _ => rfl
  rw [parametersOfJson?, read, Option.map_some, SortedMap.ofList_entries]

theorem plain_parametersToJson (parameters : SortedMap String (List String)) :
    Plain 2 (parametersToJson parameters) := by
  refine Plain.object ?_ fun member hmember => ?_
  · rw [List.map_map]
    exact parameters.nodup_keys
  · obtain ⟨⟨name, files⟩, -, rfl⟩ := List.mem_map.1 hmember
    exact DataScript.plain_strings files

def bucketSlots (c : Catalog) : Slots :=
  c.buckets.entries.map fun e => (e.1.name, some e.2.toJson)

def ownSlots (c : Catalog) : Slots :=
  [("_properties", some c.properties.toJson), ("_parameters", some (parametersToJson c.parameters)),
    ("_versions", some (.array (c.versions.map .string)))]

def slots (c : Catalog) : Slots := c.bucketSlots ++ c.ownSlots

theorem members_bucketSlots (c : Catalog) :
    members c.bucketSlots = c.buckets.entries.map fun e => (e.1.name, e.2.toJson) := by
  rw [members, bucketSlots, List.flatMap_map]
  exact List.map_eq_flatMap.symm

theorem members_slots (c : Catalog) :
    members c.slots = members c.bucketSlots ++ members c.ownSlots := by
  rw [slots, members, List.flatMap_append]
  rfl

theorem toJson_eq (c : Catalog) : c.toJson = .object (members c.slots) := by
  rw [members_slots, members_bucketSlots]
  rfl

theorem not_mem_fieldNames (kind : Kind) : kind.name ∉ fieldNames := by
  cases kind <;> decide

theorem nodup_slots (c : Catalog) : (c.slots.map (·.1)).Nodup := by
  rw [slots, List.map_append, List.nodup_append]
  refine ⟨?_, ?_, fun a ha b hb => ?_⟩
  · rw [bucketSlots, List.map_map, List.Nodup, List.pairwise_map]
    exact c.buckets.sorted.imp fun hlt heq => SortedMap.ne_of_lt hlt (Kind.name_inj heq)
  · simp only [ownSlots, List.map_cons, List.map_nil]
    decide
  · rw [bucketSlots, List.map_map] at ha
    obtain ⟨e, -, rfl⟩ := List.mem_map.1 ha
    have hb : b ∈ fieldNames := hb
    rintro rfl
    exact not_mem_fieldNames e.1 hb

/-- The members of other names are no buckets, and are found behind them. -/
theorem lookup_slots (c : Catalog) {name : String} (h : name ∈ fieldNames) :
    c.slots.lookup name = c.ownSlots.lookup name := by
  rw [slots, List.lookup_append]
  have none : c.bucketSlots.lookup name = none := by
    rw [List.lookup_eq_none_iff]
    intro slot hslot
    obtain ⟨e, -, rfl⟩ := List.mem_map.1 hslot
    rw [bne_iff_ne]
    rintro rfl
    exact not_mem_fieldNames e.1 h
  rw [none, Option.none_or]

theorem fits_toJson (c : Catalog) : Fits 7 c.toJson := by
  have properties := c.properties.plain_toJson.fits.mono (show 1 ≤ 6 by decide)
  have parameters := (plain_parametersToJson c.parameters).fits.mono (show 2 ≤ 6 by decide)
  have versions := (DataScript.plain_strings c.versions).fits.mono (show 1 ≤ 6 by decide)
  rw [toJson_eq]
  refine fits_members (List.forall_mem_append.2 ⟨fun slot hslot json hjson => ?_, ?_⟩)
  · obtain ⟨e, -, rfl⟩ := List.mem_map.1 hslot
    cases hjson
    exact e.2.fits_toJson
  · simp [ownSlots, properties, parameters, versions]

theorem fits_inside (c : Catalog) : Fits (Json.maxDepth - 1) c.toJson :=
  c.fits_toJson.mono (show 7 ≤ 126 by decide)

/-! ### Reading back -/

/-- What the routines return is read back as it is written. -/
def ReadsBack (c : Catalog) : Prop :=
  ∀ bucket ∈ c.buckets.entries, ∀ e ∈ bucket.2.entries, e.2.ReadsBack

theorem buckets_of_members (c : Catalog) :
    (members c.slots).filter (fun (name, _) => !fieldNames.contains name) =
      members c.bucketSlots := by
  have kept : (members c.bucketSlots).filter (fun (name, _) => !fieldNames.contains name) =
      members c.bucketSlots := by
    rw [members_bucketSlots, List.filter_eq_self]
    intro member hmember
    obtain ⟨e, -, rfl⟩ := List.mem_map.1 hmember
    simpa using not_mem_fieldNames e.1
  have dropped : (members c.ownSlots).filter (fun (name, _) => !fieldNames.contains name) = [] :=
    rfl
  rw [members_slots, List.filter_append, kept, dropped, List.append_nil]

theorem ofJson?_toJson {c : Catalog} (h : c.ReadsBack) : ofJson? c.toJson = some c := by
  have names := c.nodup_slots
  have fits := c.fits_toJson
  rw [toJson_eq] at fits ⊢
  have buckets : (members c.bucketSlots).mapM bucketOfMember? = some c.buckets.entries := by
    rw [members_bucketSlots]
    refine Traverse.mapM_map_eq_some fun e he => ?_
    simp only [bucketOfMember?, Kind.ofName?_name, Bucket.ofJson?_toJson (h e he),
      Option.bind_eq_bind, Option.bind_some, Option.pure_def]
  have properties : (members c.slots).withDefault "_properties" {} Properties.ofJson? =
      some c.properties :=
    (withDefault_members names (c.lookup_slots (by decide)) _ _).trans
      c.properties.ofJson?_toJson
  have parameters : (members c.slots).withDefault "_parameters" .empty parametersOfJson? =
      some c.parameters :=
    (withDefault_members names (c.lookup_slots (by decide)) _ _).trans
      (parametersOfJson?_parametersToJson c.parameters)
  have versions : (members c.slots).withDefault "_versions" [] (Json.asList? Json.asString?) =
      some c.versions :=
    (withDefault_members names (c.lookup_slots (by decide)) _ _).trans
      (Json.asList?_map fun s _ => rfl)
  simp only [ofJson?, openFields?_members names fits, Option.bind_eq_bind, Option.bind_some,
    buckets_of_members, buckets, properties, parameters, versions, SortedMap.ofList_entries]
  rfl

theorem readsBack_of_ofJson? {json : Json} {c : Catalog} (h : ofJson? json = some c) :
    c.ReadsBack := by
  simp only [ofJson?, Option.bind_eq_bind, Option.bind_eq_some_iff, Option.pure_def,
    Option.some.injEq] at h
  obtain ⟨fields, -, buckets, hbuckets, _, -, _, -, _, -, rfl⟩ := h
  intro bucket hbucket e he
  obtain ⟨member, -, hread⟩ :=
    Traverse.exists_of_mem_mapM hbuckets (SortedMap.mem_ofList hbucket)
  simp only [bucketOfMember?, Option.bind_eq_bind, Option.bind_eq_some_iff, Option.pure_def,
    Option.some.injEq] at hread
  obtain ⟨kind, -, entries, hentries, rfl⟩ := hread
  obtain ⟨bindings, hbindings, rfl⟩ := Option.map_eq_some_iff.1 hentries
  cases hjson : member.2 with
  | object members =>
    rw [hjson] at hbindings
    obtain ⟨written, -, hentry⟩ :=
      Traverse.exists_of_mem_mapM hbindings (SortedMap.mem_ofList he)
    obtain ⟨entry, hentry', rfl⟩ := Option.map_eq_some_iff.1 hentry
    exact Entry.readsBack_of_ofJson? hentry'
  | _ =>
    rw [hjson] at hbindings
    cases hbindings

/-! ### Columns of one name -/

/-- The catalog as it is saved. -/
def collapsed (c : Catalog) : Catalog :=
  { c with buckets := c.buckets.mapValues fun _ bucket => bucket.collapsed }

/-- No table has two columns of one name. -/
def HasDistinctColumns (c : Catalog) : Prop :=
  ∀ bucket ∈ c.buckets.entries, ∀ e ∈ bucket.2.entries, e.2.HasDistinctColumns

instance (c : Catalog) : Decidable c.HasDistinctColumns :=
  inferInstanceAs (Decidable (∀ bucket ∈ c.buckets.entries, ∀ e ∈ bucket.2.entries,
    e.2.HasDistinctColumns))

theorem distinct_toJson (c : Catalog) : c.toJson.distinct = c.collapsed.toJson := by
  have buckets : c.bucketSlots.map (fun slot => (slot.1, slot.2.map Json.distinct)) =
      c.collapsed.bucketSlots := by
    rw [bucketSlots, bucketSlots, collapsed, SortedMap.mapValues, List.map_map, List.map_map]
    refine List.map_congr_left fun e _ => ?_
    exact Prod.ext rfl (congrArg some e.2.distinct_toJson)
  have plain : ∀ slot ∈ c.ownSlots, ∀ json ∈ slot.2, Plain 2 json := by
    simp [ownSlots, c.properties.plain_toJson.mono (show 1 ≤ 2 by decide),
      plain_parametersToJson c.parameters,
      (DataScript.plain_strings c.versions).mono (show 1 ≤ 2 by decide)]
  rw [toJson_eq, toJson_eq, distinct_members c.nodup_slots, slots, List.map_append, buckets,
    map_distinct_of_plain plain]
  rfl

theorem ReadsBack.collapsed {c : Catalog} (h : c.ReadsBack) : c.collapsed.ReadsBack := by
  intro bucket hbucket e he
  obtain ⟨old, hold, rfl⟩ := List.mem_map.1 hbucket
  obtain ⟨entry, hentry, rfl⟩ := List.mem_map.1 he
  exact (h old hold entry hentry).collapsed

theorem collapsed_eq_self_iff (c : Catalog) : c.collapsed = c ↔ c.HasDistinctColumns := by
  have whole : c.collapsed = c ↔ c.collapsed.buckets = c.buckets := by
    obtain ⟨buckets, properties, parameters, versions⟩ := c
    simp [collapsed]
  rw [whole, collapsed, SortedMap.mapValues_eq_self_iff]
  refine forall_congr' fun bucket => forall_congr' fun _ => ?_
  exact bucket.2.collapsed_eq_self_iff

end Catalog

end ReleaseSchema
