/-
Records as they are written. A record's members are its slots, those that are
left out excepted (`members`), and since no two slots have one name, every
field is read from its own slot (`required_members`, `optional_members`).

A value is plain (`Plain`) if it can be written and has each name once: saving
it does not change it.
-/
import ReleaseSchema.Json.Record
import ReleaseSchema.Proofs.Json.Value

namespace ReleaseSchema.Json

/-! ## Plain values -/

/-- Each name occurs once, and the value can be written with containers nested at most so deep. -/
structure Plain (depth : Nat) (json : Json) : Prop where
  fits : Fits depth json
  distinct : json.distinct = json

section Plain

variable {depth : Nat}

theorem Plain.string {s : String} : Plain depth (.string s) := ⟨.string, distinct_string s⟩

theorem Plain.bool {b : Bool} : Plain depth (.bool b) := ⟨.bool, distinct_bool b⟩

theorem Plain.mono {more : Nat} {json : Json} (h : Plain depth json) (hle : depth ≤ more) :
    Plain more json :=
  ⟨h.fits.mono hle, h.distinct⟩

theorem Plain.array {items : List Json} (h : ∀ item ∈ items, Plain depth item) :
    Plain (depth + 1) (.array items) where
  fits := .array fun item hitem => (h item hitem).fits
  distinct := by
    have same : items.map Json.distinct = items.map id :=
      List.map_congr_left fun item hitem => (h item hitem).distinct
    rw [distinct_array, same, List.map_id]

theorem distinct_object_of_nodup {members : List (String × Json)}
    (h : (members.map (·.1)).Nodup) :
    (Json.object members).distinct =
      .object (members.map fun member => (member.1, member.2.distinct)) := by
  rw [distinct_object, Bindings.distinct_of_nodup h]

theorem Plain.object {members : List (String × Json)} (names : (members.map (·.1)).Nodup)
    (h : ∀ member ∈ members, Plain depth member.2) : Plain (depth + 1) (.object members) where
  fits := .object fun member hmember => (h member hmember).fits
  distinct := by
    have same : members.map (fun member => (member.1, member.2.distinct)) = members.map id :=
      List.map_congr_left fun member hmember => Prod.ext rfl (h member hmember).distinct
    rw [distinct_object_of_nodup names, same, List.map_id]

end Plain

/-! ## Values that may be missing -/

theorem asOption?_of_ne_null {json : Json} (h : json ≠ .null) (value : Json → Option α) :
    asOption? value json = (value json).map some := by
  cases json with
  | null => exact absurd rfl h
  | _ => rfl

/-- What an optional field gives was read, and not from `null`. -/
theorem Fields.exists_of_optional {fields : Fields} {name : String} {value : Json → Option α}
    {o : Option α} (h : fields.optional name value = some o) {a : α} (ha : a ∈ o) :
    ∃ json, json ≠ .null ∧ value json = some a := by
  rw [Fields.optional, Fields.withDefault] at h
  split at h
  next json _ =>
    by_cases hnull : json = .null
    · subst hnull
      cases h
      cases ha
    · rw [asOption?_of_ne_null hnull, Option.map_eq_some_iff] at h
      obtain ⟨b, hb, rfl⟩ := h
      cases ha
      exact ⟨json, hnull, hb⟩
  next =>
    cases h
    cases ha

/-! ## Slots -/

/-- The fields of a record in the order in which they are written, each with its value unless it is
left out. -/
abbrev Slots := List (String × Option Json)

namespace Slots

/-- The members that are written. -/
def members (slots : Slots) : Fields := slots.flatMap fun slot => optionalMember slot.1 slot.2

variable {slots : Slots} {name : String}

theorem members_cons (slot : String × Option Json) (slots : Slots) :
    members (slot :: slots) = optionalMember slot.1 slot.2 ++ members slots :=
  List.flatMap_cons

theorem mem_members {member : String × Json} :
    member ∈ members slots ↔ (member.1, some member.2) ∈ slots := by
  simp only [members, List.mem_flatMap]
  constructor
  · rintro ⟨⟨other, value⟩, hslot, hmember⟩
    cases value with
    | none => exact absurd hmember List.not_mem_nil
    | some json =>
      rw [List.mem_singleton.1 hmember]
      exact hslot
  · intro h
    exact ⟨_, h, List.mem_singleton.2 rfl⟩

/-- The members that are written have the names of slots, in their order. -/
theorem names_sublist (slots : Slots) : ((members slots).map (·.1)).Sublist (slots.map (·.1)) := by
  induction slots with
  | nil => exact List.Sublist.refl _
  | cons slot slots ih =>
    obtain ⟨name, value⟩ := slot
    rw [members_cons]
    cases value with
    | none => exact ih.cons _
    | some json => exact ih.cons_cons _

theorem nodup_members (h : (slots.map (·.1)).Nodup) : ((members slots).map (·.1)).Nodup :=
  h.sublist (names_sublist slots)

theorem lookup_members (h : (slots.map (·.1)).Nodup) :
    (members slots).lookup name = (slots.lookup name).join := by
  induction slots with
  | nil => rfl
  | cons slot slots ih =>
    obtain ⟨other, value⟩ := slot
    rw [List.map_cons, List.nodup_cons] at h
    rw [members_cons, Bindings.lookup_cons]
    have rest := ih h.2
    by_cases hname : name = other
    · rw [if_pos hname]
      cases value with
      | none =>
        have hnone : slots.lookup name = none := by
          rw [List.lookup_eq_none_iff]
          intro slot hslot
          have hne : name ≠ slot.1 := fun heq =>
            h.1 (hname ▸ List.mem_map.2 ⟨slot, hslot, heq.symm⟩)
          simpa using hne
        rw [optionalMember, List.nil_append, rest, hnone]
        rfl
      | some json =>
        rw [optionalMember, List.singleton_append, Bindings.lookup_cons, if_pos hname]
        rfl
    · rw [if_neg hname]
      cases value with
      | none => exact rest
      | some json =>
        rw [optionalMember, List.singleton_append, Bindings.lookup_cons, if_neg hname, rest]

theorem givenOnce_of_nodup {fields : Fields} (h : (fields.map (·.1)).Nodup)
    (names : List String) : givenOnce names fields = true := by
  simp only [givenOnce, List.all_eq_true, decide_eq_true_eq]
  intro name _
  have count : fields.countP (·.1 == name) = (fields.map (·.1)).count name := by
    rw [List.count, List.countP_map]
    rfl
  rw [count]
  exact List.nodup_iff_count.1 h name

theorem fields?_members (h : (slots.map (·.1)).Nodup) (names : List String) :
    (Json.object (members slots)).fields? names = some (members slots) := by
  simp only [fields?, givenOnce_of_nodup (nodup_members h) names, if_true]

/-- A record that contains another one is read when all of its parts can be written. -/
theorem openFields?_members {depth : Nat} (h : (slots.map (·.1)).Nodup)
    (fits : Fits depth (.object (members slots))) (own inner : List String) :
    (Json.object (members slots)).openFields? own inner = some (members slots) := by
  have parts := fits.isReadable
  rw [Json.isReadable, areReadableMembers_iff] at parts
  rw [openFields?, givenOnce_of_nodup (nodup_members h), Bool.true_and, if_pos]
  rw [List.all_eq_true]
  intro member hmember
  simp [parts member hmember]

theorem required_members (h : (slots.map (·.1)).Nodup) {json : Json}
    (slot : slots.lookup name = some (some json)) (value : Json → Option α) :
    Fields.required (members slots) name value = value json := by
  rw [Fields.required, lookup_members h, slot]
  rfl

theorem required_of_missing (h : (slots.map (·.1)).Nodup) (missing : slots.lookup name = none)
    (value : Json → Option α) : Fields.required (members slots) name value = none := by
  rw [Fields.required, lookup_members h, missing]
  rfl

theorem withDefault_members (h : (slots.map (·.1)).Nodup) {json : Json}
    (slot : slots.lookup name = some (some json)) (default : α) (value : Json → Option α) :
    Fields.withDefault (members slots) name default value = value json := by
  rw [Fields.withDefault, lookup_members h, slot]
  rfl

/-- A field that may be missing is read back if what is written for it is, and is not `null`. -/
theorem optional_members (h : (slots.map (·.1)).Nodup) {o : Option α} {write : α → Json}
    {value : Json → Option α} (slot : slots.lookup name = some (o.map write))
    (notNull : ∀ a, write a ≠ .null) (read : ∀ a ∈ o, value (write a) = some a) :
    Fields.optional (members slots) name value = some o := by
  rw [Fields.optional, Fields.withDefault, lookup_members h, slot]
  cases o with
  | none => rfl
  | some a =>
    change asOption? value (write a) = some (some a)
    rw [asOption?_of_ne_null (notNull a), read a rfl]
    rfl

theorem plain_members {depth : Nat} (h : (slots.map (·.1)).Nodup)
    (plain : ∀ slot ∈ slots, ∀ json ∈ slot.2, Plain depth json) :
    Plain (depth + 1) (.object (members slots)) :=
  .object (nodup_members h) fun member hmember =>
    plain (member.1, some member.2) (mem_members.1 hmember) member.2 rfl

theorem fits_members {depth : Nat} (fits : ∀ slot ∈ slots, ∀ json ∈ slot.2, Fits depth json) :
    Fits (depth + 1) (.object (members slots)) :=
  .object fun member hmember =>
    fits (member.1, some member.2) (mem_members.1 hmember) member.2 rfl

/-- In a record no name is repeated, so only its values change. -/
theorem distinct_members (h : (slots.map (·.1)).Nodup) :
    (Json.object (members slots)).distinct =
      .object (members (slots.map fun slot => (slot.1, slot.2.map Json.distinct))) := by
  rw [distinct_object_of_nodup (nodup_members h)]
  refine congrArg Json.object ?_
  clear h
  induction slots with
  | nil => rfl
  | cons slot slots ih =>
    obtain ⟨name, value⟩ := slot
    rw [List.map_cons, members_cons, members_cons, List.map_append, ih]
    cases value <;> rfl

theorem map_distinct_of_plain {depth : Nat}
    (plain : ∀ slot ∈ slots, ∀ json ∈ slot.2, Plain depth json) :
    slots.map (fun slot => (slot.1, slot.2.map Json.distinct)) = slots := by
  have same : slots.map (fun slot => (slot.1, slot.2.map Json.distinct)) = slots.map id := by
    refine List.map_congr_left fun slot hslot => ?_
    obtain ⟨name, value⟩ := slot
    cases value with
    | none => rfl
    | some json => simp [(plain _ hslot json rfl).distinct]
  rw [same, List.map_id]

end Slots

/-! ## Lists and maps -/

theorem asList?_map {write : α → Json} {item : Json → Option α} {l : List α}
    (h : ∀ a ∈ l, item (write a) = some a) : asList? item (.array (l.map write)) = some l :=
  Traverse.mapM_map_eq_some h

theorem asMembers?_map {write : α → Json} {value : Json → Option α} {l : List (String × α)}
    (h : ∀ e ∈ l, value (write e.2) = some e.2) :
    asMembers? value (.object (l.map fun e => (e.1, write e.2))) = some l := by
  refine Traverse.mapM_map_eq_some fun e he => ?_
  simp [h e he]

end ReleaseSchema.Json
