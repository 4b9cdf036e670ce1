/-
Plain values: what a document's text is read into when every part of it may be
used. Such a value can be written again (`fits_of_parse?`), and taking each
name of its objects once changes nothing any more (`distinct_distinct`).
-/
import ReleaseSchema.Proofs.Bindings
import ReleaseSchema.Proofs.Json.RoundTrip

namespace ReleaseSchema.Json

/-! ## Parts -/

theorem areReadable_iff {items : List Json} :
    areReadable items = true ↔ ∀ item ∈ items, item.isReadable = true := by
  induction items with
  | nil => simp [areReadable]
  | cons item rest ih => simp [areReadable, ih]

theorem areReadableMembers_iff {members : List (String × Json)} :
    areReadableMembers members = true ↔ ∀ member ∈ members, member.2.isReadable = true := by
  induction members with
  | nil => simp [areReadableMembers]
  | cons member rest ih =>
    obtain ⟨name, value⟩ := member
    rw [areReadableMembers, Bool.and_eq_true, ih]
    simp

theorem distinctItems_eq (items : List Json) : distinctItems items = items.map distinct := by
  induction items with
  | nil => rfl
  | cons item rest ih => rw [distinctItems, ih, List.map_cons]

theorem distinctValues_eq (members : List (String × Json)) :
    distinctValues members = members.map fun member => (member.1, member.2.distinct) := by
  induction members with
  | nil => rfl
  | cons member rest ih => rw [distinctValues, ih, List.map_cons]

@[simp] theorem distinct_string (s : String) : (Json.string s).distinct = .string s := by
  simp only [distinct]

@[simp] theorem distinct_bool (b : Bool) : (Json.bool b).distinct = .bool b := by
  simp only [distinct]

theorem distinct_array (items : List Json) :
    (Json.array items).distinct = .array (items.map distinct) := by
  rw [distinct, distinctItems_eq]

theorem distinct_object (members : List (String × Json)) :
    (Json.object members).distinct =
      .object ((Bindings.distinct members).map fun member => (member.1, member.2.distinct)) := by
  rw [distinct, distinctValues_eq, Bindings.distinct_map]

/-! ## What fits -/

theorem Fits.mono {depth more : Nat} {json : Json} (h : Fits depth json) (hle : depth ≤ more) :
    Fits more json := by
  induction h generalizing more with
  | null => exact .null
  | bool => exact .bool
  | number h => exact .number h
  | string => exact .string
  | array _ ih =>
    obtain ⟨more, rfl⟩ : ∃ n, more = n + 1 := ⟨more - 1, by omega⟩
    exact .array fun item hitem => ih item hitem (by omega)
  | object _ ih =>
    obtain ⟨more, rfl⟩ : ∃ n, more = n + 1 := ⟨more - 1, by omega⟩
    exact .object fun member hmember => ih member hmember (by omega)

theorem Fits.isReadable {depth : Nat} {json : Json} (h : Fits depth json) :
    json.isReadable = true := by
  induction h with
  | null | bool | number | string => rfl
  | array _ ih =>
    rw [Json.isReadable]
    exact areReadable_iff.2 ih
  | object _ ih =>
    rw [Json.isReadable]
    exact areReadableMembers_iff.2 ih

theorem Fits.distinct {depth : Nat} {json : Json} (h : Fits depth json) :
    Fits depth json.distinct := by
  induction h with
  | null => exact .null
  | bool => exact .bool
  | number h => exact .number h
  | string => exact .string
  | array _ ih =>
    rw [distinct_array]
    refine .array fun item hitem => ?_
    obtain ⟨old, hold, rfl⟩ := List.mem_map.1 hitem
    exact ih old hold
  | object _ ih =>
    rw [distinct_object]
    refine .object fun member hmember => ?_
    obtain ⟨old, hold, rfl⟩ := List.mem_map.1 hmember
    exact ih old (Bindings.mem_distinct hold)

/-! ## Each name once -/

mutual

theorem distinct_distinct : ∀ json : Json, json.distinct.distinct = json.distinct
  | .null | .bool _ | .number _ | .string _ | .unreadable => by simp only [distinct]
  | .array items => by
    rw [distinct_array, distinct_array, List.map_map]
    exact congrArg Json.array (List.map_congr_left (distinctItems_distinct items))
  | .object members => by
    have each := Bindings.distinct_of_nodup (Bindings.nodup_distinct members)
    rw [distinct_object, distinct_object, Bindings.distinct_map, each, List.map_map]
    refine congrArg Json.object (List.map_congr_left fun member hmember => ?_)
    exact Prod.ext rfl (distinctValues_distinct members member (Bindings.mem_distinct hmember))

theorem distinctItems_distinct : ∀ (items : List Json), ∀ item ∈ items,
    item.distinct.distinct = item.distinct
  | [], _, hitem => absurd hitem List.not_mem_nil
  | first :: rest, item, hitem => by
    rcases List.mem_cons.1 hitem with heq | hitem
    · rw [heq]
      exact distinct_distinct first
    · exact distinctItems_distinct rest item hitem

theorem distinctValues_distinct : ∀ (members : List (String × Json)), ∀ member ∈ members,
    member.2.distinct.distinct = member.2.distinct
  | [], _, hmember => absurd hmember List.not_mem_nil
  | (name, value) :: rest, member, hmember => by
    rcases List.mem_cons.1 hmember with heq | hmember
    · rw [heq]
      exact distinct_distinct value
    · exact distinctValues_distinct rest member hmember

end

/-! ## What is read -/

/-- The members of a readable object are those that were read, with their names. -/
theorem exists_of_ofMembers {members : List (Option String × Json)}
    (h : (ofMembers members).isReadable = true) :
    ∃ named, ofMembers members = .object named ∧
      ∀ member ∈ named, (some member.1, member.2) ∈ members := by
  unfold ofMembers at h ⊢
  split at h
  next named hnamed =>
    refine ⟨named, rfl, fun member hmember => ?_⟩
    obtain ⟨⟨name, value⟩, hmem, hread⟩ := Traverse.exists_of_mem_mapM hnamed hmember
    obtain ⟨name, rfl, rfl⟩ := Option.map_eq_some_iff.1 hread
    exact hmem
  next => cases h

/-- A readable container was opened at a depth that allowed it. -/
theorem exists_of_opened {depth : Nat} {inner json : Json}
    (h : (if depth = 0 then .unreadable else inner) = json) (hreadable : json.isReadable = true) :
    ∃ n, depth = n + 1 ∧ json = inner := by
  cases depth with
  | zero =>
    rw [if_pos rfl] at h
    subst h
    cases hreadable
  | succ n =>
    rw [if_neg (Nat.succ_ne_zero n)] at h
    exact ⟨n, rfl, h.symm⟩

/-- With so much fuel, readable values are read that can be written; likewise for the parts of
containers. -/
def ValuesFit (fuel : Nat) : Prop := ∀ {depth text json rest},
  valueFrom? fuel depth text = some (json, rest) → json.isReadable = true → Fits depth json

def ItemsFit (fuel : Nat) : Prop := ∀ {depth text items rest},
  itemsFrom? fuel depth text = some (items, rest) →
    ∀ item ∈ items, item.isReadable = true → Fits depth item

def MembersFit (fuel : Nat) : Prop := ∀ {depth text members rest},
  membersFrom? fuel depth text = some (members, rest) →
    ∀ member ∈ members, member.2.isReadable = true → Fits depth member.2

section Steps

variable {fuel : Nat}

theorem ValuesFit.succ (ihItems : ItemsFit fuel) (ihMembers : MembersFit fuel) :
    ValuesFit (fuel + 1) := by
  intro depth text json rest h hreadable
  rw [valueFrom?] at h
  split at h
  · cases h
  · obtain ⟨⟨s, after⟩, -, h⟩ := Option.map_eq_some_iff.1 h
    cases s with
    | none =>
      cases h
      cases hreadable
    | some s =>
      cases h
      exact .string
  · split at h
    · simp only [Option.some.injEq, Prod.mk.injEq] at h
      obtain ⟨n, rfl, rfl⟩ := exists_of_opened h.1 hreadable
      exact .array fun item hitem => absurd hitem List.not_mem_nil
    · obtain ⟨⟨items, after⟩, hitems, h⟩ := Option.map_eq_some_iff.1 h
      simp only [Prod.mk.injEq] at h
      obtain ⟨n, rfl, rfl⟩ := exists_of_opened h.1 hreadable
      rw [Json.isReadable, areReadable_iff] at hreadable
      exact .array fun item hitem => ihItems hitems item hitem (hreadable item hitem)
  · split at h
    · simp only [Option.some.injEq, Prod.mk.injEq] at h
      obtain ⟨n, rfl, rfl⟩ := exists_of_opened h.1 hreadable
      exact .object fun member hmember => absurd hmember List.not_mem_nil
    · obtain ⟨⟨members, after⟩, hmembers, h⟩ := Option.map_eq_some_iff.1 h
      simp only [Prod.mk.injEq] at h
      obtain ⟨n, rfl, rfl⟩ := exists_of_opened h.1 hreadable
      obtain ⟨named, hnamed, hmem⟩ := exists_of_ofMembers hreadable
      rw [hnamed, Json.isReadable, areReadableMembers_iff] at hreadable
      rw [hnamed]
      exact .object fun member hmember =>
        ihMembers hmembers _ (hmem member hmember) (hreadable member hmember)
  · split at h
    · obtain ⟨after, -, h⟩ := Option.map_eq_some_iff.1 h
      cases h
      exact .null
    split at h
    · obtain ⟨after, -, h⟩ := Option.map_eq_some_iff.1 h
      cases h
      exact .bool
    split at h
    · obtain ⟨after, -, h⟩ := Option.map_eq_some_iff.1 h
      cases h
      exact .bool
    · obtain ⟨⟨literal, after⟩, hnumber, h⟩ := Option.map_eq_some_iff.1 h
      cases h
      refine .number ?_
      rw [String.toList_ofList]
      exact isNumber_of_number? hnumber

theorem ItemsFit.succ (ihValue : ValuesFit fuel) (ihItems : ItemsFit fuel) :
    ItemsFit (fuel + 1) := by
  intro depth text items rest h item hitem hreadable
  rw [itemsFrom?] at h
  split at h
  · cases h
  next first after hfirst =>
    split at h
    · obtain ⟨⟨others, after⟩, hothers, h⟩ := Option.map_eq_some_iff.1 h
      cases h
      rcases List.mem_cons.1 hitem with rfl | hitem
      · exact ihValue hfirst hreadable
      · exact ihItems hothers item hitem hreadable
    · cases h
      rw [List.mem_singleton.1 hitem] at hreadable ⊢
      exact ihValue hfirst hreadable
    · cases h

theorem MembersFit.succ (ihValue : ValuesFit fuel) (ihMembers : MembersFit fuel) :
    MembersFit (fuel + 1) := by
  intro depth text members rest h member hmember hreadable
  rw [membersFrom?] at h
  split at h
  · split at h
    · cases h
    split at h
    · split at h
      · cases h
      next value after hvalue =>
        split at h
        · obtain ⟨⟨others, after⟩, hothers, h⟩ := Option.map_eq_some_iff.1 h
          cases h
          rcases List.mem_cons.1 hmember with rfl | hmember
          · exact ihValue hvalue hreadable
          · exact ihMembers hothers member hmember hreadable
        · cases h
          rw [List.mem_singleton.1 hmember] at hreadable ⊢
          exact ihValue hvalue hreadable
        · cases h
    · cases h
  · cases h

/-- The three readers call one another with less fuel, so the induction is for all of them. -/
theorem all_fit (fuel : Nat) : ValuesFit fuel ∧ ItemsFit fuel ∧ MembersFit fuel := by
  induction fuel with
  | zero =>
    refine ⟨fun h => ?_, fun h => ?_, fun h => ?_⟩
    · rw [valueFrom?] at h
      cases h
    · rw [itemsFrom?] at h
      cases h
    · rw [membersFrom?] at h
      cases h
  | succ fuel ih =>
    obtain ⟨ihValue, ihItems, ihMembers⟩ := ih
    exact ⟨ValuesFit.succ ihItems ihMembers, ItemsFit.succ ihValue ihItems,
      MembersFit.succ ihValue ihMembers⟩

end Steps

theorem fits_of_parse? {text : String} {json : Json} (h : parse? text = some json)
    (hreadable : json.isReadable = true) : Fits maxDepth json := by
  unfold parse? at h
  split at h
  next json' rest hread =>
    split at h
    · cases h
      exact (all_fit _).1 hread hreadable
    · cases h
  · cases h

end ReleaseSchema.Json
