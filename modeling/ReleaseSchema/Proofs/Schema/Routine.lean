/-
The JSON form of routines. A return type is written as it is declared, so it is
read back when reading that text gives it again (`ReturnType.ReadsBack`), which
is so for every type that was read from a text (`ReturnType.readsBack_ofText`).
-/
import ReleaseSchema.Proofs.Schema.Column
import ReleaseSchema.Proofs.Schema.History
import ReleaseSchema.Proofs.Text.Case
import ReleaseSchema.Proofs.Text.Trim
import ReleaseSchema.Schema.Routine

namespace ReleaseSchema

open Json (Slots Plain)
open Json.Slots

theorem Volatility.ofJson?_toJson (v : Volatility) : ofJson? v.toJson = some v := by
  cases v <;> rfl

theorem ArgumentMode.ofJson?_toJson (m : ArgumentMode) : ofJson? m.toJson = some m := by
  cases m <;> rfl

namespace Argument

def slots (a : Argument) : Slots :=
  [("mode", some a.mode.toJson), ("name", some (.string a.name)), ("type", some (.string a.type)),
    ("defaultValue", a.defaultValue.map .string)]

theorem toJson_eq (a : Argument) : a.toJson = .object (members a.slots) := by
  simp [toJson, slots, members, Json.optionalMember]

theorem nodup_slots (a : Argument) : (a.slots.map (·.1)).Nodup := by
  simp only [slots, List.map_cons, List.map_nil]
  decide

theorem plain_toJson (a : Argument) : Plain 1 a.toJson := by
  rw [toJson_eq]
  refine plain_members a.nodup_slots ?_
  simp [slots, Plain.string, ArgumentMode.toJson]

theorem ofJson?_toJson (a : Argument) : ofJson? a.toJson = some a := by
  have names := a.nodup_slots
  have mode : (members a.slots).required "mode" ArgumentMode.ofJson? = some a.mode :=
    (required_members names rfl _).trans a.mode.ofJson?_toJson
  have defaultValue : (members a.slots).optional "defaultValue" Json.asString? =
      some a.defaultValue :=
    optional_members names rfl (fun _ => Json.noConfusion) fun _ _ => rfl
  rw [toJson_eq]
  simp only [ofJson?, fields?_members names, Option.bind_eq_bind, Option.bind_some, mode,
    defaultValue]
  repeat rw [required_members names rfl]
  rfl

end Argument

/-! ## Return types -/

namespace ReturnType

open Text

/-- The type is read back as it is written. -/
def ReadsBack (r : ReturnType) : Prop := ofText r.render.toList = r

theorem ofJson?_toJson {r : ReturnType} (h : r.ReadsBack) : ofJson? r.toJson = some r := by
  rw [ofJson?, toJson, Json.asString?, Option.map_some, h]

/-- Something stands behind `setof` in a trimmed text, since a blank ends the word. -/
theorem trim_drop_setOf {text : List Char} (finish : Stops isBlank text.reverse)
    (h : startsLike text "setof ".toList = true) : trim (text.drop "setof ".length) ≠ [] := by
  intro hnil
  have blank := all_isBlank_of_trim hnil
  obtain ⟨word, rest, rfl, hword⟩ := startsLike_iff.1 h
  have length : word.length = "setof ".length := length_eq_of_sameLetters hword
  rw [← length, List.drop_left] at blank
  obtain ⟨letters, last, rfl, -, hlast⟩ :=
    List.map_eq_append_iff.1 ((sameLetters_iff.1 hword).trans (show _ = "setof".toList ++ [' '] from rfl))
  obtain ⟨c, rfl, hc⟩ := List.map_eq_singleton_iff.1 hlast
  simp only [List.reverse_append, List.reverse_cons, List.reverse_nil, List.nil_append,
    List.singleton_append] at finish
  cases hrest : rest.reverse with
  | nil =>
    rw [hrest, List.nil_append, eq_of_toLower (.inl (by decide)) hc] at finish
    exact absurd (stops_cons.1 finish) (by decide)
  | cons x before =>
    rw [hrest, List.cons_append] at finish
    have hx := blank x (List.mem_reverse.1 (hrest ▸ List.mem_cons_self))
    rw [stops_cons.1 finish] at hx
    cases hx

theorem ofText_setOf {type : List Char} (hne : type ≠ []) (start : Stops isBlank type)
    (finish : Stops isBlank type.reverse) :
    ofText ("setof ".toList ++ type) = .setOf (String.ofList type) := by
  have whole : trim ("setof ".toList ++ type) = "setof ".toList ++ type := by
    refine trim_eq_self (stops_cons.2 (by decide)) ?_
    rw [List.reverse_append]
    exact finish.append (by simpa using hne) _
  have length : 0 < type.length := List.length_pos_iff.2 hne
  have noVoid : sameLetters ("setof ".toList ++ type) "void".toList ≠ true := by
    intro h
    have := length_eq_of_sameLetters h
    simp at this
  have noTable : sameLetters ("setof ".toList ++ type) "table".toList ≠ true := by
    intro h
    have := length_eq_of_sameLetters h
    simp at this
  have setOf : startsLike ("setof ".toList ++ type) "setof ".toList = true := rfl
  have rest : ("setof ".toList ++ type).drop "setof ".length = type := rfl
  rw [ofText]
  simp only [whole, if_neg noVoid, if_neg noTable, if_pos setOf, rest, trim_eq_self start finish]

theorem render_setOf (type : List Char) :
    (setOf (String.ofList type)).render.toList = "setof ".toList ++ type := by
  simp only [render, String.toList_append, String.toList_ofList]

theorem readsBack_ofText (text : List Char) : (ofText text).ReadsBack := by
  rw [ofText]
  split
  · rfl
  split
  · rfl
  split
  next h =>
    have read := ofText_setOf (trim_drop_setOf (stops_reverse_trim text) h) (stops_trim _)
      (stops_reverse_trim _)
    exact (congrArg ofText (render_setOf _)).trans read
  next hvoid htable hset =>
    rw [ReadsBack, render, String.toList_ofList, ofText]
    simp only [trim_trim, if_neg hvoid, if_neg htable, if_neg hset]

end ReturnType

namespace Routine

def ownSlots (r : Routine) : Slots :=
  [("dbPrefix", some (.string r.dbPrefix)), ("camelCasedName", some (.string r.camelName)),
    ("mode", r.volatility.map Volatility.toJson),
    ("arguments", some (.array (r.arguments.map Argument.toJson))),
    ("returnType", some r.returnType.toJson),
    ("returnTable", r.returnColumns.map fun cs => .array (cs.map Column.toJson)),
    ("hasOrReplace", some (.bool r.replaces))]

def slots (r : Routine) : Slots := r.history.slots ++ r.ownSlots

theorem toJson_eq (r : Routine) : r.toJson = .object (members r.slots) := by
  rw [slots, History.members_append]
  simp [toJson, ownSlots, members, Json.optionalMember]

theorem nodup_slots (r : Routine) : (r.slots.map (·.1)).Nodup := by
  simp only [slots, History.slots, ownSlots, List.map_append, List.map_cons, List.map_nil]
  decide

theorem plain_toJson (r : Routine) : Plain 5 r.toJson := by
  have arguments : Plain 4 (.array (r.arguments.map Argument.toJson)) := by
    refine .array fun item hitem => ?_
    obtain ⟨a, -, rfl⟩ := List.mem_map.1 hitem
    exact a.plain_toJson.mono (by decide)
  have columns : ∀ cs : List Column, Plain 4 (.array (cs.map Column.toJson)) := by
    refine fun cs => .array fun item hitem => ?_
    obtain ⟨c, -, rfl⟩ := List.mem_map.1 hitem
    exact c.plain_toJson
  rw [toJson_eq]
  refine plain_members r.nodup_slots
    (List.forall_mem_append.2 ⟨fun slot hslot json hjson => ?_, ?_⟩)
  · exact (r.history.plain_slots slot hslot json hjson).mono (by decide)
  · simp [ownSlots, Plain.string, Plain.bool, Volatility.toJson, ReturnType.toJson, arguments,
      columns]

theorem ofJson?_toJson {r : Routine} (h : r.returnType.ReadsBack) : ofJson? r.toJson = some r := by
  have names := r.nodup_slots
  have fits := r.plain_toJson.fits
  rw [toJson_eq] at fits ⊢
  have history : History.ofFields? (members r.slots) = some r.history :=
    r.history.ofFields?_members names
  have volatility : (members r.slots).optional "mode" Volatility.ofJson? = some r.volatility :=
    optional_members names rfl (fun _ => Json.noConfusion) fun v _ => v.ofJson?_toJson
  have arguments : (members r.slots).required "arguments" (Json.asList? Argument.ofJson?) =
      some r.arguments :=
    (required_members names rfl _).trans (Json.asList?_map fun a _ => a.ofJson?_toJson)
  have returnType : (members r.slots).required "returnType" ReturnType.ofJson? =
      some r.returnType :=
    (required_members names rfl _).trans (ReturnType.ofJson?_toJson h)
  have returnColumns : (members r.slots).optional "returnTable" (Json.asList? Column.ofJson?) =
      some r.returnColumns :=
    optional_members names rfl (fun _ => Json.noConfusion) fun cs _ =>
      Json.asList?_map fun c _ => c.ofJson?_toJson
  simp only [ofJson?, openFields?_members names fits, Option.bind_eq_bind, Option.bind_some,
    history, volatility, arguments, returnType, returnColumns]
  repeat rw [required_members names rfl]
  rfl

theorem readsBack_of_ofJson? {json : Json} {r : Routine} (h : ofJson? json = some r) :
    r.returnType.ReadsBack := by
  simp only [ofJson?, Option.bind_eq_bind, Option.bind_eq_some_iff, Option.pure_def,
    Option.some.injEq] at h
  obtain ⟨fields, -, _, -, _, -, _, -, _, -, _, -, returnType, hread, _, -, _, -, rfl⟩ := h
  obtain ⟨written, -, hreturn⟩ := Option.bind_eq_some_iff.1 hread
  obtain ⟨text, -, rfl⟩ := Option.map_eq_some_iff.1 hreturn
  exact ReturnType.readsBack_ofText _

end Routine

end ReleaseSchema
