/-
Reading records out of JSON values. A record is an object with its fields in
any order, or an array of its fields in the order of their declaration. Fields
that nobody asks for are skipped, and a field given twice is refused.
-/
import ReleaseSchema.Json.Basic

namespace ReleaseSchema.Json

def asString? : Json → Option String
  | .string s => some s
  | _ => none

def asBool? : Json → Option Bool
  | .bool b => some b
  | _ => none

/-- Every item of an array through a reader. -/
def asList? (item : Json → Option α) : Json → Option (List α)
  | .array items => items.mapM item
  | _ => none

/-- Every member of an object through a reader of its value. -/
def asMembers? (value : Json → Option α) : Json → Option (List (String × α))
  | .object members => members.mapM fun (name, json) => (value json).map (name, ·)
  | _ => none

/-- A value that may be `null`. -/
def asOption? (value : Json → Option α) : Json → Option (Option α)
  | .null => some none
  | json => (value json).map some

/-- One of several names, written as a string or as the only name of an object with value `null`. -/
def asName? (ofName? : String → Option α) : Json → Option α
  | .string s => ofName? s
  | .object [(name, .null)] => ofName? name
  | _ => none

/-- The members of one record. -/
abbrev Fields := List (String × Json)

/-- No name of the list is given twice. -/
def givenOnce (names : List String) (members : Fields) : Bool :=
  names.all fun name => members.countP (·.1 == name) ≤ 1

/-- The fields of a record with the given field names. -/
def fields? (names : List String) : Json → Option Fields
  | .object members => if givenOnce names members then some members else none
  | .array items => if items.length ≤ names.length then some (names.zip items) else none
  | _ => none

/-- The fields of a record that contains another one, whose names are `inner`. Such a record is
always an object, and all of it but its `own` fields must be readable. -/
def openFields? (own inner : List String) : Json → Option Fields
  | .object members =>
    if givenOnce (own ++ inner) members &&
        members.all fun (name, value) => own.contains name || value.isReadable
    then some members else none
  | _ => none

namespace Fields

/-- A field that must be given. -/
def required (fields : Fields) (name : String) (value : Json → Option α) : Option α :=
  (fields.lookup name).bind value

/-- A field with a value of its own where it is not given. -/
def withDefault (fields : Fields) (name : String) (default : α) (value : Json → Option α) :
    Option α :=
  match fields.lookup name with
  | some json => value json
  | none => some default

/-- A field that may be missing or `null`. -/
def optional (fields : Fields) (name : String) (value : Json → Option α) : Option (Option α) :=
  fields.withDefault name none (asOption? value)

end Fields

/-- The member that writes an optional field. -/
def optionalMember (name : String) (value : Option Json) : List (String × Json) :=
  match value with
  | some json => [(name, json)]
  | none => []

end ReleaseSchema.Json
