/-
Functions and procedures: arguments, volatility and what they return.
-/
import ReleaseSchema.Schema.Column
import ReleaseSchema.Schema.History
import ReleaseSchema.Text.Ascii

namespace ReleaseSchema

open Text

inductive Volatility where
  | immutable
  | stable
  | volatile
  | leakproof
  deriving DecidableEq, Repr, Inhabited

inductive ArgumentMode where
  | in
  | out
  | inOut
  | variadic
  deriving DecidableEq, Repr, Inhabited

structure Argument where
  mode : ArgumentMode
  name : String
  type : String
  defaultValue : Option String
  deriving DecidableEq, Repr, Inhabited

inductive ReturnType where
  | void
  | table
  | setOf (type : String)
  | scalar (type : String)
  deriving DecidableEq, Repr, Inhabited

structure Routine where
  history : History
  dbPrefix : String := ""
  camelName : String := ""
  volatility : Option Volatility := none
  arguments : List Argument := []
  returnType : ReturnType := .void
  /-- The columns of a routine that returns a table. -/
  returnColumns : Option (List Column) := none
  /-- The routine replaces an older one of its name. -/
  replaces : Bool := false
  deriving DecidableEq, Inhabited

namespace Volatility

def all : List Volatility := [immutable, stable, volatile, leakproof]

def name : Volatility → String
  | immutable => "immutable"
  | stable => "stable"
  | volatile => "volatile"
  | leakproof => "leakproof"

def ofName? (name : String) : Option Volatility := all.find? fun v => v.name == name

/-- The volatility of a keyword in any case. -/
def ofKeyword? (word : List Char) : Option Volatility :=
  all.find? fun v => sameLetters v.name.toList word

def toJson (v : Volatility) : Json := .string v.name

def ofJson? (json : Json) : Option Volatility := json.asName? ofName?

end Volatility

namespace ArgumentMode

def all : List ArgumentMode := [.in, .out, .inOut, .variadic]

def name : ArgumentMode → String
  | .in => "in"
  | .out => "out"
  | .inOut => "inout"
  | .variadic => "variadic"

def ofName? (name : String) : Option ArgumentMode := all.find? fun m => m.name == name

/-- The mode of a keyword in any case. -/
def ofKeyword? (word : List Char) : Option ArgumentMode :=
  all.find? fun m => sameLetters m.name.toList word

def toJson (m : ArgumentMode) : Json := .string m.name

def ofJson? (json : Json) : Option ArgumentMode := json.asName? ofName?

end ArgumentMode

namespace Argument

def toJson (a : Argument) : Json :=
  .object <|
    [("mode", a.mode.toJson), ("name", .string a.name), ("type", .string a.type)] ++
    Json.optionalMember "defaultValue" (a.defaultValue.map .string)

def ofJson? (json : Json) : Option Argument := do
  let fields ← json.fields? ["mode", "name", "type", "defaultValue"]
  return {
    mode := ← fields.required "mode" ArgumentMode.ofJson?
    name := ← fields.required "name" Json.asString?
    type := ← fields.required "type" Json.asString?
    defaultValue := ← fields.optional "defaultValue" Json.asString? }

end Argument

namespace ReturnType

/-- Reads a return type as it is declared. -/
def ofText (text : List Char) : ReturnType :=
  let text := trim text
  if sameLetters text "void".toList then .void
  else if sameLetters text "table".toList then .table
  else if startsLike text "setof ".toList then
    .setOf (String.ofList (trim (text.drop "setof ".length)))
  else .scalar (String.ofList text)

def render : ReturnType → String
  | .void => "void"
  | .table => "table"
  | .setOf type => "setof " ++ type
  | .scalar type => type

def toJson (r : ReturnType) : Json := .string r.render

def ofJson? (json : Json) : Option ReturnType := json.asString?.map fun s => ofText s.toList

end ReturnType

namespace Routine

def fieldNames : List String :=
  ["dbPrefix", "camelCasedName", "mode", "arguments", "returnType", "returnTable",
    "hasOrReplace"]

def toJson (r : Routine) : Json :=
  .object <|
    r.history.toMembers ++
    [("dbPrefix", .string r.dbPrefix), ("camelCasedName", .string r.camelName)] ++
    Json.optionalMember "mode" (r.volatility.map Volatility.toJson) ++
    [("arguments", .array (r.arguments.map Argument.toJson)),
      ("returnType", r.returnType.toJson)] ++
    Json.optionalMember "returnTable"
      (r.returnColumns.map fun cs => .array (cs.map Column.toJson)) ++
    [("hasOrReplace", .bool r.replaces)]

def ofJson? (json : Json) : Option Routine := do
  let fields ← json.openFields? fieldNames History.fieldNames
  return {
    history := ← History.ofFields? fields
    dbPrefix := ← fields.required "dbPrefix" Json.asString?
    camelName := ← fields.required "camelCasedName" Json.asString?
    volatility := ← fields.optional "mode" Volatility.ofJson?
    arguments := ← fields.required "arguments" (Json.asList? Argument.ofJson?)
    returnType := ← fields.required "returnType" ReturnType.ofJson?
    returnColumns := ← fields.optional "returnTable" (Json.asList? Column.ofJson?)
    replaces := ← fields.required "hasOrReplace" Json.asBool? }

end Routine

end ReleaseSchema
