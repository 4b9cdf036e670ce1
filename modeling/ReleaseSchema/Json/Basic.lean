/-
JSON values. Objects keep their members in the order written, repeated names
included; `value?` gives the plain value that a document stands for, in which
each name occurs once.
-/
import ReleaseSchema.Bindings

namespace ReleaseSchema

/-- A JSON text as a tree. `unreadable` stands for a part that is grammatical but must not be used:
a string with an unpaired surrogate, an object with such a name, or a container nested too deep. -/
inductive Json where
  | null
  | bool (b : Bool)
  /-- A number, kept as it is written. A reader into integers of 64 bits and binary floating point
  does the same of such integers, but it writes fractions, exponents and greater integers anew, and
  refuses `1e999`; documents that hold those are not meant. -/
  | number (literal : String)
  | string (s : String)
  | array (items : List Json)
  | object (members : List (String × Json))
  | unreadable

namespace Json

mutual

/-- No part of the tree is unreadable. -/
def isReadable : Json → Bool
  | .unreadable => false
  | .array items => areReadable items
  | .object members => areReadableMembers members
  | _ => true

def areReadable : List Json → Bool
  | [] => true
  | item :: rest => item.isReadable && areReadable rest

def areReadableMembers : List (String × Json) → Bool
  | [] => true
  | (_, value) :: rest => value.isReadable && areReadableMembers rest

end

mutual

/-- Every object of the tree with each name once. -/
def distinct : Json → Json
  | .array items => .array (distinctItems items)
  | .object members => .object (Bindings.distinct (distinctValues members))
  | json => json

def distinctItems : List Json → List Json
  | [] => []
  | item :: rest => item.distinct :: distinctItems rest

def distinctValues : List (String × Json) → List (String × Json)
  | [] => []
  | (name, value) :: rest => (name, value.distinct) :: distinctValues rest

end

/-- The plain value of a tree whose every part may be used. -/
def value? (json : Json) : Option Json := if json.isReadable then some json.distinct else none

end Json

end ReleaseSchema
