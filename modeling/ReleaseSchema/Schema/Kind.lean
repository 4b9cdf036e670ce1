/-
The kinds of files in a release folder. A file's kind is told by a segment of
its path; kinds are ordered as they are declared.
-/
import ReleaseSchema.Json.Record
import ReleaseSchema.Text.Ascii
import ReleaseSchema.Text.Search

namespace ReleaseSchema

inductive Kind where
  | setup
  | table
  | type
  | function
  | data
  | sequence
  | index
  | view
  | trigger
  | foreignServers
  | userMappings
  | localTables
  | foreignTables
  | sourceSpecificAppSetup
  | dataTransfers
  | externalSystemIntegrations
  | dataExchange
  | usersRolesPermissions
  | fullTextCatalogues
  | unknown
  deriving DecidableEq, Repr, Inhabited

namespace Kind

/-- The kinds that objects of a catalog may have: all but `unknown`. -/
def buckets : List Kind :=
  [setup, table, type, function, data, sequence, index, view, trigger, foreignServers, userMappings,
    localTables, foreignTables, sourceSpecificAppSetup, dataTransfers, externalSystemIntegrations,
    dataExchange, usersRolesPermissions, fullTextCatalogues]

def all : List Kind := buckets ++ [unknown]

/-! ## Order of declaration -/

instance : LT Kind := ⟨fun a b => a.ctorIdx < b.ctorIdx⟩

instance : LE Kind := ⟨fun a b => a.ctorIdx ≤ b.ctorIdx⟩

instance : DecidableLT Kind := fun a b => inferInstanceAs (Decidable (a.ctorIdx < b.ctorIdx))

theorem ctorIdx_inj {a b : Kind} (h : a.ctorIdx = b.ctorIdx) : a = b := by
  cases a <;> cases b <;> first | rfl | exact absurd h (by decide)

instance : Std.IsLinearOrder Kind where
  le_refl _ := Nat.le_refl _
  le_trans _ _ _ := Nat.le_trans
  le_antisymm _ _ h h' := ctorIdx_inj (Nat.le_antisymm h h')
  le_total _ _ := Nat.le_total _ _

instance : Std.LawfulOrderLT Kind where
  lt_iff a b := Nat.lt_iff_le_and_not_ge (m := a.ctorIdx) (n := b.ctorIdx)

/-! ## Names -/

def name : Kind → String
  | setup => "setup"
  | table => "table"
  | type => "type"
  | function => "function"
  | data => "data"
  | sequence => "sequence"
  | index => "index"
  | view => "view"
  | trigger => "trigger"
  | foreignServers => "foreign-servers"
  | userMappings => "user-mappings"
  | localTables => "local-tables"
  | foreignTables => "foreign-tables"
  | sourceSpecificAppSetup => "source-specific-app-setup"
  | dataTransfers => "data-transfers"
  | externalSystemIntegrations => "external-system-integrations"
  | dataExchange => "data-exchange"
  | usersRolesPermissions => "users-roles-permissions"
  | fullTextCatalogues => "full-text-catalogues"
  | unknown => "unknown"

/-- The kind of exactly this name. -/
def ofName? (name : String) : Option Kind := all.find? fun kind => kind.name == name

/-- The kind of this name, with the case of ASCII letters ignored. -/
def ofWord? (word : String) : Option Kind :=
  all.find? fun kind => Text.sameLetters kind.name.toList word.toList

def toJson (kind : Kind) : Json := .string kind.name

def ofJson? (json : Json) : Option Kind := json.asName? ofName?

/-! ## Path segments -/

/-- The folder names that tell a file's kind, in the order in which they are looked for. -/
def segments : List (String × Kind) :=
  [("00-database-setup", setup), ("03-tables", table), ("0q-types", type),
    ("07-functions", function), ("09-data", data), ("04-sequences", sequence),
    ("05-indexes", index), ("06-views", view), ("08-triggers", trigger),
    ("00-foreign-servers", foreignServers), ("01-user-mappings", userMappings),
    ("02-local-tables", localTables), ("03-foreign-tables", foreignTables),
    ("04-source-specific-app-setup", sourceSpecificAppSetup),
    ("01-data-transfers", dataTransfers),
    ("02-external-system-integrations", externalSystemIntegrations),
    ("03-data-exchange", dataExchange), ("10-users-roles-permissions", usersRolesPermissions),
    ("11-full-text-catalogues", fullTextCatalogues)]

/-- The kind of the first segment that occurs anywhere in the path. A backslash counts as a slash.
-/
def ofPath (path : List Char) : Kind :=
  let path := Text.replaceChar '\\' '/' path
  match segments.find? fun (segment, _) => Text.contains segment.toList path with
  | some (_, kind) => kind
  | none => unknown

end Kind

end ReleaseSchema
