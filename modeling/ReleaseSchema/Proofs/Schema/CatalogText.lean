/-
Texts of catalogs. A catalog that was built from manifests, or read from JSON of
any origin, is read back from either of its texts as the same value
(`Catalog.ofText?_text`). In a text a table may have several columns of one name,
so that they are read back too; a store keeps one of them.
-/
import ReleaseSchema.Proofs.Build
import ReleaseSchema.Proofs.Json.RoundTrip
import ReleaseSchema.Proofs.Release.Order

namespace ReleaseSchema.Catalog

/-- The catalog of a JSON text. -/
def ofText? (text : String) : Option Catalog := (Json.parse? text).bind ofJson?

/-- The ways in which one comes by a catalog. -/
inductive IsMade : Catalog → Prop
  | built (manifests : List Manifest) (sources : Sources) : IsMade (build manifests sources)
  | read {json : Json} {c : Catalog} (h : ofJson? json = some c) : IsMade c

variable {c : Catalog}

theorem IsMade.readsBack (h : c.IsMade) : c.ReadsBack := by
  cases h with
  | built manifests sources => exact readsBack_build manifests sources
  | read h => exact readsBack_of_ofJson? h

theorem fits_maxDepth (c : Catalog) : Json.Fits Json.maxDepth c.toJson :=
  c.fits_toJson.mono (by decide)

/-- **Texts of catalogs.** Whether a catalog was built or read, each of its texts is read as the
same catalog: every bucket, every entry in its own form, every column in its place, columns of one
name included. -/
theorem ofText?_text (h : c.IsMade) :
    ofText? c.toJson.compact = some c ∧ ofText? c.toJson.pretty = some c := by
  have read : ofJson? c.toJson = some c := ofJson?_toJson h.readsBack
  constructor
  · rw [ofText?, Json.parse?_compact c.fits_maxDepth, Option.bind_some, read]
  · rw [ofText?, Json.parse?_pretty c.fits_maxDepth, Option.bind_some, read]

/-- A table with two columns of one name is read with both of them. -/
theorem ofText?_text_repeated_column :
    let built := build [Manifest.ofUserTable "1.0.0.0"]
      fun _ => some "create table abct_user_usr (usr_a int, usr_a text not null);"
    built.tables.flatMap (·.columns.map (·.name)) = ["usr_a", "usr_a"] ∧ built.IsMade ∧
      ofText? built.toJson.compact = some built ∧ ofText? built.toJson.pretty = some built := by
  intro built
  have columns : built.tables.flatMap (·.columns.map (·.name)) = ["usr_a", "usr_a"] := by
    decide +kernel
  have made : built.IsMade := .built _ _
  exact ⟨columns, made, ofText?_text made⟩

end ReleaseSchema.Catalog
