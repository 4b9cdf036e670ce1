/-
Columns named by the convention of foreign keys: the mark, the codes of the table referred
to and of the table that refers, and a word. No other convention applies to such a name,
whichever table it is on (`columnCamelName_chars`): it begins with no mark of a primary
key, and a suffix would take up its mark and then need an underscore where a code begins.
-/
import ReleaseSchema.Proofs.Ddl.ColumnCamelName
import ReleaseSchema.Proofs.Ddl.QuotedColumn

namespace ReleaseSchema.Ddl

open Text WrittenColumn

/-- The code of a table: three ASCII letters or digits. -/
structure IsCode (code : List Char) : Prop where
  three : code.length = 3
  alphanumeric : code.all isAsciiAlphanumeric = true

instance (code : List Char) : Decidable (IsCode code) :=
  decidable_of_iff (code.length = 3 ∧ code.all isAsciiAlphanumeric = true)
    ⟨fun ⟨three, alphanumeric⟩ => ⟨three, alphanumeric⟩, fun h => ⟨h.three, h.alphanumeric⟩⟩

/-- The parts of a name such as `fk_abc_xyz_owner_id`. -/
structure ForeignKeyName where
  referred : List Char
  own : List Char
  word : List Char
  isCode_referred : IsCode referred
  isCode_own : IsCode own
  nonempty : word ≠ []
  allWord : ∀ c ∈ word, isWord c = true

namespace IsCode

variable {code : List Char}

theorem isAsciiAlphanumeric_of_mem (h : IsCode code) {c : Char} (hc : c ∈ code) :
    isAsciiAlphanumeric c = true :=
  List.all_eq_true.1 h.alphanumeric c hc

theorem byteLength (h : IsCode code) : byteLength code = 3 := by
  rw [byteLength_of_ascii fun c hc =>
    toNat_lt_of_isAsciiAlphanumeric (h.isAsciiAlphanumeric_of_mem hc), h.three]

theorem ne_nil (h : IsCode code) : code ≠ [] := by
  rintro rfl
  cases h.three

end IsCode

namespace ForeignKeyName

variable (n : ForeignKeyName) {suffix : List Char}

/-- The name as it is written. -/
def chars : List Char := "fk_".toList ++ (n.referred ++ '_' :: (n.own ++ '_' :: n.word))

theorem isWord_chars : ∀ c ∈ n.chars, isWord c = true := by
  have code {code : List Char} (h : IsCode code) : ∀ c ∈ code, isWord c = true :=
    fun c hc => isWord_of_isAsciiAlphanumeric (h.isAsciiAlphanumeric_of_mem hc)
  have mark : ∀ c ∈ "fk_".toList, isWord c = true := List.all_eq_true.1 (by decide)
  have underscore : isWord '_' = true := by decide
  simp only [chars, List.forall_mem_append, List.forall_mem_cons]
  exact ⟨mark, code n.isCode_referred, underscore, code n.isCode_own, underscore, n.allWord⟩

theorem foreignKeyRest?_chars (h : IsCode suffix) :
    foreignKeyRest? suffix n.chars = if sameLetters n.own suffix then some n.word else none := by
  split
  next same =>
    exact foreignKeyRest?_eq_some_iff.2 ⟨h.byteLength, n.nonempty, _, n.referred, n.own, by decide,
      ⟨n.isCode_referred.three, n.isCode_referred.alphanumeric⟩, same, rfl⟩
  next differs =>
    cases found : foreignKeyRest? suffix n.chars with
    | none => rfl
    | some rest =>
      obtain ⟨-, -, mark, referred, own, hmark, ⟨three, -⟩, hown, hname⟩ :=
        foreignKeyRest?_eq_some_iff.1 found
      have marks : "fk_".toList.length = mark.length := (length_eq_of_sameLetters hmark).symm
      have codes : n.referred.length = referred.length := n.isCode_referred.three.trans three.symm
      have owns : n.own.length = own.length := by
        rw [length_eq_of_sameLetters hown, n.isCode_own.three, h.three]
      obtain ⟨-, hname⟩ := List.append_inj hname marks
      obtain ⟨-, hname⟩ := List.append_inj hname codes
      obtain ⟨rfl, -⟩ := List.append_inj (List.cons.inj hname).2 owns
      exact absurd hown differs

/-- A suffix is as long as the mark of a foreign key, and no underscore is behind that. -/
theorem afterSuffix?_chars (h : IsCode suffix) : afterSuffix? suffix n.chars = none := by
  cases found : afterSuffix? suffix n.chars with
  | none => rfl
  | some rest =>
    obtain ⟨-, own, hown, hname⟩ := afterSuffix?_eq_some_iff.1 found
    have marks : "fk_".toList.length = own.length := by
      rw [length_eq_of_sameLetters hown, h.three]
      rfl
    obtain ⟨-, hname⟩ := List.append_inj hname marks
    obtain ⟨c, referred, hreferred⟩ := List.exists_cons_of_ne_nil n.isCode_referred.ne_nil
    rw [hreferred, List.cons_append] at hname
    obtain ⟨rfl, -⟩ := List.cons.inj hname
    have code := n.isCode_referred.isAsciiAlphanumeric_of_mem (hreferred ▸ List.mem_cons_self)
    exact absurd code (by decide)

theorem isKeyName_chars : isKeyName n.chars = false := by
  have mark : "pk_".toList.isPrefixOf (n.chars.map foldCase) = false := rfl
  simp only [isKeyName, mark, Bool.false_and]

/-- Without a tag the name is the word on the table with the own code, and else all of the name. -/
theorem columnCamelName_chars {suffix : String} {tags : TagMap} (h : IsCode suffix.toList)
    (noTag : (tags.get? "camel-cased-name").bind (·.value.text?) = none) :
    columnCamelName n.chars suffix tags = String.ofList
      (camelCase (if sameLetters n.own suffix.toList then n.word else n.chars)) := by
  have suffixed : suffix.isEmpty = false := by
    rw [← Bool.not_eq_true, String.isEmpty_iff]
    rintro rfl
    exact absurd h (by decide)
  unfold columnCamelName
  rw [noTag, n.foreignKeyRest?_chars h]
  by_cases same : sameLetters n.own suffix.toList = true
  · rw [if_pos same, if_pos same]
  · rw [if_neg same, if_neg same, n.isKeyName_chars, suffixed, n.afterSuffix?_chars h]
    rfl

/-- The name with its quotes, if it is written between quotes. -/
def written (quoted : Bool) : WrittenName where
  word := n.chars
  quoted := quoted
  nonempty := List.cons_ne_nil _ _
  allWord := n.isWord_chars

/-- **Columns of foreign keys.** A column without a tag for it, whose name follows the convention of
foreign keys, is named after the word behind the codes if the own code is the suffix of the table in
any case, and otherwise after the whole name. -/
theorem camelName_of_foreignKeyName {fragment tail : List Char} {suffix : String} {quoted : Bool}
    (code : IsCode suffix.toList)
    (named : Sql.withoutComments fragment = (n.written quoted).render ++ tail)
    (ends : Stops (!isBlank ·) tail)
    (noTag : ((Tag.scanMap fragment).get? "camel-cased-name").bind (·.value.text?) = none) :
    ∃ column, column? fragment suffix = some column ∧ column.name = String.ofList n.chars ∧
      column.camelName = String.ofList
        (camelCase (if sameLetters n.own suffix.toList then n.word else n.chars)) := by
  obtain ⟨nonempty, noBlank⟩ := (n.written quoted).render_noBlank
  have remains : Sql.withoutComments fragment ≠ [] := by
    rw [named]
    exact fun hnil => nonempty (List.append_eq_nil_iff.1 hnil).1
  obtain ⟨column, hcolumn⟩ := Option.isSome_iff_exists.1 (column?_isSome remains suffix)
  obtain ⟨derives, tags⟩ := derives_of_column? hcolumn
  have name : column.name = String.ofList n.chars := by
    rw [(name_type_of_column? hcolumn).1, named,
      takeWhile_run (fun c hc => by simp [noBlank c hc]) ends, WrittenName.unquoteName_render]
    rfl
  refine ⟨column, hcolumn, name, ?_⟩
  rw [derives.camelName, name, String.toList_ofList, tags]
  exact n.columnCamelName_chars code noTag

/-- The name of a column that refers to the owner. -/
def owner : ForeignKeyName where
  referred := "abc".toList
  own := "xyz".toList
  word := "owner_id".toList
  isCode_referred := by decide
  isCode_own := by decide
  nonempty := by decide
  allWord := List.all_eq_true.1 (by decide)

/-- On the table of the own code and on another one. -/
theorem camelName_of_foreignKeyName_owner :
    (∃ column, column? "fk_abc_xyz_owner_id integer /* the owner */".toList "XYZ" = some column ∧
      column.camelName = "ownerId") ∧
    ∃ column, column? "\"fk_abc_xyz_owner_id\" integer not null".toList "qqq" = some column ∧
      column.camelName = "fkAbcXyzOwnerId" := by
  constructor
  · obtain ⟨column, hcolumn, -, camelName⟩ := @camelName_of_foreignKeyName owner
      "fk_abc_xyz_owner_id integer /* the owner */".toList " integer".toList "XYZ" false
      (by decide) (by decide +kernel) (by decide) (by decide +kernel)
    exact ⟨column, hcolumn, camelName.trans (by decide +kernel)⟩
  · obtain ⟨column, hcolumn, -, camelName⟩ := @camelName_of_foreignKeyName owner
      "\"fk_abc_xyz_owner_id\" integer not null".toList " integer not null".toList "qqq" true
      (by decide) (by decide +kernel) (by decide) (by decide +kernel)
    exact ⟨column, hcolumn, camelName.trans (by decide +kernel)⟩

end ForeignKeyName

end ReleaseSchema.Ddl
