/-
The camel case names of columns. A name is taken from a tag, or made of what the
conventions leave of the column's name (`afterSuffix?_eq_some_iff`,
`foreignKeyRest?_eq_some_iff`).

Camel case drops underscores, so a column comes out without a name when its tag
gives the empty text, or when no tag gives one and the conventions leave nothing
but underscores; else it has one (`camelName_of_column?`).
-/
import ReleaseSchema.Proofs.Ddl.ColumnDefinition
import ReleaseSchema.Proofs.Text.Case
import ReleaseSchema.Proofs.Text.Search

namespace ReleaseSchema.Ddl

open Text WrittenColumn

/-! ## Conventions -/

section Conventions

variable {suffix name rest : List Char}

/-- The table's suffix in front of a name, with an underscore and something behind it. -/
theorem afterSuffix?_eq_some_iff :
    afterSuffix? suffix name = some rest ↔
      rest ≠ [] ∧ ∃ own, sameLetters own suffix = true ∧ name = own ++ '_' :: rest := by
  constructor
  · intro h
    unfold afterSuffix? at h
    split at h
    next begins =>
      obtain ⟨own, behind, rfl, hown⟩ := startsLike_iff.1 begins
      rw [← length_eq_of_sameLetters hown, List.drop_left] at h
      split at h
      next c more =>
        cases h
        exact ⟨List.cons_ne_nil _ _, own, hown, rfl⟩
      next => cases h
    next => cases h
  · rintro ⟨hne, own, hown, rfl⟩
    obtain ⟨c, more, rfl⟩ := List.exists_cons_of_ne_nil hne
    have begins : startsLike (own ++ '_' :: c :: more) suffix = true :=
      startsLike_iff.2 ⟨own, _, rfl, hown⟩
    rw [afterSuffix?, if_pos begins, ← length_eq_of_sameLetters hown, List.drop_left]
    rfl

/-- The mark of a foreign key in front of a name, then the code of the table referred to and the own
suffix, with underscores behind them and something behind the last. -/
theorem foreignKeyRest?_eq_some_iff :
    foreignKeyRest? suffix name = some rest ↔
      byteLength suffix = 3 ∧ rest ≠ [] ∧ ∃ mark referred own,
        sameLetters mark "fk_".toList = true ∧
        (referred.length = 3 ∧ referred.all isAsciiAlphanumeric = true) ∧
        sameLetters own suffix = true ∧ name = mark ++ (referred ++ '_' :: (own ++ '_' :: rest)) := by
  constructor
  · intro h
    unfold foreignKeyRest? at h
    split at h
    next f k u a b c behind =>
      split at h
      next codes =>
        obtain ⟨bytes, mark, code⟩ := codes
        obtain ⟨hne, own, hown, rfl⟩ := afterSuffix?_eq_some_iff.1 h
        exact ⟨bytes, hne, [f, k, u], [a, b, c], own, mark, ⟨rfl, code⟩, hown, rfl⟩
      next => cases h
    next => cases h
  · rintro ⟨bytes, hne, mark, referred, own, hmark, ⟨three, code⟩, hown, rfl⟩
    have behind : afterSuffix? suffix (own ++ '_' :: rest) = some rest :=
      afterSuffix?_eq_some_iff.2 ⟨hne, own, hown, rfl⟩
    match mark, length_eq_of_sameLetters hmark, referred, three with
    | [f, k, u], _, [a, b, c], _ =>
      exact (if_pos ⟨bytes, hmark, code⟩).trans behind

theorem getLast?_of_isKeyName (h : isKeyName name = true) :
    ∃ last, name.getLast? = some last ∧ foldCase last = 'd' := by
  simp only [isKeyName, Bool.and_eq_true, List.isSuffixOf_iff_suffix] at h
  obtain ⟨front, hfront⟩ := h.1.1.2
  have last : (name.map foldCase).getLast? = some 'd' := by
    rw [← hfront, List.getLast?_append]
    rfl
  rwa [List.getLast?_map, Option.map_eq_some_iff] at last

end Conventions

/-! ## Names of underscores -/

/-- Nothing but underscores is left of a column name when the conventions have taken off what they
know: the suffix of its table, or the codes of a foreign key. -/
inductive LeavesUnderscores (suffix : List Char) : List Char → Prop
  | alone {name : List Char} (h : IsUnderscores name) : LeavesUnderscores suffix name
  | behindSuffix {own rest : List Char} (hsuffix : suffix ≠ [])
      (hown : sameLetters own suffix = true) (hne : rest ≠ []) (h : IsUnderscores rest) :
      LeavesUnderscores suffix (own ++ '_' :: rest)
  | behindCodes {mark referred own rest : List Char} (bytes : byteLength suffix = 3)
      (hmark : sameLetters mark "fk_".toList = true)
      (hreferred : referred.length = 3 ∧ referred.all isAsciiAlphanumeric = true)
      (hown : sameLetters own suffix = true) (hne : rest ≠ []) (h : IsUnderscores rest) :
      LeavesUnderscores suffix (mark ++ (referred ++ '_' :: (own ++ '_' :: rest)))

namespace LeavesUnderscores

variable {suffix name rest : List Char}

theorem getLast?_append (front : List Char) (hne : rest ≠ []) (h : IsUnderscores rest) :
    (front ++ rest).getLast? = some '_' := by
  rw [List.getLast?_append_of_ne_nil _ hne, List.getLast?_eq_some_getLast hne,
    h _ (List.getLast_mem hne)]

theorem getLast? (h : LeavesUnderscores suffix name) : name = [] ∨ name.getLast? = some '_' := by
  cases h with
  | alone h =>
    by_cases hne : name = []
    · exact .inl hne
    · exact .inr (getLast?_append [] hne h)
  | behindSuffix _ hown hne h =>
    right
    rw [List.append_cons]
    exact getLast?_append _ hne h
  | @behindCodes mark referred own rest _ _ _ _ hne h =>
    have parts : mark ++ (referred ++ '_' :: (own ++ '_' :: rest)) =
        (mark ++ (referred ++ '_' :: (own ++ ['_']))) ++ rest := by simp
    rw [parts]
    exact .inr (getLast?_append _ hne h)

theorem not_isKeyName (h : LeavesUnderscores suffix name) : isKeyName name = false := by
  rw [← Bool.not_eq_true]
  intro key
  obtain ⟨last, hlast, letter⟩ := getLast?_of_isKeyName key
  rcases h.getLast? with rfl | ends
  · cases hlast
  · rw [hlast, Option.some.injEq] at ends
    subst ends
    exact absurd letter (by decide)

/-- Behind the codes of a foreign key it is what is behind them that counts. -/
theorem iff_of_foreignKeyRest? (hrest : foreignKeyRest? suffix name = some rest) :
    LeavesUnderscores suffix name ↔ IsUnderscores rest := by
  obtain ⟨bytes, hne, mark, referred, own, hmark, hreferred, hown, hname⟩ :=
    foreignKeyRest?_eq_some_iff.1 hrest
  constructor
  · intro h
    cases h with
    | alone h =>
      refine fun c hc => h c ?_
      simp [hname, hc]
    | @behindSuffix other rest' _ hother _ h =>
      -- the suffix ends in front of the code referred to, which has no underscore
      have short : other.length ≤ mark.length := by
        rw [length_eq_of_sameLetters hother, length_eq_of_sameLetters hmark]
        exact (length_le_byteLength suffix).trans (Nat.le_of_eq bytes)
      have behind : referred ++ '_' :: (own ++ '_' :: rest) <:+ '_' :: rest' := by
        refine List.suffix_of_suffix_length_le ⟨mark, rfl⟩ ⟨other, hname⟩ ?_
        have lengths := congrArg List.length hname
        rw [List.length_append, List.length_append] at lengths
        omega
      obtain ⟨letter, hletter⟩ := List.exists_mem_of_length_pos (l := referred) (by omega)
      have underscores : IsUnderscores ('_' :: rest') := List.forall_mem_cons.2 ⟨rfl, h⟩
      have code := List.all_eq_true.1 hreferred.2 letter hletter
      rw [underscores letter (behind.mem (List.mem_append_left _ hletter))] at code
      exact absurd code (by decide)
    | behindCodes bytes' hmark' hreferred' hown' hne' h =>
      have same := foreignKeyRest?_eq_some_iff.2
        ⟨bytes', hne', _, _, _, hmark', hreferred', hown', rfl⟩
      rw [hrest, Option.some.injEq] at same
      exact same ▸ h
  · intro h
    rw [hname]
    exact .behindCodes bytes hmark hreferred hown hne h

/-- Behind the suffix of the table it is what is behind that that counts. -/
theorem iff_of_afterSuffix? (noCodes : foreignKeyRest? suffix name = none) (hsuffix : suffix ≠ [])
    (hrest : afterSuffix? suffix name = some rest) :
    LeavesUnderscores suffix name ↔ IsUnderscores rest := by
  obtain ⟨hne, own, hown, hname⟩ := afterSuffix?_eq_some_iff.1 hrest
  constructor
  · intro h
    cases h with
    | alone h =>
      refine fun c hc => h c ?_
      simp [hname, hc]
    | behindSuffix _ hown' hne' h =>
      have same := afterSuffix?_eq_some_iff.2 ⟨hne', _, hown', rfl⟩
      rw [hrest, Option.some.injEq] at same
      exact same ▸ h
    | behindCodes bytes hmark hreferred hown' hne' _ =>
      have found := foreignKeyRest?_eq_some_iff.2
        ⟨bytes, hne', _, _, _, hmark, hreferred, hown', rfl⟩
      rw [noCodes] at found
      cases found
  · intro h
    rw [hname]
    exact .behindSuffix hsuffix hown hne h

/-- Where the conventions take nothing off, it is the whole name that counts. -/
theorem iff_of_eq_none (noCodes : foreignKeyRest? suffix name = none)
    (noSuffix : suffix = [] ∨ afterSuffix? suffix name = none) :
    LeavesUnderscores suffix name ↔ IsUnderscores name := by
  constructor
  · intro h
    cases h with
    | alone h => exact h
    | behindSuffix hsuffix hown hne _ =>
      have found := afterSuffix?_eq_some_iff.2 ⟨hne, _, hown, rfl⟩
      rw [noSuffix.resolve_left hsuffix] at found
      cases found
    | behindCodes bytes hmark hreferred hown hne _ =>
      have found := foreignKeyRest?_eq_some_iff.2
        ⟨bytes, hne, _, _, _, hmark, hreferred, hown, rfl⟩
      rw [noCodes] at found
      cases found
  · exact .alone

end LeavesUnderscores

/-! ## The column -/

section Column

variable {fragment name : List Char} {suffix : String} {tags : TagMap} {column : Column}

theorem ofList_camelCase_eq_empty_iff : String.ofList (camelCase name) = "" ↔ IsUnderscores name := by
  rw [← camelCase_eq_nil_iff, ← String.ofList_nil, String.ofList_inj]

theorem columnCamelName_of_tag {given : String}
    (h : (tags.get? "camel-cased-name").bind (·.value.text?) = some given) :
    columnCamelName name suffix tags = given := by
  unfold columnCamelName
  rw [h]

/-- The conventions find no name where they leave nothing but underscores. -/
theorem columnCamelName_eq_empty_iff
    (noTag : (tags.get? "camel-cased-name").bind (·.value.text?) = none) :
    columnCamelName name suffix tags = "" ↔ LeavesUnderscores suffix.toList name := by
  unfold columnCamelName
  rw [noTag]
  dsimp only
  split
  next rest hrest =>
    rw [ofList_camelCase_eq_empty_iff, LeavesUnderscores.iff_of_foreignKeyRest? hrest]
  next noCodes =>
    split
    next key =>
      refine iff_of_false (by decide) fun h => ?_
      rw [h.not_isKeyName] at key
      cases key
    next =>
      split
      next hsuffix =>
        have hsuffix : suffix.toList = [] := by simpa using hsuffix
        rw [ofList_camelCase_eq_empty_iff, LeavesUnderscores.iff_of_eq_none noCodes (.inl hsuffix)]
      next hsuffix =>
        have hsuffix : suffix.toList ≠ [] := by simpa using hsuffix
        rw [ofList_camelCase_eq_empty_iff]
        cases hrest : afterSuffix? suffix.toList name with
        | some rest =>
          rw [Option.getD_some, LeavesUnderscores.iff_of_afterSuffix? noCodes hsuffix hrest]
        | none => rw [Option.getD_none, LeavesUnderscores.iff_of_eq_none noCodes (.inr hrest)]

/-- **Columns without a camel case name.** A column has the empty camel case name if and only if a tag
gives it the empty text, or no tag gives it a text and nothing but underscores is left of its name
when the conventions have taken off what they know. -/
theorem camelName_of_column? (h : column? fragment suffix = some column) :
    let given := (column.tags.get? "camel-cased-name").bind (·.value.text?)
    column.camelName = "" ↔
      given = some "" ∨ given = none ∧ LeavesUnderscores suffix.toList column.name.toList := by
  intro given
  rw [(derives_of_column? h).1.camelName]
  cases hgiven : given with
  | none => simp [columnCamelName_eq_empty_iff hgiven]
  | some text => simp [columnCamelName_of_tag hgiven]

/-- The tag gives no text, and behind the suffix there is one underscore more. -/
theorem camelName_of_column?_underscore :
    let fragment := "usr__ integer not null /* #camel-cased-name #sort */".toList
    ∃ column, column? fragment "usr" = some column ∧
      LeavesUnderscores "usr".toList column.name.toList ∧ column.camelName = "" := by
  intro fragment
  have read : (column? fragment "usr").isSome = true := by decide +kernel
  obtain ⟨column, hcolumn⟩ := Option.isSome_iff_exists.1 read
  have found : (column? fragment "usr").map (fun c =>
      (c.name, (c.tags.get? "camel-cased-name").bind (·.value.text?))) = some ("usr__", none) := by
    decide +kernel
  rw [hcolumn, Option.map_some, Option.some.injEq, Prod.mk.injEq] at found
  have bare : LeavesUnderscores "usr".toList column.name.toList := by
    rw [found.1, show "usr__".toList = "usr".toList ++ '_' :: "_".toList by decide +kernel]
    exact .behindSuffix (by decide) (by decide) (by decide) (by decide)
  exact ⟨column, hcolumn, bare, (camelName_of_column? hcolumn).2 (.inr ⟨found.2, bare⟩)⟩

/-- A tag of the empty text, a name that is all underscores behind the suffix, and an empty name in
quotes. -/
theorem camelName_of_empty_tag :
    let read := fun fragment : String => (column? fragment.toList "usr").map (·.camelName)
    read "usr_code text /* #camel-cased-name='' */" = some "" ∧ read "usr__ int" = some "" ∧
      read "\"\" int" = some "" := by
  decide +kernel

end Column

end ReleaseSchema.Ddl
