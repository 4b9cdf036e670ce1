/-
The conventions of column names, cut at byte offsets. A suffix or the codes of a foreign key
are cut out of a name where an underscore was read, and the byte of an underscore is a place
between characters, so no cut is refused, and what is found is what the conventions leave
(`afterSuffixAt_eq`, `foreignKeyRestAt_eq`).
-/
import ReleaseSchema.Proofs.Ddl.ColumnCamelName
import ReleaseSchema.Proofs.Text.Slice

namespace ReleaseSchema.Ddl

open Text

variable {suffix name mark referred own rest : List Char}

/-! ## Suffixes -/

/-- What follows the table's suffix and an underscore, cut at the length of the suffix. -/
def afterSuffixAt (suffix name : List Char) : Except OffsetError (Option (List Char)) := do
  if byteLength suffix + 1 < byteLength name then
    let behind ← byteAt name (byteLength suffix)
    if behind = '_'.toUInt8 then
      let own ← slice name 0 (byteLength suffix)
      if sameLetters own suffix then
        return some (← slice name (byteLength suffix + 1) (byteLength name))
      else return none
    else return none
  else return none

/-- With an underscore at the length of the suffix, and something behind it, every cut succeeds. -/
theorem afterSuffixAt_of_underscore (length : byteLength own = byteLength suffix)
    (hne : rest ≠ []) : afterSuffixAt suffix (own ++ '_' :: rest) =
      .ok (if sameLetters own suffix then some rest else none) := by
  have one : byteLength (own ++ ['_']) = byteLength suffix + 1 := by
    rw [byteLength_append, length]
    rfl
  have longer : byteLength suffix + 1 < byteLength (own ++ '_' :: rest) := by
    rw [List.append_cons, byteLength_append, one]
    exact Nat.lt_add_of_pos_right (byteLength_pos hne)
  have behind : byteAt (own ++ '_' :: rest) (byteLength suffix) = .ok '_'.toUInt8 :=
    (byteAt_eq_ok_iff (by decide)).2 ⟨own, rest, rfl, length⟩
  have front : slice (own ++ '_' :: rest) 0 (byteLength suffix) = .ok own :=
    slice_eq_ok_iff.2 ⟨[], '_' :: rest, rfl, rfl, length⟩
  have left : slice (own ++ '_' :: rest) (byteLength suffix + 1) (byteLength (own ++ '_' :: rest)) =
      .ok rest := by
    rw [List.append_cons, ← one]
    exact slice_end (own ++ ['_']) rest
  simp only [afterSuffixAt, if_pos longer, behind, front, left, bind, Except.bind, if_true]
  split <;> rfl

/-- **Suffixes at byte offsets.** Every cut succeeds, and finds what follows the suffix. -/
theorem afterSuffixAt_eq (suffix name : List Char) :
    afterSuffixAt suffix name = .ok (afterSuffix? suffix name) := by
  cases h : afterSuffix? suffix name with
  | some rest =>
    obtain ⟨hne, own, hown, rfl⟩ := afterSuffix?_eq_some_iff.1 h
    rw [afterSuffixAt_of_underscore (byteLength_eq_of_sameLetters hown) hne, if_pos hown]
  | none =>
    by_cases longer : byteLength suffix + 1 < byteLength name
    · obtain ⟨behind, hbehind⟩ := exists_byteAt (Nat.lt_of_succ_lt longer)
      by_cases underscore : behind = '_'.toUInt8
      · rw [underscore, byteAt_eq_ok_iff (by decide)] at hbehind
        obtain ⟨own, rest, rfl, length⟩ := hbehind
        have hne : rest ≠ [] := by
          rintro rfl
          rw [byteLength_append, length] at longer
          exact absurd longer (Nat.lt_irrefl _)
        have other : ¬sameLetters own suffix = true := fun hown => by
          rw [afterSuffix?_eq_some_iff.2 ⟨hne, own, hown, rfl⟩] at h
          cases h
        rw [afterSuffixAt_of_underscore length hne, if_neg other]
      · simp only [afterSuffixAt, if_pos longer, hbehind, bind, Except.bind, if_neg underscore]
        rfl
    · rw [afterSuffixAt, if_neg longer]
      rfl

/-! ## Foreign keys -/

/-- What follows the codes of a foreign key's name, cut behind its third, seventh and eleventh byte.
-/
def foreignKeyRestAt (suffix name : List Char) : Except OffsetError (Option (List Char)) := do
  let lower := lowerAscii name
  if byteLength suffix ≠ 3 ∨ byteLength lower < 12 ∨ ¬"fk_".toList <+: lower then return none
  else
    let behindReferred ← byteAt lower 6
    if behindReferred = '_'.toUInt8 then
      let behindOwn ← byteAt lower 10
      if behindOwn = '_'.toUInt8 then
        let referred ← slice lower 3 6
        let own ← slice lower 7 10
        if (bytes referred).all isCodeByte && sameLetters own suffix then
          return some (← slice name 11 (byteLength name))
        else return none
      else return none
    else return none

theorem lowerAscii_append (a b : List Char) : lowerAscii (a ++ b) = lowerAscii a ++ lowerAscii b :=
  List.map_append

theorem lowerAscii_cons (c : Char) (text : List Char) :
    lowerAscii (c :: text) = c.toLower :: lowerAscii text := rfl

theorem exists_of_lowerAscii_underscore {a b : List Char} (h : lowerAscii name = a ++ '_' :: b) :
    ∃ front back, name = front ++ '_' :: back ∧ lowerAscii front = a ∧ lowerAscii back = b := by
  obtain ⟨front, behind, rfl, hfront, hbehind⟩ := List.map_eq_append_iff.1 h
  obtain ⟨c, back, rfl, hc, hback⟩ := List.map_eq_cons_iff.1 hbehind
  rw [eq_of_toLower (by decide) hc]
  exact ⟨front, back, rfl, hfront, hback⟩

/-- With underscores behind six and ten bytes of a text that begins with the mark, codes of three
bytes are between them. -/
theorem exists_codes_lower {text : List Char} (long : 12 ≤ byteLength text)
    (hmark : "fk_".toList <+: text) (behindReferred : byteAt text 6 = .ok '_'.toUInt8)
    (behindOwn : byteAt text 10 = .ok '_'.toUInt8) :
    ∃ referred own rest, text = "fk_".toList ++ (referred ++ '_' :: (own ++ '_' :: rest)) ∧
      byteLength referred = 3 ∧ byteLength own = 3 ∧ rest ≠ [] := by
  obtain ⟨behindMark, rfl⟩ := hmark
  obtain ⟨upToReferred, behind, hreferred, six⟩ := (byteAt_eq_ok_iff (by decide)).1 behindReferred
  obtain ⟨upToOwn, rest, hown, ten⟩ := (byteAt_eq_ok_iff (by decide)).1 behindOwn
  have three : byteLength "fk_".toList = 3 := rfl
  obtain ⟨referred, rfl, rfl⟩ := exists_append_of_byteLength_le hreferred (by omega)
  have underscore : byteLength (("fk_".toList ++ referred) ++ ['_']) = 7 := by
    rw [byteLength_append, six]
    rfl
  rw [← List.append_assoc, List.append_cons] at hown
  obtain ⟨own, rfl, rfl⟩ := exists_append_of_byteLength_le hown (by omega)
  rw [byteLength_append] at six
  rw [byteLength_append, underscore] at ten
  refine ⟨referred, own, rest, rfl, by omega, by omega, ?_⟩
  rintro rfl
  have short : byteLength ("fk_".toList ++ (referred ++ '_' :: (own ++ ['_']))) = 11 := by
    rw [byteLength_append, byteLength_append, byteLength_cons_of_ascii (by decide),
      byteLength_append, byteLength_cons_of_ascii (by decide)]
    simp only [byteLength]
    omega
  omega

theorem exists_codes (long : 12 ≤ byteLength (lowerAscii name))
    (hmark : "fk_".toList <+: lowerAscii name)
    (behindReferred : byteAt (lowerAscii name) 6 = .ok '_'.toUInt8)
    (behindOwn : byteAt (lowerAscii name) 10 = .ok '_'.toUInt8) :
    ∃ mark referred own rest, name = mark ++ (referred ++ '_' :: (own ++ '_' :: rest)) ∧
      sameLetters mark "fk_".toList = true ∧ byteLength referred = 3 ∧ byteLength own = 3 ∧
      rest ≠ [] := by
  obtain ⟨_, _, _, hname, hreferred, hown, hne⟩ :=
    exists_codes_lower long hmark behindReferred behindOwn
  obtain ⟨mark, behind, rfl, hfront, hbehind⟩ := List.map_eq_append_iff.1 hname
  obtain ⟨referred, left, rfl, rfl, hleft⟩ := exists_of_lowerAscii_underscore hbehind
  obtain ⟨own, rest, rfl, rfl, rfl⟩ := exists_of_lowerAscii_underscore hleft
  rw [byteLength_lowerAscii] at hreferred hown
  exact ⟨mark, referred, own, rest, rfl, sameLetters_iff.2 hfront, hreferred, hown,
    fun empty => hne (congrArg lowerAscii empty)⟩

/-- Between codes of three bytes, underscores and codes are where they are read. -/
theorem cuts_of_codes (hmark : byteLength mark = 3) (hreferred : byteLength referred = 3)
    (hown : byteLength own = 3) (h : name = mark ++ (referred ++ '_' :: (own ++ '_' :: rest))) :
    byteAt name 6 = .ok '_'.toUInt8 ∧ byteAt name 10 = .ok '_'.toUInt8 ∧
      slice name 3 6 = .ok referred ∧ slice name 7 10 = .ok own ∧
      slice name 11 (byteLength name) = .ok rest := by
  have underscore : byteLength ['_'] = 1 := rfl
  subst h
  refine ⟨(byteAt_eq_ok_iff (by decide)).2 ⟨mark ++ referred, own ++ '_' :: rest, by simp, ?_⟩,
    (byteAt_eq_ok_iff (by decide)).2 ⟨mark ++ (referred ++ '_' :: own), rest, by simp, ?_⟩,
    slice_eq_ok_iff.2 ⟨mark, '_' :: (own ++ '_' :: rest), by simp, hmark, ?_⟩,
    slice_eq_ok_iff.2 ⟨mark ++ (referred ++ ['_']), '_' :: rest, by simp, ?_, ?_⟩,
    slice_eq_ok_iff.2 ⟨mark ++ (referred ++ '_' :: (own ++ ['_'])), [], by simp, ?_, by simp⟩⟩
  all_goals simp [byteLength_append, byteLength_cons_of_ascii, hmark, hreferred, hown, underscore]

/-- A name with codes of three bytes, and something behind them, is cut everywhere. -/
theorem foreignKeyRestAt_of_codes (three : byteLength suffix = 3)
    (hmark : sameLetters mark "fk_".toList = true) (hreferred : byteLength referred = 3)
    (hown : byteLength own = 3) (hne : rest ≠ []) :
    foreignKeyRestAt suffix (mark ++ (referred ++ '_' :: (own ++ '_' :: rest))) =
      .ok (if referred.all isAsciiAlphanumeric && sameLetters own suffix then some rest
        else none) := by
  have lowered : lowerAscii (mark ++ (referred ++ '_' :: (own ++ '_' :: rest))) = "fk_".toList ++
      (lowerAscii referred ++ '_' :: (lowerAscii own ++ '_' :: lowerAscii rest)) := by
    have mark : lowerAscii mark = "fk_".toList := sameLetters_iff.1 hmark
    have same : '_'.toLower = '_' := rfl
    simp only [lowerAscii_append, lowerAscii_cons, mark, same]
  obtain ⟨-, -, -, -, restCut⟩ := cuts_of_codes (byteLength_eq_of_sameLetters hmark) hreferred hown
    (Eq.refl (mark ++ (referred ++ '_' :: (own ++ '_' :: rest))))
  have long : 12 ≤ byteLength (mark ++ (referred ++ '_' :: (own ++ '_' :: rest))) := by
    have some := byteLength_pos hne
    obtain ⟨before, after, -, eleven, whole⟩ := slice_eq_ok_iff.1 restCut
    rw [byteLength_append] at whole
    omega
  rw [← byteLength_lowerAscii] at long hreferred hown
  obtain ⟨behindReferred, behindOwn, referredCut, ownCut, -⟩ :=
    cuts_of_codes rfl hreferred hown lowered
  have guards : ¬(byteLength suffix ≠ 3 ∨
      byteLength (lowerAscii (mark ++ (referred ++ '_' :: (own ++ '_' :: rest)))) < 12 ∨
      ¬"fk_".toList <+: lowerAscii (mark ++ (referred ++ '_' :: (own ++ '_' :: rest)))) := by
    rintro (other | short | noMark)
    · exact other three
    · exact absurd short (Nat.not_lt.2 long)
    · exact noMark (lowered ▸ List.prefix_append ..)
  simp only [foreignKeyRestAt, if_neg guards, behindReferred, behindOwn, referredCut, ownCut,
    restCut, bind, Except.bind, if_true, all_isCodeByte_bytes, all_isAsciiAlphanumeric_lowerAscii,
    sameLetters_lowerAscii]
  split <;> rfl

theorem byteLength_of_alphanumeric {text : List Char} (h : text.all isAsciiAlphanumeric = true) :
    byteLength text = text.length :=
  byteLength_of_ascii fun c hc => toNat_lt_of_isAsciiAlphanumeric (List.all_eq_true.1 h c hc)

/-- **Foreign keys at byte offsets.** Every cut succeeds, and finds what follows the codes. -/
theorem foreignKeyRestAt_eq (suffix name : List Char) :
    foreignKeyRestAt suffix name = .ok (foreignKeyRest? suffix name) := by
  cases h : foreignKeyRest? suffix name with
  | some rest =>
    obtain ⟨three, hne, mark, referred, own, hmark, ⟨length, code⟩, hown, rfl⟩ :=
      foreignKeyRest?_eq_some_iff.1 h
    have hreferred : byteLength referred = 3 := (byteLength_of_alphanumeric code).trans length
    have hbytes : byteLength own = 3 := (byteLength_eq_of_sameLetters hown).trans three
    rw [foreignKeyRestAt_of_codes three hmark hreferred hbytes hne, code, hown]
    rfl
  | none =>
    by_cases guards : byteLength suffix ≠ 3 ∨ byteLength (lowerAscii name) < 12 ∨
        ¬"fk_".toList <+: lowerAscii name
    · simp only [foreignKeyRestAt, if_pos guards]
      rfl
    obtain ⟨three, inside⟩ := not_or.1 guards
    obtain ⟨long, hmark⟩ := not_or.1 inside
    rw [not_not] at three hmark
    rw [Nat.not_lt] at long
    have six : 6 < byteLength (lowerAscii name) := by omega
    have ten : 10 < byteLength (lowerAscii name) := by omega
    obtain ⟨behindReferred, hreferred⟩ := exists_byteAt six
    obtain ⟨behindOwn, hown⟩ := exists_byteAt ten
    by_cases underscores : behindReferred = '_'.toUInt8 ∧ behindOwn = '_'.toUInt8
    · obtain ⟨rfl, rfl⟩ := underscores
      obtain ⟨mark, referred, own, rest, rfl, hmark, hreferred, hown, hne⟩ :=
        exists_codes long hmark hreferred hown
      have other : ¬(referred.all isAsciiAlphanumeric && sameLetters own suffix) = true := by
        intro codes
        obtain ⟨code, same⟩ := (Bool.and_eq_true ..).mp codes
        have length : referred.length = 3 := (byteLength_of_alphanumeric code).symm.trans hreferred
        rw [foreignKeyRest?_eq_some_iff.2
          ⟨three, hne, mark, referred, own, hmark, ⟨length, code⟩, same, rfl⟩] at h
        cases h
      rw [foreignKeyRestAt_of_codes three hmark hreferred hown hne, if_neg other]
    · simp only [foreignKeyRestAt, if_neg guards, hreferred, hown, bind, Except.bind]
      split
      next first =>
        rw [if_neg fun second => underscores ⟨first, second⟩]
        rfl
      next => rfl

end ReleaseSchema.Ddl
