/-
Readers that cut texts at byte offsets. A reader cuts where it has read the byte of an ASCII
character, or at the ends of what a search has found, and those are places between
characters. So no cut is refused, whatever the text is (`cuts_exact`): values lose their
quotes (`Tag.unquoteValueAt_eq`), texts the bodies between dollar tags
(`Ddl.withoutBodiesAt_eq`), and the types of sets their keyword (`ReturnType.ofTextAt_eq`),
for a return type without blanks around it does not end where the keyword does.
-/
import ReleaseSchema.Proofs.Ddl.NameOffset
import ReleaseSchema.Proofs.Ddl.RoutineBody
import ReleaseSchema.Proofs.Sql.ByteNesting
import ReleaseSchema.Tag

namespace ReleaseSchema

open Text

/-! ## Quotes -/

namespace Tag

/-- The quote is at both ends of a value, and not the same one. -/
def isQuotedBy (value : List Char) (quote : Char) : Bool :=
  2 ≤ byteLength value ∧ value.head? = some quote ∧ value.getLast? = some quote

/-- A value without its quotes, cut one byte inside of them. -/
def unquoteValueAt (value : List Char) : Except OffsetError (List Char) :=
  match ['\'', '"'].find? (isQuotedBy value) with
  | some _ => slice value 1 (byteLength value - 1)
  | none => .ok value

variable {value : List Char} {quote : Char}

theorem isQuotedBy_iff (hquote : quote.toNat < 0x80) :
    isQuotedBy value quote = true ↔ ∃ inner, value = quote :: (inner ++ [quote]) := by
  have one := byteLength_cons_of_ascii hquote
  rw [isQuotedBy, decide_eq_true_iff]
  constructor
  · rintro ⟨long, first, last⟩
    obtain ⟨rest, rfl⟩ := List.head?_eq_some_iff.1 first
    have hne : rest ≠ [] := by
      rintro rfl
      rw [one] at long
      exact absurd long (by decide)
    obtain ⟨c, more, rfl⟩ := List.exists_cons_of_ne_nil hne
    rw [List.getLast?_cons_cons] at last
    obtain ⟨inner, hinner⟩ := List.getLast?_eq_some_iff.1 last
    exact ⟨inner, by rw [hinner]⟩
  · rintro ⟨inner, rfl⟩
    refine ⟨?_, rfl, by rw [← List.cons_append, List.getLast?_concat]⟩
    rw [one, byteLength_append, one]
    omega

theorem slice_quoted (hquote : quote.toNat < 0x80) (inner : List Char) :
    slice (quote :: (inner ++ [quote])) 1 (byteLength (quote :: (inner ++ [quote])) - 1) =
      .ok inner := by
  have one := byteLength_cons_of_ascii hquote
  refine slice_eq_ok_iff.2 ⟨[quote], [quote], rfl, one [], ?_⟩
  rw [List.singleton_append, one, one, byteLength_append, one]
  simp only [byteLength]
  omega

theorem between?_of_not_isQuotedBy (hquote : quote.toNat < 0x80)
    (h : ¬isQuotedBy value quote = true) : between? quote quote value = none := by
  rw [Option.eq_none_iff_forall_ne_some]
  exact fun inner found => h ((isQuotedBy_iff hquote).2 ⟨inner, between?_eq_some_iff.1 found⟩)

/-- **Quotes at byte offsets.** Every cut succeeds, and leaves the value without its quotes. -/
theorem unquoteValueAt_eq (value : List Char) :
    unquoteValueAt value = .ok (unquoteValue value) := by
  have isAscii : '\''.toNat < 0x80 ∧ '"'.toNat < 0x80 := by decide
  unfold unquoteValueAt unquoteValue
  by_cases single : isQuotedBy value '\'' = true
  · obtain ⟨inner, rfl⟩ := (isQuotedBy_iff isAscii.1).1 single
    rw [List.find?_cons_of_pos single, between?_eq_some_iff.2 rfl]
    exact slice_quoted isAscii.1 inner
  rw [List.find?_cons_of_neg single, between?_of_not_isQuotedBy isAscii.1 single]
  by_cases double : isQuotedBy value '"' = true
  · obtain ⟨inner, rfl⟩ := (isQuotedBy_iff isAscii.2).1 double
    rw [List.find?_cons_of_pos double, between?_eq_some_iff.2 rfl]
    exact slice_quoted isAscii.2 inner
  · rw [List.find?_cons_of_neg double, between?_of_not_isQuotedBy isAscii.2 double]
    rfl

end Tag

/-! ## Bodies -/

namespace Ddl

variable {text rest inside passed name : List Char} {place : Cursor}

/-- The name in a dollar tag that begins at a place. -/
def dollarTagHere? (c : Cursor) : Option (List Char) :=
  (c.char? '$').bind fun c => (dollarTag? c.rest).map (·.1)

/-- Writes a space for every body, cut where the tags around it begin and end. -/
def withoutBodiesAt (text : List Char) : Except OffsetError (List Char) :=
  match search? dollarTagHere? text with
  | none => .ok text
  | some (place, name) =>
    let tag := '$' :: (name ++ ['$'])
    let start := byteLength place.passed.reverse
    match slice text 0 start with
    | .error e => .error e
    | .ok front =>
      match _hinside : slice text (start + byteLength tag) (byteLength text) with
      | .error e => .error e
      | .ok inside =>
        match splitAt? tag inside with
        | none => .ok front
        | some (body, _) =>
          match _hafter : slice inside (byteLength body + byteLength tag) (byteLength inside) with
          | .error e => .error e
          | .ok after => (withoutBodiesAt after).map fun out => front ++ ' ' :: out
termination_by text.length
decreasing_by
  have tagLength : 0 < byteLength ('$' :: (name ++ ['$'])) :=
    byteLength_pos (List.cons_ne_nil '$' _)
  have := (length_slice _hinside).2 (Nat.lt_of_lt_of_le tagLength (Nat.le_add_left ..))
  exact Nat.lt_of_le_of_lt (length_slice _hafter).1 this

theorem withoutBodies_noTag (h : dollarTag? rest = none) :
    withoutBodies ('$' :: rest) = '$' :: withoutBodies rest := by
  rw [withoutBodies, if_pos rfl]
  split
  next found =>
    rw [found] at h
    cases h
  next => rfl

theorem withoutBodies_tag (h : dollarTag? rest = some (name, inside)) :
    withoutBodies ('$' :: rest) =
      match splitAt? ('$' :: (name ++ ['$'])) inside with
      | none => []
      | some (_, after) => ' ' :: withoutBodies after := by
  rw [withoutBodies, if_pos rfl]
  split
  next found =>
    rw [h] at found
    cases found
    split
    next closed => rw [closed]
    next unclosed => rw [unclosed]
  next missing =>
    rw [h] at missing
    cases missing

theorem dollarTagHere?_cons (passed : List Char) (c : Char) (rest : List Char) :
    dollarTagHere? ⟨passed, c :: rest⟩ = if c = '$' then (dollarTag? rest).map (·.1) else none := by
  simp only [dollarTagHere?, Cursor.char?]
  split <;> rfl

theorem withoutBodies_of_noTagHere {c : Char} (h : dollarTagHere? ⟨passed, c :: rest⟩ = none) :
    withoutBodies (c :: rest) = c :: withoutBodies rest := by
  rw [dollarTagHere?_cons] at h
  split at h
  next dollar =>
    rw [dollar, withoutBodies_noTag (Option.map_eq_none_iff.1 h)]
  next other => rw [withoutBodies, if_neg other]

/-- Up to the first dollar tag, nothing is taken out. -/
theorem of_findFrom_dollarTag
    (h : Cursor.findFrom dollarTagHere? passed text = some (place, name)) :
    ∃ front rest inside, place.passed = front.reverse ++ passed ∧ text = front ++ '$' :: rest ∧
      dollarTag? rest = some (name, inside) ∧
      withoutBodies text = front ++ withoutBodies ('$' :: rest) := by
  induction text generalizing passed with
  | nil => cases h
  | cons c text ih =>
    rw [Cursor.findFrom] at h
    split at h
    next found here =>
      cases h
      rw [dollarTagHere?_cons] at here
      split at here
      next dollar =>
        obtain ⟨⟨_, inside⟩, htag, rfl⟩ := Option.map_eq_some_iff.1 here
        rw [dollar]
        exact ⟨[], text, inside, rfl, rfl, htag, rfl⟩
      next => cases here
    next noTag =>
      obtain ⟨front, rest, inside, hplace, rfl, htag, hout⟩ := ih h
      refine ⟨c :: front, rest, inside, ?_, rfl, htag, ?_⟩
      · rw [hplace, List.reverse_cons, List.append_assoc, List.singleton_append]
      · rw [withoutBodies_of_noTagHere noTag, hout, List.cons_append]

theorem withoutBodies_of_findFrom (h : Cursor.findFrom dollarTagHere? passed text = none) :
    withoutBodies text = text := by
  induction text generalizing passed with
  | nil => rw [withoutBodies]
  | cons c text ih =>
    rw [Cursor.findFrom] at h
    split at h
    next => cases h
    next noTag => rw [withoutBodies_of_noTagHere noTag, ih h]

theorem eq_of_dollarTag? (h : dollarTag? rest = some (name, inside)) :
    rest = name ++ '$' :: inside := by
  unfold dollarTag? at h
  split at h
  · cases h
  next c rest =>
    split at h
    next dollar =>
      cases h
      rw [dollar, List.nil_append]
    next =>
      split at h
      · split at h
        next after hafter =>
          cases h
          rw [List.cons_append, ← hafter, List.takeWhile_append_dropWhile]
        next => cases h
      · cases h

theorem cuts_of_dollarTag (h : search? dollarTagHere? text = some (place, name)) :
    ∃ front inside, slice text 0 (byteLength place.passed.reverse) = .ok front ∧
      slice text (byteLength place.passed.reverse + byteLength ('$' :: (name ++ ['$'])))
        (byteLength text) = .ok inside ∧
      withoutBodies text = front ++
        match splitAt? ('$' :: (name ++ ['$'])) inside with
        | none => []
        | some (_, after) => ' ' :: withoutBodies after := by
  have found : Cursor.findFrom dollarTagHere? [] text = some (place, name) := h
  obtain ⟨front, rest, inside, hplace, rfl, htag, hout⟩ := of_findFrom_dollarTag found
  obtain rfl := eq_of_dollarTag? htag
  have start : place.passed.reverse = front := by
    rw [hplace, List.append_nil, List.reverse_reverse]
  have parts : front ++ '$' :: (name ++ '$' :: inside) =
      (front ++ '$' :: (name ++ ['$'])) ++ inside := by simp
  refine ⟨front, inside, ?_, ?_, by rw [hout, withoutBodies_tag htag]⟩
  · rw [start]
    exact slice_start ..
  · rw [start, parts, ← byteLength_append]
    exact slice_end ..

theorem cut_of_splitAt? {tag body after : List Char} (hne : tag ≠ [])
    (h : splitAt? tag inside = some (body, after)) :
    slice inside (byteLength body + byteLength tag) (byteLength inside) = .ok after := by
  obtain ⟨rfl, -⟩ := exists_of_splitAt? hne h
  rw [← List.append_assoc, ← byteLength_append]
  exact slice_end ..

/-- **Bodies at byte offsets.** Every cut succeeds, and leaves the text without its bodies. -/
theorem withoutBodiesAt_eq (text : List Char) :
    withoutBodiesAt text = .ok (withoutBodies text) := by
  fun_induction withoutBodiesAt text with
  | case1 text noTag =>
    have missing : Cursor.findFrom dollarTagHere? [] text = none := noTag
    rw [withoutBodies_of_findFrom missing]
  | case2 text place name found start e refused =>
    obtain ⟨front, _, hfront, -, -⟩ := cuts_of_dollarTag found
    rw [hfront] at refused
    cases refused
  | case3 text place name found tag start front hfront e refused =>
    obtain ⟨_, inside, -, hinside, -⟩ := cuts_of_dollarTag found
    rw [hinside] at refused
    cases refused
  | case4 text place name found tag start front hfront inside hinside unclosed =>
    obtain ⟨_, _, front', inside', hout⟩ := cuts_of_dollarTag found
    obtain rfl := Except.ok.inj (hfront.symm.trans front')
    obtain rfl := Except.ok.inj (hinside.symm.trans inside')
    rw [hout, unclosed, List.append_nil]
  | case5 text place name found tag start front hfront inside hinside body after closed e refused =>
    rw [cut_of_splitAt? (List.cons_ne_nil '$' _) closed] at refused
    cases refused
  | case6 text place name found tag start front hfront inside hinside body after closed rest hrest
      ih =>
    obtain ⟨_, _, front', inside', hout⟩ := cuts_of_dollarTag found
    obtain rfl := Except.ok.inj (hfront.symm.trans front')
    obtain rfl := Except.ok.inj (hinside.symm.trans inside')
    obtain rfl := Except.ok.inj (hrest.symm.trans (cut_of_splitAt? (List.cons_ne_nil '$' _) closed))
    rw [hout, closed, ih]
    rfl

end Ddl

/-! ## Return types -/

namespace ReturnType

/-- The first bytes of a text. -/
def firstBytes (text : List Char) (count : Nat) : Except OffsetError (List UInt8) :=
  if byteLength text < count then .error .outOfRange else .ok ((bytes text).take count)

/-- The text begins with the bytes of another one, with the case of ASCII letters ignored. -/
def startsLikeAt (text start : List Char) : Except OffsetError Bool := do
  if byteLength start ≤ byteLength text then
    let front ← firstBytes text (byteLength start)
    return front.map lowerByte == (bytes start).map lowerByte
  else return false

/-- Reads a return type as it is declared, and cuts a set's type off behind its keyword. -/
def ofTextAt (text : List Char) : Except OffsetError ReturnType := do
  let text := trim text
  if sameLetters text "void".toList then return .void
  else if sameLetters text "table".toList then return .table
  else if 6 < byteLength text then
    let isSet ← startsLikeAt text "setof ".toList
    if isSet then
      return .setOf (String.ofList (trim (← slice text 6 (byteLength text))))
    else return .scalar (String.ofList text)
  else return .scalar (String.ofList text)

variable {text start : List Char}

theorem startsLikeAt_eq (hstart : (lowerAscii start).all (·.toNat < 0x80) = true)
    (text : List Char) : startsLikeAt text start = .ok (startsLike text start) := by
  have ascii : ∀ c ∈ lowerAscii start, c.toNat < 0x80 := fun c hc =>
    of_decide_eq_true (List.all_eq_true.1 hstart c hc)
  have same : startsLike text start = true ↔
      (bytes start).map lowerByte = ((bytes text).map lowerByte).take (byteLength start) := by
    rw [startsLike, List.isPrefixOf_iff_prefix, ← bytes_prefix_iff ascii, List.prefix_iff_eq_take,
      length_bytes, byteLength_lowerAscii, map_lowerByte_bytes, map_lowerByte_bytes]
  by_cases fits : byteLength start ≤ byteLength text
  · have front : firstBytes text (byteLength start) = .ok ((bytes text).take (byteLength start)) :=
      if_neg (Nat.not_lt.2 fits)
    simp only [startsLikeAt, if_pos fits, front, bind, Except.bind, List.map_take]
    refine congrArg Except.ok ?_
    rw [Bool.eq_iff_iff, same, beq_iff_eq, eq_comm]
  · have other : startsLike text start = false := by
      rw [← Bool.not_eq_true]
      intro begins
      obtain ⟨front, rest, rfl, hfront⟩ := startsLike_iff.1 begins
      rw [byteLength_append, byteLength_eq_of_sameLetters hfront] at fits
      exact fits (Nat.le_add_right ..)
    rw [startsLikeAt, if_neg fits, other]
    rfl

/-- A text without blanks around it has something behind the keyword of sets. -/
theorem exists_behind_setof (h : startsLike (trim text) "setof ".toList = true) :
    ∃ front rest, trim text = front ++ rest ∧ front.length = 6 ∧ byteLength front = 6 ∧
      rest ≠ [] := by
  obtain ⟨front, rest, htext, hfront⟩ := startsLike_iff.1 h
  refine ⟨front, rest, htext, length_eq_of_sameLetters hfront,
    byteLength_eq_of_sameLetters hfront, ?_⟩
  rintro rfl
  rw [List.append_nil] at htext
  have last : (lowerAscii front).getLast? = some ' ' := by
    rw [sameLetters_iff.1 hfront]
    rfl
  rw [lowerAscii, List.getLast?_map, Option.map_eq_some_iff] at last
  obtain ⟨c, hc, space⟩ := last
  obtain rfl := eq_of_toLower (by decide) space
  have finish := stops_reverse_trim text
  rw [htext] at finish
  have blank : isBlank ' ' = false := finish ' ' (by rwa [List.head?_reverse])
  exact absurd blank (by decide)

/-- **Return types at byte offsets.** Every cut succeeds, and the type is the one declared. -/
theorem ofTextAt_eq (text : List Char) : ofTextAt text = .ok (ofText text) := by
  unfold ofTextAt ofText
  dsimp only
  split
  · rfl
  split
  · rfl
  have begins : startsLikeAt (trim text) "setof ".toList =
      .ok (startsLike (trim text) "setof ".toList) := startsLikeAt_eq rfl _
  by_cases isSet : startsLike (trim text) "setof ".toList = true
  · obtain ⟨front, rest, htext, length, six, hne⟩ := exists_behind_setof isSet
    have longer : 6 < byteLength (trim text) := by
      rw [htext, byteLength_append, six]
      exact Nat.lt_add_of_pos_right (byteLength_pos hne)
    have cut : slice (trim text) 6 (byteLength (trim text)) = .ok rest := by
      rw [htext, ← six]
      exact slice_end front rest
    have dropped : (trim text).drop "setof ".length = rest := by
      have keyword : "setof ".length = front.length := length.symm
      rw [htext, keyword, List.drop_left]
    rw [if_pos longer, begins, isSet, if_pos rfl, dropped]
    dsimp only [bind, Except.bind]
    rw [if_pos rfl, cut]
    rfl
  · rw [Bool.not_eq_true] at isSet
    rw [begins, isSet]
    split <;> rfl

end ReturnType

/-! ## All of them -/

/-- **Cuts at byte offsets.** A text is cut at two byte offsets exactly where they are in order and
neither is behind the text or inside a character. Every reader that cuts texts so is never
refused, whatever the text, the name, the suffix and the offset, and it reads what is to be read:
what follows the codes of a foreign key, or a suffix; the inside of parentheses; a value without its
quotes; a text without bodies; a return type. -/
theorem cuts_exact :
    (∀ text start stop, (∃ inside, slice text start stop = .ok inside) ↔
      start ≤ stop ∧ IsPlace text start ∧ IsPlace text stop) ∧
    (∀ suffix name, Ddl.foreignKeyRestAt suffix name = .ok (Ddl.foreignKeyRest? suffix name)) ∧
    (∀ suffix name, Ddl.afterSuffixAt suffix name = .ok (Ddl.afterSuffix? suffix name)) ∧
    (∀ offset text, Sql.ByteNesting.enclosedAt offset text = .ok (Sql.enclosedAt? offset text)) ∧
    (∀ value, Tag.unquoteValueAt value = .ok (Tag.unquoteValue value)) ∧
    (∀ text, Ddl.withoutBodiesAt text = .ok (Ddl.withoutBodies text)) ∧
    ∀ text, ReturnType.ofTextAt text = .ok (ReturnType.ofText text) :=
  ⟨fun _ _ _ => exists_slice_iff, Ddl.foreignKeyRestAt_eq, Ddl.afterSuffixAt_eq,
    Sql.ByteNesting.enclosedAt_eq, Tag.unquoteValueAt_eq, Ddl.withoutBodiesAt_eq,
    ReturnType.ofTextAt_eq⟩

end ReleaseSchema
