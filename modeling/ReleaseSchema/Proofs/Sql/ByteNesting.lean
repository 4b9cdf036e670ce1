/-
Parentheses found byte by byte. A scanner of bytes passes both bytes of a comment mark at
once and looks at nothing but ASCII, so the bytes of other characters do not move it
(`closingFrom_great`), and at every character it is where the scanner of characters is
(`closingFrom_bytes`). It finds the same closing parenthesis, at whose byte the text may be
cut, and the offset it stands at is the one that the lengths give
(`ByteNesting.enclosedAt_eq`). So at a byte offset both find the one nested text in
parentheses that there is (`enclosedAt?_exact`).
-/
import ReleaseSchema.Proofs.Sql.Enclosed
import ReleaseSchema.Proofs.Text.Slice

namespace ReleaseSchema.Sql

open Text

/-! ## Bytes -/

/-- What a byte is inside of. -/
structure ByteNesting where
  /-- How many parentheses are open, for texts of fewer than 2^31 as in `Nesting`. -/
  depth : Int := 0
  inSingle : Bool := false
  inDouble : Bool := false
  inComment : Bool := false
  deriving DecidableEq, Repr

namespace ByteNesting

def isQuoted (s : ByteNesting) : Bool := s.inSingle || s.inDouble || s.inComment

/-- Passes a byte, or both bytes of a comment mark, and counts what it passed. -/
def step (s : ByteNesting) (byte : UInt8) (next : Option UInt8) : ByteNesting × Nat :=
  if s.inComment then
    if byte = '*'.toUInt8 ∧ next = some '/'.toUInt8 then ({ s with inComment := false }, 2)
    else (s, 1)
  else if s.inSingle then
    if byte = '\''.toUInt8 then ({ s with inSingle := false }, 1) else (s, 1)
  else if s.inDouble then
    if byte = '"'.toUInt8 then ({ s with inDouble := false }, 1) else (s, 1)
  else if byte = '/'.toUInt8 ∧ next = some '*'.toUInt8 then ({ s with inComment := true }, 2)
  else if byte = '\''.toUInt8 then ({ s with inSingle := true }, 1)
  else if byte = '"'.toUInt8 then ({ s with inDouble := true }, 1)
  else if byte = '('.toUInt8 then ({ s with depth := s.depth + 1 }, 1)
  else if byte = ')'.toUInt8 then ({ s with depth := s.depth - 1 }, 1)
  else (s, 1)

section Step

variable (depth : Int) (byte : UInt8) (next : Option UInt8)

theorem step_comment : step { depth, inComment := true } byte next =
    if byte = '*'.toUInt8 ∧ next = some '/'.toUInt8 then ({ depth }, 2)
    else ({ depth, inComment := true }, 1) := rfl

theorem step_single : step { depth, inSingle := true } byte next =
    if byte = '\''.toUInt8 then ({ depth }, 1) else ({ depth, inSingle := true }, 1) := rfl

theorem step_double : step { depth, inDouble := true } byte next =
    if byte = '"'.toUInt8 then ({ depth }, 1) else ({ depth, inDouble := true }, 1) := rfl

theorem step_code : step { depth } byte next =
    if byte = '/'.toUInt8 ∧ next = some '*'.toUInt8 then ({ depth, inComment := true }, 2)
    else if byte = '\''.toUInt8 then ({ depth, inSingle := true }, 1)
    else if byte = '"'.toUInt8 then ({ depth, inDouble := true }, 1)
    else if byte = '('.toUInt8 then ({ depth := depth + 1 }, 1)
    else if byte = ')'.toUInt8 then ({ depth := depth - 1 }, 1)
    else ({ depth }, 1) := rfl

end Step

/-- The offset of the byte that closes the first parenthesis of the bytes from `offset` on. -/
def closingFrom (s : ByteNesting) (offset : Nat) : List UInt8 → Option Nat
  | [] => none
  | byte :: rest =>
    let (next, passed) := s.step byte rest.head?
    if byte = ')'.toUInt8 ∧ ¬next.isQuoted ∧ next.depth = 0 then some offset
    else closingFrom next (offset + passed) (rest.drop (passed - 1))
termination_by bytes => bytes.length

/-- The inside of the parentheses that begin at a byte offset, and the offset behind them. -/
def enclosedAt (offset : Nat) (text : List Char) :
    Except OffsetError (Option (List Char × Nat)) := do
  if (bytes text)[offset]? = some '('.toUInt8 then
    match closingFrom {} offset ((bytes text).drop offset) with
    | none => return none
    | some stop => return some (← slice text (offset + 1) stop, stop + 1)
  else return none

end ByteNesting

/-! ## Bytes and characters -/

/-- The nesting as it is told by bytes: half a comment mark leaves no trace. -/
def Nesting.toBytes (s : Nesting) : ByteNesting :=
  match s.inside with
  | .code | .slash => { depth := s.depth }
  | .single => { depth := s.depth, inSingle := true }
  | .double => { depth := s.depth, inDouble := true }
  | .comment | .star => { depth := s.depth, inComment := true }

namespace Nesting

/-- The next character does not make a comment mark of the half just passed. -/
def NoMark (s : Nesting) (text : List Char) : Prop :=
  (s.inside = .slash → text.head? ≠ some '*') ∧ (s.inside = .star → text.head? ≠ some '/')

/-- The character and the next one are a comment mark. -/
def BeginsMark (s : Nesting) (c : Char) (rest : List Char) : Prop :=
  s.isQuoted = false ∧ c = '/' ∧ rest.head? = some '*' ∨
    s.toBytes.inComment = true ∧ c = '*' ∧ rest.head? = some '/'

variable {s : Nesting} {c : Char} {rest : List Char}

theorem isQuoted_toBytes (s : Nesting) : s.toBytes.isQuoted = s.isQuoted := by
  obtain ⟨depth, inside⟩ := s
  cases inside <;> rfl

theorem depth_toBytes (s : Nesting) : s.toBytes.depth = s.depth := by
  obtain ⟨depth, inside⟩ := s
  cases inside <;> rfl

/-! ## Single bytes -/

/-- Outside quotes and comments, a byte that begins no comment mark is passed like its character. -/
theorem step_toBytes_code (hc : c.toNat < 0x80) (noMark : ¬(c = '/' ∧ rest.head? = some '*'))
    (depth : Int) (inside : Inside) :
    ByteNesting.step { depth } c.toUInt8 (bytes rest).head? =
      ((stepCode ⟨depth, inside⟩ c).toBytes, 1) := by
  have byte {x : Char} (hx : x.toNat < 0x80) : c.toUInt8 = x.toUInt8 ↔ c = x :=
    toUInt8_inj_of_ascii hc hx
  have next : (bytes rest).head? = some '*'.toUInt8 ↔ rest.head? = some '*' :=
    head?_bytes_eq_some_iff (by decide)
  simp only [ByteNesting.step_code, byte (x := '/') (by decide), byte (x := '\'') (by decide),
    byte (x := '"') (by decide), byte (x := '(') (by decide), byte (x := ')') (by decide), next,
    if_neg noMark, stepCode]
  by_cases slash : c = '/'
  · subst slash
    rfl
  rw [if_neg slash]
  split_ifs <;> rfl

theorem step_toBytes (hc : c.toNat < 0x80) (h : s.NoMark (c :: rest))
    (noMark : ¬s.BeginsMark c rest) :
    s.toBytes.step c.toUInt8 (bytes rest).head? = ((s.step c).toBytes, 1) := by
  have byte {x : Char} (hx : x.toNat < 0x80) : c.toUInt8 = x.toUInt8 ↔ c = x :=
    toUInt8_inj_of_ascii hc hx
  have next : (bytes rest).head? = some '/'.toUInt8 ↔ rest.head? = some '/' :=
    head?_bytes_eq_some_iff (by decide)
  obtain ⟨noOpening, noClosing⟩ := not_or.1 noMark
  obtain ⟨depth, inside⟩ := s
  cases inside with
  | code => exact step_toBytes_code hc (fun mark => noOpening ⟨rfl, mark⟩) depth .code
  | slash =>
    have notStar : c ≠ '*' := fun star => h.1 rfl (congrArg some star)
    rw [step, if_neg notStar]
    exact step_toBytes_code hc (fun mark => noOpening ⟨rfl, mark⟩) depth .slash
  | single =>
    refine (ByteNesting.step_single ..).trans ?_
    simp only [byte (x := '\'') (by decide), step]
    split_ifs <;> rfl
  | double =>
    refine (ByteNesting.step_double ..).trans ?_
    simp only [byte (x := '"') (by decide), step]
    split_ifs <;> rfl
  | comment =>
    have noMark : ¬(c = '*' ∧ rest.head? = some '/') := fun mark => noClosing ⟨rfl, mark⟩
    refine (ByteNesting.step_comment ..).trans ?_
    simp only [byte (x := '*') (by decide), next, if_neg noMark, step]
    split_ifs <;> rfl
  | star =>
    have noMark : ¬(c = '*' ∧ rest.head? = some '/') := fun mark => noClosing ⟨rfl, mark⟩
    have notSlash : c ≠ '/' := fun slash => h.2 rfl (congrArg some slash)
    refine (ByteNesting.step_comment ..).trans ?_
    simp only [byte (x := '*') (by decide), next, if_neg noMark, step, if_neg notSlash]
    split_ifs <;> rfl

/-- Outside quotes and comments, only a slash is half a comment mark. -/
theorem inside_stepCode (s : Nesting) (c : Char) :
    ((s.stepCode c).inside = .slash → c = '/') ∧ (s.stepCode c).inside ≠ .star := by
  unfold stepCode
  split_ifs with slash
  · exact ⟨fun _ => slash, Inside.noConfusion⟩
  all_goals simp

theorem step_slash (h : (s.step c).inside = .slash) : s.isQuoted = false ∧ c = '/' := by
  obtain ⟨depth, inside⟩ := s
  cases inside with
  | code => exact ⟨rfl, (inside_stepCode ..).1 h⟩
  | slash =>
    simp only [step] at h
    split at h
    · cases h
    · exact ⟨rfl, (inside_stepCode ..).1 h⟩
  | single | double | comment =>
    simp only [step] at h
    split at h <;> cases h
  | star =>
    simp only [step] at h
    split at h
    · cases h
    split at h <;> cases h

theorem step_star (h : (s.step c).inside = .star) : s.toBytes.inComment = true ∧ c = '*' := by
  obtain ⟨depth, inside⟩ := s
  cases inside with
  | code => exact absurd h (inside_stepCode ..).2
  | slash =>
    simp only [step] at h
    split at h
    · cases h
    · exact absurd h (inside_stepCode ..).2
  | single | double =>
    simp only [step] at h
    split at h <;> cases h
  | comment =>
    simp only [step] at h
    split at h
    next star => exact ⟨rfl, star⟩
    next => cases h
  | star =>
    simp only [step] at h
    split at h
    next => cases h
    next =>
      split at h
      next star => exact ⟨rfl, star⟩
      next => cases h

/-- Behind such a character, no comment mark is half passed. -/
theorem noMark_step (noMark : ¬s.BeginsMark c rest) : (s.step c).NoMark rest := by
  obtain ⟨noOpening, noClosing⟩ := not_or.1 noMark
  constructor
  · intro slash star
    obtain ⟨unquoted, hc⟩ := step_slash slash
    exact noOpening ⟨unquoted, hc, star⟩
  · intro star slash
    obtain ⟨comment, hc⟩ := step_star star
    exact noClosing ⟨comment, hc, slash⟩

/-! ## Comment marks -/

theorem step_toBytes_mark (mark : s.BeginsMark c rest) :
    c.toNat < 0x80 ∧ c ≠ ')' ∧ ∃ d more, rest = d :: more ∧ d.toNat < 0x80 ∧ d ≠ ')' ∧
      s.toBytes.step c.toUInt8 (bytes rest).head? = (((s.step c).step d).toBytes, 2) ∧
      ((s.step c).step d).NoMark more := by
  obtain ⟨depth, inside⟩ := s
  rcases mark with ⟨unquoted, rfl, hd⟩ | ⟨comment, rfl, hd⟩
  all_goals
    obtain ⟨more, rfl⟩ := List.head?_eq_some_iff.1 hd
    refine ⟨by decide, by decide, _, more, rfl, by decide, by decide, ?_⟩
    rw [bytes_cons_of_ascii (by decide)]
  · cases inside with
    | code | slash => exact ⟨rfl, by simp [NoMark, step, stepCode]⟩
    | single | double | comment | star => cases unquoted
  · cases inside with
    | comment | star => exact ⟨rfl, by simp [NoMark, step]⟩
    | code | slash | single | double => cases comment

/-! ## Other characters -/

theorem toBytes_step_great (hc : 0x80 ≤ c.toNat) (s : Nesting) :
    (s.step c).toBytes = s.toBytes := by
  have other {x : Char} (hx : x.toNat < 0x80) : c ≠ x := ne_of_great hc hx
  have passed (depth : Int) (inside : Inside) : stepCode ⟨depth, inside⟩ c = ⟨depth, .code⟩ := by
    simp only [stepCode, other (x := '/') (by decide), other (x := '\'') (by decide),
      other (x := '"') (by decide), other (x := '(') (by decide), other (x := ')') (by decide),
      if_false]
  obtain ⟨depth, inside⟩ := s
  cases inside with
  | code => exact congrArg toBytes (passed depth .code)
  | slash =>
    rw [step, if_neg (other (x := '*') (by decide)), passed]
    rfl
  | single => exact congrArg toBytes (if_neg (other (x := '\'') (by decide)))
  | double => exact congrArg toBytes (if_neg (other (x := '"') (by decide)))
  | comment => exact congrArg toBytes (if_neg (other (x := '*') (by decide)))
  | star =>
    simp only [step, other (x := '/') (by decide), other (x := '*') (by decide), if_false]
    rfl

end Nesting

namespace ByteNesting

variable {s : ByteNesting} {rest : List UInt8} {offset : Nat}

theorem step_great {byte : UInt8} (h : 0x80 ≤ byte.toNat) (s : ByteNesting) (next : Option UInt8) :
    s.step byte next = (s, 1) := by
  have other {x : Char} (hx : x.toNat < 0x80) : byte ≠ x.toUInt8 := ne_toUInt8_of_great h hx
  simp only [step, other (x := '/') (by decide), other (x := '*') (by decide),
    other (x := '\'') (by decide), other (x := '"') (by decide), other (x := '(') (by decide),
    other (x := ')') (by decide), false_and, if_false, ite_self]

theorem closingFrom_great {great : List UInt8} (h : ∀ byte ∈ great, 0x80 ≤ byte.toNat) :
    closingFrom s offset (great ++ rest) = closingFrom s (offset + great.length) rest := by
  induction great generalizing offset with
  | nil => rfl
  | cons byte great ih =>
    obtain ⟨hbyte, hgreat⟩ := List.forall_mem_cons.1 h
    have notClosing : byte ≠ ')'.toUInt8 := ne_toUInt8_of_great hbyte (by decide)
    rw [List.cons_append, closingFrom, step_great hbyte]
    simp only [notClosing, false_and, if_false]
    rw [Nat.sub_self, List.drop_zero, ih hgreat, List.length_cons, Nat.add_assoc, Nat.add_comm 1]

/-! ## Closing parentheses -/

theorem enclosedFrom?_of_ne {s : Nesting} {c : Char} (h : c ≠ ')') (acc rest : List Char) :
    enclosedFrom? s acc (c :: rest) = enclosedFrom? (s.step c) (c :: acc) rest := by
  rw [enclosedFrom?, if_neg fun closes => h closes.1]

/-- From a character on, bytes and characters are closed at the same place. -/
theorem closingFrom_bytes {s : Nesting} {text : List Char} (h : s.NoMark text) (acc : List Char)
    (start : Nat) : closingFrom s.toBytes (start + byteLength acc) (bytes text) =
      (enclosedFrom? s acc text).map fun found => start + byteLength found.1 := by
  match text with
  | [] => rw [bytes, List.flatMap_nil, closingFrom, enclosedFrom?, Option.map_none]
  | c :: rest =>
    by_cases ascii : c.toNat < 0x80
    · rw [bytes_cons_of_ascii ascii, closingFrom]
      by_cases mark : s.BeginsMark c rest
      · obtain ⟨-, hc, d, more, rfl, hd, hd', step, noMark⟩ := Nesting.step_toBytes_mark mark
        have notClosing : c.toUInt8 ≠ ')'.toUInt8 :=
          (toUInt8_inj_of_ascii ascii (by decide)).not.2 hc
        have passed : byteLength (d :: c :: acc) = byteLength acc + 2 := by
          rw [byteLength_cons_of_ascii hd, byteLength_cons_of_ascii ascii]
        rw [step, enclosedFrom?_of_ne hc, enclosedFrom?_of_ne hd',
          ← closingFrom_bytes noMark (d :: c :: acc) start, passed, bytes_cons_of_ascii hd]
        simp only [notClosing, false_and, if_false, Nat.add_assoc]
        rfl
      · have closes : c.toUInt8 = ')'.toUInt8 ↔ c = ')' := toUInt8_inj_of_ascii ascii (by decide)
        have passed : byteLength (c :: acc) = byteLength acc + 1 :=
          byteLength_cons_of_ascii ascii acc
        rw [Nesting.step_toBytes ascii h mark, enclosedFrom?]
        simp only [closes, Nesting.isQuoted_toBytes, Nesting.depth_toBytes, and_comm]
        split
        · rw [Option.map_some, byteLength_reverse]
        · rw [← closingFrom_bytes (Nesting.noMark_step mark) (c :: acc) start, passed]
          rfl
    · have great : 0x80 ≤ c.toNat := Nat.le_of_not_lt ascii
      have other {x : Char} (hx : x.toNat < 0x80) : c ≠ x := ne_of_great great hx
      have noMark : ¬s.BeginsMark c rest := by
        rintro (⟨-, hc, -⟩ | ⟨-, hc, -⟩)
        · exact other (by decide) hc
        · exact other (by decide) hc
      have passed : byteLength (c :: acc) = byteLength acc + c.utf8Size := by
        rw [byteLength, Nat.add_comm]
      rw [bytes_cons, closingFrom_great (le_of_mem_utf8EncodeChar great),
        String.length_utf8EncodeChar, enclosedFrom?_of_ne (other (by decide)),
        ← closingFrom_bytes (Nesting.noMark_step noMark) (c :: acc) start,
        Nesting.toBytes_step_great great, passed, Nat.add_assoc]
termination_by text.length

theorem closingFrom_opening (offset : Nat) (rest : List Char) :
    closingFrom {} offset (bytes ('(' :: rest)) =
      (enclosed? ('(' :: rest)).map fun found => offset + 1 + byteLength found.1 := by
  have noMark : Nesting.NoMark ⟨1, .code⟩ rest := by simp [Nesting.NoMark]
  rw [bytes_cons_of_ascii (by decide), closingFrom]
  exact closingFrom_bytes noMark [] (offset + 1)

end ByteNesting

/-! ## At an offset -/

/-- At a byte offset the text reads a nested text in parentheses. -/
def IsEnclosedAt (offset : Nat) (text inner : List Char) : Prop :=
  ∃ before tail, text = before ++ '(' :: (inner ++ ')' :: tail) ∧ byteLength before = offset ∧
    IsNested inner

theorem enclosedAt?_eq_some_iff {offset stop : Nat} {text inner : List Char} :
    enclosedAt? offset text = some (inner, stop) ↔
      IsEnclosedAt offset text inner ∧ stop = offset + byteLength inner + 2 := by
  simp only [enclosedAt?, Option.bind_eq_bind, Option.bind_eq_some_iff, Option.pure_def,
    Option.some.injEq, Prod.mk.injEq]
  constructor
  · rintro ⟨⟨before, after⟩, hsplit, ⟨found, tail⟩, hfound, rfl, rfl⟩
    obtain ⟨rfl, hbefore⟩ := splitAtByte?_eq_some_iff.1 hsplit
    obtain ⟨rfl, nested⟩ := enclosed?_eq_some_iff.1 hfound
    exact ⟨⟨before, tail, rfl, hbefore, nested⟩, rfl⟩
  · rintro ⟨⟨before, tail, rfl, hbefore, nested⟩, rfl⟩
    exact ⟨(before, _), splitAtByte?_eq_some_iff.2 ⟨rfl, hbefore⟩, (inner, tail),
      enclosed?_eq_some_iff.2 ⟨rfl, nested⟩, rfl, rfl⟩

/-- **Parentheses at byte offsets.** The scanner of bytes finds the inside of the parentheses that
begin at an offset, and the text may be cut where it cuts it. -/
theorem ByteNesting.enclosedAt_eq (offset : Nat) (text : List Char) :
    enclosedAt offset text = .ok (enclosedAt? offset text) := by
  unfold enclosedAt
  split
  next opens =>
    obtain ⟨before, after, rfl, rfl⟩ := (getElem?_bytes_eq_some_iff (by decide)).1 opens
    have split : splitAtByte? (byteLength before) (before ++ '(' :: after) =
        some (before, '(' :: after) := splitAtByte?_eq_some_iff.2 ⟨rfl, rfl⟩
    have behind : (bytes (before ++ '(' :: after)).drop (byteLength before) =
        bytes ('(' :: after) := by
      rw [bytes_append, ← length_bytes, List.drop_left]
    rw [behind, closingFrom_opening, enclosedAt?, split, Option.bind_eq_bind, Option.bind_some]
    dsimp only
    cases hfound : enclosed? ('(' :: after) with
    | none => rfl
    | some found =>
      obtain ⟨inner, tail⟩ := found
      obtain ⟨hafter, -⟩ := enclosed?_eq_some_iff.1 hfound
      have opening : byteLength (before ++ ['(']) = byteLength before + 1 := byteLength_append ..
      have cut : slice (before ++ '(' :: after) (byteLength before + 1)
          (byteLength before + 1 + byteLength inner) = .ok inner := by
        rw [hafter, List.append_cons, ← opening]
        exact slice_append (before ++ ['(']) inner (')' :: tail)
      have behind : byteLength before + 1 + byteLength inner + 1 =
          byteLength before + byteLength inner + 2 := by omega
      dsimp only [Option.map_some]
      rw [cut, behind]
      rfl
  next closed =>
    have nothing : enclosedAt? offset text = none := by
      cases hfound : enclosedAt? offset text with
      | none => rfl
      | some found =>
        obtain ⟨⟨before, tail, rfl, hbefore, -⟩, -⟩ := enclosedAt?_eq_some_iff.1 hfound
        exact absurd ((getElem?_bytes_eq_some_iff (by decide)).2 ⟨before, _, rfl, hbefore⟩) closed
    rw [nothing]
    rfl

/-- **Closing parentheses.** At a byte offset of a text, the inside of parentheses is found exactly
where the text reads an opening parenthesis, a nested text and a closing one. There is one such
text at most, the offset behind it counts its bytes and the two parentheses, and nothing is found
where there is none. -/
theorem enclosedAt?_exact (offset : Nat) (text : List Char) :
    (∀ inner stop, enclosedAt? offset text = some (inner, stop) ↔
      IsEnclosedAt offset text inner ∧ stop = offset + byteLength inner + 2) ∧
    (∀ inner other, IsEnclosedAt offset text inner → IsEnclosedAt offset text other →
      inner = other) ∧
    (enclosedAt? offset text = none ↔ ∀ inner, ¬IsEnclosedAt offset text inner) := by
  refine ⟨fun inner stop => enclosedAt?_eq_some_iff, fun inner other h h' => ?_, ?_⟩
  · have found := enclosedAt?_eq_some_iff.2 ⟨h, rfl⟩
    rw [enclosedAt?_eq_some_iff.2 ⟨h', rfl⟩] at found
    exact (congrArg Prod.fst (Option.some.inj found)).symm
  · rw [Option.eq_none_iff_forall_ne_some]
    constructor
    · exact fun h inner hinner => h _ (enclosedAt?_eq_some_iff.2 ⟨hinner, rfl⟩)
    · rintro h ⟨inner, stop⟩ found
      exact h inner (enclosedAt?_eq_some_iff.1 found).1

/-- Parentheses in a literal and in a comment close nothing, and an offset counts bytes: the one
behind the first byte of a letter is no place. -/
theorem enclosedAt?_exact_default :
    let inner := "ñ text default ')' /* :) */, b numeric(10, 2)".toList
    let text := "té ".toList ++ '(' :: (inner ++ ')' :: " with (x)".toList)
    enclosedAt? 4 text = some (inner, 52) ∧
      (∀ other, IsEnclosedAt 4 text other → inner = other) ∧
      ∀ other, ¬IsEnclosedAt 2 text other := by
  intro inner text
  have nested : IsNested inner := by decide +kernel
  have there : IsEnclosedAt 4 text inner := ⟨_, _, rfl, by decide +kernel, nested⟩
  obtain ⟨found, unique, -⟩ := enclosedAt?_exact 4 text
  obtain ⟨-, -, nowhere⟩ := enclosedAt?_exact 2 text
  exact ⟨(found inner 52).2 ⟨there, by decide +kernel⟩, fun other => unique inner other there,
    nowhere.1 rfl⟩

end ReleaseSchema.Sql
