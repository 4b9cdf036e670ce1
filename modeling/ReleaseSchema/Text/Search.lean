/-
Places at which a text is cut: where another text occurs in it, and how many
bytes of its UTF-8 form are in front. What follows an occurrence is no longer
than the whole (`length_splitAt`).
-/
namespace ReleaseSchema.Text

/-! ## Occurrences -/

/-- The text before the first occurrence of `needle` and the text after it. -/
def splitAtFrom? (needle passed : List Char) : List Char → Option (List Char × List Char)
  | [] => if needle.isEmpty then some (passed.reverse, []) else none
  | c :: rest =>
    if needle.isPrefixOf (c :: rest) then some (passed.reverse, (c :: rest).drop needle.length)
    else splitAtFrom? needle (c :: passed) rest

def splitAt? (needle text : List Char) : Option (List Char × List Char) :=
  splitAtFrom? needle [] text

theorem length_splitAtFrom {needle passed text before after : List Char}
    (h : splitAtFrom? needle passed text = some (before, after)) : after.length ≤ text.length := by
  fun_induction splitAtFrom? needle passed text with
  | case1 => cases h; exact Nat.le_refl _
  | case2 => cases h
  | case3 passed c rest _ => cases h; exact (List.drop_sublist _ _).length_le
  | case4 passed c rest _ ih => exact Nat.le_succ_of_le (ih h)

theorem length_splitAt {needle text before after : List Char}
    (h : splitAt? needle text = some (before, after)) : after.length ≤ text.length :=
  length_splitAtFrom h

theorem length_dropWhile_le (p : α → Bool) (text : List α) :
    (text.dropWhile p).length ≤ text.length := (List.dropWhile_sublist p).length_le

def contains (needle text : List Char) : Bool := (splitAt? needle text).isSome

/-- Every `old` character written as `new`. -/
def replaceChar (old new : Char) (text : List Char) : List Char :=
  text.map fun c => if c = old then new else c

/-! ## Byte offsets -/

def byteLength : List Char → Nat
  | [] => 0
  | c :: rest => c.utf8Size + byteLength rest

/-- The text before and after a byte offset; an offset inside a character or behind the end is no
place. -/
def splitAtByte? : Nat → List Char → Option (List Char × List Char)
  | 0, text => some ([], text)
  | _ + 1, [] => none
  | n + 1, c :: rest =>
    if c.utf8Size ≤ n + 1 then
      (splitAtByte? (n + 1 - c.utf8Size) rest).map fun (before, after) => (c :: before, after)
    else none

end ReleaseSchema.Text
