/-
The camel case of snake_case names whose words begin with small ASCII letters. Such a name
is cut at its underscores (`snakeWords_chars`), and nothing of it changes but the first
letter of every later word, which becomes a capital. Those are its only ASCII capitals, so
the name is read back from its camel case (`snakeCase_camelCase`), and no two names have the
same one (`camelCase_inj`).
-/
import ReleaseSchema.Proofs.Text.Bytes

namespace ReleaseSchema.Text

/-! ## Names -/

/-- A character of a word that lower case leaves as it is, such as a small letter or a digit of any
script. It draws nothing behind it into its grapheme cluster. -/
def isSnakeChar (c : Char) : Bool := c != '_' && lowerChar c == [c] && !drawsNext c

/-- A small ASCII letter, and small letters and digits behind it. -/
inductive IsSnakeWord : List Char → Prop
  | mk {first : Char} {rest : List Char} (letter : first.isLower = true)
      (others : ∀ c ∈ rest, isSnakeChar c = true) : IsSnakeWord (first :: rest)

instance : (word : List Char) → Decidable (IsSnakeWord word)
  | [] => .isFalse nofun
  | first :: rest =>
    decidable_of_iff (first.isLower = true ∧ rest.all isSnakeChar = true)
      ⟨fun ⟨letter, others⟩ => ⟨letter, List.all_eq_true.1 others⟩,
        fun ⟨letter, others⟩ => ⟨letter, List.all_eq_true.2 others⟩⟩

/-- The words of a name; there is one at least. -/
structure SnakeName where
  first : List Char
  others : List (List Char)
  isWord_first : IsSnakeWord first
  isWord_others : ∀ word ∈ others, IsSnakeWord word

/-- The name as it is written, with single underscores between the words. -/
def SnakeName.chars (n : SnakeName) : List Char := n.first ++ n.others.flatMap ('_' :: ·)

/-! ## Letters and digits -/

section Characters

variable {c : Char}

theorem isSnakeChar_iff :
    isSnakeChar c = true ↔ (c ≠ '_' ∧ lowerChar c = [c]) ∧ drawsNext c = false := by
  simp [isSnakeChar]

theorem isAsciiAlphanumeric_eq :
    isAsciiAlphanumeric c = (c.isUpper || c.isLower || c.isDigit) := rfl

theorem isSnakeChar_of_ascii (h : (c.isLower || c.isDigit) = true) : isSnakeChar c = true := by
  have alphanumeric : isAsciiAlphanumeric c = true := by
    rw [isAsciiAlphanumeric_eq, Bool.or_assoc, h, Bool.or_true]
  exact of_ascii (P := fun c => (c.isLower || c.isDigit) = true → isSnakeChar c = true)
    (toNat_lt_of_isAsciiAlphanumeric alphanumeric) (by decide +kernel) h

theorem toLower_of_isSnakeChar (h : isSnakeChar c = true) : c.toLower = c := by
  by_cases ascii : c.toNat < 0x80
  · have small := (isSnakeChar_iff.1 h).1.2
    rw [lowerChar, if_pos ascii] at small
    exact List.singleton_inj.1 small
  · exact toLower_of_great (Nat.le_of_not_lt ascii)

theorem ne_sigma_of_isSnakeChar (h : isSnakeChar c = true) : c ≠ 'Σ' := by
  rintro rfl
  exact absurd h (by decide +kernel)

theorem isUpper_of_isSnakeChar (h : isSnakeChar c = true) : c.isUpper = false := by
  rw [← Bool.not_eq_true]
  intro upper
  have alphanumeric : isAsciiAlphanumeric c = true := by
    rw [isAsciiAlphanumeric_eq, upper, Bool.true_or, Bool.true_or]
  have ascii := toNat_lt_of_isAsciiAlphanumeric alphanumeric
  exact of_ascii (P := fun c => c.isUpper = true → c.toLower ≠ c) ascii (by decide +kernel) upper
    (toLower_of_isSnakeChar h)

/-- A small ASCII letter begins a grapheme cluster, and has a capital, which is made small again. -/
theorem capital_of_isLower (h : c.isLower = true) :
    joinsCluster c = false ∧ upperChar c = [c.toUpper] ∧ c.toUpper.isUpper = true ∧
      c.toUpper.toLower = c := by
  have alphanumeric : isAsciiAlphanumeric c = true := by
    rw [isAsciiAlphanumeric_eq, h, Bool.or_true, Bool.true_or]
  have ascii := toNat_lt_of_isAsciiAlphanumeric alphanumeric
  exact of_ascii (P := fun c => c.isLower = true → joinsCluster c = false ∧
    upperChar c = [c.toUpper] ∧ c.toUpper.isUpper = true ∧ c.toUpper.toLower = c) ascii
    (by decide +kernel) h

end Characters

theorem IsSnakeWord.isSnakeChar {word : List Char} (h : IsSnakeWord word) :
    ∀ c ∈ word, isSnakeChar c = true := by
  obtain ⟨letter, others⟩ := h
  exact List.forall_mem_cons.2 ⟨isSnakeChar_of_ascii (by rw [letter, Bool.true_or]), others⟩

/-! ## Words -/

section Words

variable {before : Option Char} {passed word rest : List Char}

theorem lowerFrom_of_isSnakeChar (h : ∀ c ∈ word, isSnakeChar c = true) :
    lowerFrom passed word = word := by
  induction word generalizing passed with
  | nil => rfl
  | cons c word ih =>
    obtain ⟨hc, hword⟩ := List.forall_mem_cons.1 h
    rw [lowerFrom, if_neg (ne_sigma_of_isSnakeChar hc), (isSnakeChar_iff.1 hc).1.2, ih hword,
      List.singleton_append]

theorem IsSnakeWord.lower_eq (h : IsSnakeWord word) : lower word = word :=
  lowerFrom_of_isSnakeChar h.isSnakeChar

theorem snakeWordsFrom_last (h : ∀ c ∈ word, isSnakeChar c = true) :
    snakeWordsFrom before passed word = [passed.reverse ++ word] := by
  induction word generalizing before passed with
  | nil => rw [snakeWordsFrom, List.append_nil]
  | cons c word ih =>
    obtain ⟨hc, hword⟩ := List.forall_mem_cons.1 h
    rw [snakeWordsFrom, if_neg (by simp [(isSnakeChar_iff.1 hc).1.1]), ih hword,
      List.reverse_cons, List.append_assoc, List.singleton_append]

/-- A word ends at the underscore in front of another one. -/
theorem snakeWordsFrom_append {next : Char} (hbefore : before.any drawsNext = false)
    (h : ∀ c ∈ word, isSnakeChar c = true) (hnext : joinsCluster next = false) :
    snakeWordsFrom before passed (word ++ '_' :: next :: rest) =
      (passed.reverse ++ word) :: snakeWordsFrom (some '_') [] (next :: rest) := by
  induction word generalizing before passed with
  | nil =>
    have separates : ('_' = '_' && !before.any drawsNext &&
        !(next :: rest).head?.any joinsCluster) = true := by
      simp [hbefore, hnext]
    rw [List.nil_append, snakeWordsFrom, if_pos separates, List.append_nil]
  | cons c word ih =>
    obtain ⟨hc, hword⟩ := List.forall_mem_cons.1 h
    have hbefore : (some c).any drawsNext = false := (isSnakeChar_iff.1 hc).2
    rw [List.cons_append, snakeWordsFrom, if_neg (by simp [(isSnakeChar_iff.1 hc).1.1]),
      ih hbefore hword, List.reverse_cons, List.append_assoc, List.singleton_append]

theorem snakeWordsFrom_words {others : List (List Char)} (hbefore : before.any drawsNext = false)
    (h : ∀ c ∈ word, isSnakeChar c = true) (hothers : ∀ word ∈ others, IsSnakeWord word) :
    snakeWordsFrom before [] (word ++ others.flatMap ('_' :: ·)) = word :: others := by
  induction others generalizing before word with
  | nil =>
    rw [List.flatMap_nil, List.append_nil, snakeWordsFrom_last h]
    rfl
  | cons other others ih =>
    obtain ⟨hother, hothers⟩ := List.forall_mem_cons.1 hothers
    have plain := hother.isSnakeChar
    have underscore : (some '_').any drawsNext = false := by decide +kernel
    have more := ih underscore plain hothers
    cases hother with
    | @mk next rest letter _ =>
      rw [List.flatMap_cons, List.cons_append, List.cons_append,
        snakeWordsFrom_append hbefore h (capital_of_isLower letter).1, ← List.cons_append, more]
      rfl

end Words

namespace SnakeName

variable (n : SnakeName)

theorem lowerAscii_chars : lowerAscii n.chars = n.chars := by
  have small {word : List Char} (h : IsSnakeWord word) : ∀ c ∈ word, c.toLower = c :=
    fun c hc => toLower_of_isSnakeChar (h.isSnakeChar c hc)
  have all : ∀ c ∈ n.chars, c.toLower = c := by
    simp only [chars, List.forall_mem_append, List.mem_flatMap, forall_exists_index, and_imp]
    refine ⟨small n.isWord_first, fun c word hword hc => ?_⟩
    rcases List.mem_cons.1 hc with rfl | hc
    · rfl
    · exact small (n.isWord_others word hword) c hc
  rw [lowerAscii, List.map_congr_left all, List.map_id']

theorem snakeWords_chars : snakeWords n.chars = n.first :: n.others :=
  snakeWordsFrom_words rfl n.isWord_first.isSnakeChar n.isWord_others

theorem camelCase_chars :
    camelCase n.chars = n.first ++ (n.others.map capitalized).flatten := by
  rw [camelCase, n.lowerAscii_chars, n.snakeWords_chars]
  exact congrArg (· ++ _) n.isWord_first.lower_eq

end SnakeName

/-! ## Reading back -/

/-- The name with an underscore and a small letter for every capital. -/
def snakeCase (name : List Char) : List Char :=
  name.flatMap fun c => if c.isUpper then ['_', c.toLower] else [c]

theorem snakeCase_append (a b : List Char) : snakeCase (a ++ b) = snakeCase a ++ snakeCase b :=
  List.flatMap_append

theorem snakeCase_of_isSnakeChar {text : List Char} (h : ∀ c ∈ text, isSnakeChar c = true) :
    snakeCase text = text := by
  induction text with
  | nil => rfl
  | cons c text ih =>
    obtain ⟨hc, htext⟩ := List.forall_mem_cons.1 h
    have ih := ih htext
    rw [snakeCase] at ih ⊢
    rw [List.flatMap_cons, isUpper_of_isSnakeChar hc, ih]
    rfl

/-- The capital of a word stands for its underscore and its first letter. -/
theorem IsSnakeWord.snakeCase_capitalized {word : List Char} (h : IsSnakeWord word) :
    snakeCase (capitalized word) = '_' :: word := by
  obtain @⟨first, rest, letter, others⟩ := h
  obtain ⟨-, capital, isUpper, small⟩ := capital_of_isLower letter
  rw [capitalized, capital, lower, lowerFrom_of_isSnakeChar others, snakeCase_append,
    snakeCase_of_isSnakeChar others]
  simp [snakeCase, isUpper, small]

theorem snakeCase_flatten {words : List (List Char)} (h : ∀ word ∈ words, IsSnakeWord word) :
    snakeCase (words.map capitalized).flatten = words.flatMap ('_' :: ·) := by
  induction words with
  | nil => rfl
  | cons word words ih =>
    obtain ⟨hword, hwords⟩ := List.forall_mem_cons.1 h
    rw [List.map_cons, List.flatten_cons, snakeCase_append, hword.snakeCase_capitalized, ih hwords,
      List.flatMap_cons]

namespace SnakeName

/-- A name is read back from its camel case. -/
theorem snakeCase_camelCase (n : SnakeName) : snakeCase (camelCase n.chars) = n.chars := by
  rw [n.camelCase_chars, snakeCase_append, snakeCase_of_isSnakeChar n.isWord_first.isSnakeChar,
    snakeCase_flatten n.isWord_others, chars]

example : snakeCase "address2Città".toList = "address2_città".toList := rfl

/-- **Camel case.** No two snake_case names have the same camel case. -/
theorem camelCase_inj {m n : SnakeName} :
    camelCase m.chars = camelCase n.chars ↔ m.chars = n.chars := by
  constructor
  · intro same
    calc m.chars = snakeCase (camelCase m.chars) := m.snakeCase_camelCase.symm
      _ = snakeCase (camelCase n.chars) := by rw [same]
      _ = n.chars := n.snakeCase_camelCase
  · exact congrArg camelCase

/-- A name with a digit inside and a letter outside ASCII. -/
def addressCity : SnakeName where
  first := "address2".toList
  others := ["line".toList, "città".toList]
  isWord_first := by decide +kernel
  isWord_others := by decide +kernel

example : camelCase addressCity.chars = "address2LineCittà".toList := by decide +kernel

end SnakeName

end ReleaseSchema.Text
