/-
UTF-8. Bytes are read as a text exactly where they are the bytes of that text
(`fromUTF8?_eq_some_iff`). The bytes of a character never begin with one of the eight
greatest (`exists_utf8EncodeChar`), and the lesser of two texts has the lesser bytes
(`bytes_lt`).
-/
import Mathlib.Data.List.Basic

namespace ReleaseSchema.Text

variable {bytes : ByteArray}

theorem fromUTF8?_eq_some_iff {text : String} :
    String.fromUTF8? bytes = some text ↔ bytes = text.toUTF8 := by
  unfold String.fromUTF8?
  constructor
  · intro h
    split at h
    next =>
      cases h
      rfl
    next => cases h
  · rintro rfl
    rw [String.toUTF8_eq_toByteArray, dif_pos text.isValidUTF8]
    rfl

theorem fromUTF8?_eq_none_iff : String.fromUTF8? bytes = none ↔ ¬bytes.IsValidUTF8 := by
  unfold String.fromUTF8?
  split
  next valid => simp [valid]
  next invalid => simp [invalid]

theorem toList_eq_data (bytes : ByteArray) : bytes.toList = bytes.data.toList := by
  have passed : ∀ (i : Nat) (before : List UInt8), ByteArray.toList.loop bytes i before =
      before.reverse ++ bytes.data.toList.drop i := by
    intro i before
    fun_induction ByteArray.toList.loop bytes i before with
    | case1 i before inside ih =>
      have hi : i < bytes.data.toList.length := by simpa using inside
      have byte : bytes.get! i = bytes.data.toList[i] := by
        rw [ByteArray.get!, getElem!_pos bytes.data i inside, Array.getElem_toList]
      rw [ih, List.drop_eq_getElem_cons hi, byte]
      simp
    | case2 i before outside =>
      have hi : bytes.data.toList.length ≤ i := by simpa using Nat.le_of_not_lt outside
      rw [List.drop_eq_nil_of_le hi, List.append_nil]
  exact passed 0 []

theorem toList_toUTF8 (text : String) :
    text.toUTF8.toList = text.toList.flatMap String.utf8EncodeChar := by
  have bytes : text.toUTF8 = text.toList.utf8Encode := String.utf8Encode_toList.symm
  rw [toList_eq_data, bytes, List.utf8Encode, List.toList_data_toByteArray]

/-! ## The bytes of a character -/

theorem exists_utf8EncodeChar (c : Char) :
    ∃ first others, String.utf8EncodeChar c = first :: others ∧ first.toNat < 0xF8 := by
  unfold String.utf8EncodeChar
  dsimp only
  split
  · exact ⟨_, _, rfl, by rw [UInt8.toNat_ofNat']; omega⟩
  split
  · exact ⟨_, _, rfl, by rw [UInt8.toNat_ofNat']; omega⟩
  split
  · exact ⟨_, _, rfl, by rw [UInt8.toNat_ofNat']; omega⟩
  · exact ⟨_, _, rfl, by rw [UInt8.toNat_ofNat']; omega⟩

theorem ofNat_cons_lt {m n : Nat} {a b : List UInt8} (hn : n < 256) (h : m ≤ n)
    (behind : m = n → a < b) : UInt8.ofNat m :: a < UInt8.ofNat n :: b := by
  rw [List.cons_lt_cons_iff]
  rcases Nat.lt_or_eq_of_le h with h | rfl
  · left
    rw [UInt8.lt_iff_toNat_lt, UInt8.toNat_ofNat', UInt8.toNat_ofNat']
    omega
  · exact .inr ⟨rfl, behind rfl⟩

/-- The bytes of two characters differ, and the lesser character has the lesser one there. -/
theorem utf8EncodeChar_append_lt {c d : Char} (h : c < d) (a b : List UInt8) :
    String.utf8EncodeChar c ++ a < String.utf8EncodeChar d ++ b := by
  have hlt : c.val.toNat < d.val.toNat := UInt32.lt_iff_toNat_lt.1 h
  have hd : d.val.toNat < 0xD800 ∨ 0xDFFF < d.val.toNat ∧ d.val.toNat < 0x110000 := d.valid
  have differs : ∀ {m n : Nat} {a b : List UInt8}, n < 256 → m < n →
      UInt8.ofNat m :: a < UInt8.ofNat n :: b :=
    fun hn hmn => ofNat_cons_lt hn (Nat.le_of_lt hmn) fun same => absurd same (Nat.ne_of_lt hmn)
  unfold String.utf8EncodeChar
  dsimp only
  generalize c.val.toNat = v at *
  generalize d.val.toNat = w at *
  -- a longer form begins with a greater byte; forms of one length are compared byte by byte
  split_ifs <;> (try (exfalso; omega)) <;> simp only [List.cons_append, List.nil_append]
  · exact differs (by omega) (by omega)
  · exact differs (by omega) (by omega)
  · exact differs (by omega) (by omega)
  · exact differs (by omega) (by omega)
  · exact ofNat_cons_lt (by omega) (by omega) fun _ => differs (by omega) (by omega)
  · exact differs (by omega) (by omega)
  · exact differs (by omega) (by omega)
  · exact ofNat_cons_lt (by omega) (by omega) fun _ =>
      ofNat_cons_lt (by omega) (by omega) fun _ => differs (by omega) (by omega)
  · exact differs (by omega) (by omega)
  · exact ofNat_cons_lt (by omega) (by omega) fun _ =>
      ofNat_cons_lt (by omega) (by omega) fun _ =>
        ofNat_cons_lt (by omega) (by omega) fun _ => differs (by omega) (by omega)

/-- **Order.** Texts are in the order of their bytes. -/
theorem bytes_lt {a b : String} (h : a < b) : a.toUTF8.toList < b.toUTF8.toList := by
  have chars : ∀ {x y : List Char}, x < y →
      x.flatMap String.utf8EncodeChar < y.flatMap String.utf8EncodeChar := by
    intro x
    induction x with
    | nil =>
      intro y hxy
      cases y with
      | nil => exact absurd hxy (List.not_lt_nil _)
      | cons d y =>
        obtain ⟨first, others, hd, -⟩ := exists_utf8EncodeChar d
        rw [List.flatMap_nil, List.flatMap_cons, hd]
        exact List.nil_lt_cons _ _
    | cons c x ih =>
      intro y hxy
      cases y with
      | nil => exact absurd hxy (List.not_lt_nil _)
      | cons d y =>
        rw [List.flatMap_cons, List.flatMap_cons]
        rcases List.cons_lt_cons_iff.1 hxy with hcd | ⟨rfl, behind⟩
        · exact utf8EncodeChar_append_lt hcd _ _
        · exact List.append_left_lt (ih behind)
  rw [toList_toUTF8, toList_toUTF8]
  exact chars h

end ReleaseSchema.Text
