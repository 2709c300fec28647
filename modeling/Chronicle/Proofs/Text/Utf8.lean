import Chronicle.Text.Utf8

/-!
# Texts and their bytes

The UTF-8 bytes of a text read as its characters (`Wire.ofBytes_toUTF8`): every character is written
as one well-formed sequence, which is read back as that character whatever follows it.
-/

namespace Chronicle.Wire

/-- A character is the one of its code point. -/
theorem scalar?_toNat {c : Char} {least : Nat} (h : least ≤ c.toNat) :
    scalar? least c.toNat = some c := by
  have hvalid : c.toNat.isValidChar := c.valid
  rw [scalar?, dif_pos hvalid, if_pos h]
  rfl

/-! ### Sequences of each length

The steps of the reader are rewritten one by one, because to check that it computes so would have
the numbers of the code points computed too. -/

section Sequences

variable {a b c d : UInt8} {n : Nat} (rest : List UInt8)

theorem continuation?_of_toNat (h : b.toNat = n % 64 + 0x80) : continuation? b = some (n % 64) := by
  have hrange : 128 ≤ n % 64 + 128 ∧ n % 64 + 128 ≤ 191 := by omega
  simp [continuation?, UInt8.le_iff_toNat_le, h, hrange]

theorem firstChar?_one (ha : a.toNat = n) (h : n < 0x80) :
    firstChar? (a :: rest) = (scalar? 0 n).map (·, 0) := by
  simp [firstChar?, UInt8.lt_iff_toNat_lt, ha, h]

theorem firstChar?_two (ha : a.toNat = n / 64 % 0x20 + 0xc0) (hb : b.toNat = n % 64 + 0x80)
    (h : n < 0x800) : firstChar? (a :: b :: rest) = (scalar? 0x80 n).map (·, 1) := by
  have hkind : ¬ a < 0x80 ∧ (0xC0 ≤ a ∧ a < 0xE0) := by
    simp only [UInt8.lt_iff_toNat_lt, UInt8.le_iff_toNat_le, ha, UInt8.reduceToNat]
    omega
  have hvalue : (a.toNat - 0xC0) * 64 + n % 64 = n := by
    rw [ha]
    omega
  rw [firstChar?, if_neg hkind.1, if_pos hkind.2]
  rw [continuation?_of_toNat hb, Option.bind_eq_bind, Option.bind_some, hvalue]

theorem firstChar?_three (ha : a.toNat = n / 4096 % 0x10 + 0xe0) (hb : b.toNat = n / 64 % 64 + 0x80)
    (hc : c.toNat = n % 64 + 0x80) (h : n < 0x10000) :
    firstChar? (a :: b :: c :: rest) = (scalar? 0x800 n).map (·, 2) := by
  have hkind : ¬ a < 0x80 ∧ ¬ (0xC0 ≤ a ∧ a < 0xE0) ∧ (0xE0 ≤ a ∧ a < 0xF0) := by
    simp only [UInt8.lt_iff_toNat_lt, UInt8.le_iff_toNat_le, ha, UInt8.reduceToNat]
    omega
  have hvalue : (a.toNat - 0xE0) * 4096 + n / 64 % 64 * 64 + n % 64 = n := by
    rw [ha]
    omega
  rw [firstChar?, if_neg hkind.1, if_neg hkind.2.1, if_pos hkind.2.2]
  dsimp only
  rw [continuation?_of_toNat hb, continuation?_of_toNat hc, Option.bind_eq_bind, Option.bind_some,
    Option.bind_some, hvalue]

theorem firstChar?_four (ha : a.toNat = n / 262144 % 0x08 + 0xf0)
    (hb : b.toNat = n / 4096 % 64 + 0x80) (hc : c.toNat = n / 64 % 64 + 0x80)
    (hd : d.toNat = n % 64 + 0x80) (h : n < 0x200000) :
    firstChar? (a :: b :: c :: d :: rest) = (scalar? 0x10000 n).map (·, 3) := by
  have hkind : ¬ a < 0x80 ∧ ¬ (0xC0 ≤ a ∧ a < 0xE0) ∧ ¬ (0xE0 ≤ a ∧ a < 0xF0) ∧
      (0xF0 ≤ a ∧ a < 0xF8) := by
    simp only [UInt8.lt_iff_toNat_lt, UInt8.le_iff_toNat_le, ha, UInt8.reduceToNat]
    omega
  have hvalue : (a.toNat - 0xF0) * 262144 + n / 4096 % 64 * 4096 + n / 64 % 64 * 64 + n % 64 =
      n := by
    rw [ha]
    omega
  rw [firstChar?, if_neg hkind.1, if_neg hkind.2.1, if_neg hkind.2.2.1, if_pos hkind.2.2.2]
  dsimp only
  rw [continuation?_of_toNat hb, continuation?_of_toNat hc, continuation?_of_toNat hd,
    Option.bind_eq_bind, Option.bind_some, Option.bind_some, Option.bind_some, hvalue]

end Sequences

/-! ### Texts -/

theorem toNat_byte {n : Nat} (h : n < 256) : (UInt8.ofNat n).toNat = n :=
  UInt8.toNat_ofNat_of_lt' h

/-- The bytes of a character start with its sequence, whatever follows. -/
theorem firstChar?_utf8EncodeChar (c : Char) (rest : List UInt8) :
    firstChar? (String.utf8EncodeChar c ++ rest) =
      some (c, (String.utf8EncodeChar c).length - 1) := by
  have hbound : c.toNat < 0x200000 := by
    have hvalid : c.toNat < 0xd800 ∨ 0xdfff < c.toNat ∧ c.toNat < 0x110000 := c.valid
    omega
  have hcode : c.val.toNat = c.toNat := rfl
  rw [String.utf8EncodeChar, hcode]
  split
  case isTrue h =>
    refine (firstChar?_one rest (toNat_byte (by omega)) (by omega)).trans ?_
    rw [scalar?_toNat (Nat.zero_le _)]
    rfl
  case isFalse h1 =>
    split
    case isTrue h =>
      refine (firstChar?_two rest (toNat_byte (by omega)) (toNat_byte (by omega)) (by omega)).trans
        ?_
      rw [scalar?_toNat (by omega)]
      rfl
    case isFalse h2 =>
      split
      case isTrue h =>
        refine (firstChar?_three rest (toNat_byte (by omega)) (toNat_byte (by omega))
          (toNat_byte (by omega)) (by omega)).trans ?_
        rw [scalar?_toNat (by omega)]
        rfl
      case isFalse h3 =>
        refine (firstChar?_four rest (toNat_byte (by omega)) (toNat_byte (by omega))
          (toNat_byte (by omega)) (toNat_byte (by omega)) (by omega)).trans ?_
        rw [scalar?_toNat (by omega)]
        rfl

theorem ofBytes_utf8EncodeChar_append (c : Char) (rest : List UInt8) :
    ofBytes (String.utf8EncodeChar c ++ rest) = some c :: ofBytes rest := by
  have hfirst := firstChar?_utf8EncodeChar c rest
  obtain ⟨a, as, hbytes⟩ := List.exists_cons_of_ne_nil (String.utf8EncodeChar_ne_nil (c := c))
  rw [hbytes, List.cons_append] at hfirst ⊢
  rw [ofBytes, hfirst]
  simp

/-- The bytes of a text read as its characters. -/
theorem ofBytes_toUTF8 (s : String) : ofBytes s.toUTF8.data.toList = ofString s := by
  have hbytes : s.toUTF8.data.toList = s.toList.flatMap String.utf8EncodeChar := by
    show s.toByteArray.data.toList = _
    rw [← String.utf8Encode_toList, List.utf8Encode]
    simp
  rw [hbytes, ofString]
  induction s.toList with
  | nil => exact ofBytes.eq_1
  | cons c cs ih => rw [List.flatMap_cons, ofBytes_utf8EncodeChar_append, ih, List.map_cons]

end Chronicle.Wire
