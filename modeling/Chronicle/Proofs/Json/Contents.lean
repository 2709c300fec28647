import Chronicle.Json.Lexer

/-!
# What numerals and strings hold

Each integer is the number of the numeral that it is written as (`numeral?_numeral`), and each text
is what stands between the quotes of the string that it is written as (`unescape_escape`). Escapes
have no quote of their own, so that such a string ends where it should.
-/

namespace Chronicle

theorem Whole.ofInt?_value (n : Whole) : ofInt? n.value = some n := by
  rw [ofInt?, dif_pos ⟨n.least, n.greatest⟩]

namespace Json

/-! ### Numerals -/

theorem digitsValue_eq (cs : List Char) : digitsValue cs = Nat.ofDigitChars 10 cs 0 := by
  rw [digitsValue, Nat.ofDigitChars_eq_foldl]
  congr 1
  funext n c
  rw [Nat.mul_comm]
  rfl

@[simp] theorem digitsValue_toDigits (n : Nat) : digitsValue (Nat.toDigits 10 n) = n := by
  rw [digitsValue_eq, Nat.ofDigitChars_ten_toDigits]

theorem isDigit_of_mem_toDigits {n : Nat} {c : Char} (h : c ∈ Nat.toDigits 10 n) :
    c.isDigit = true :=
  Nat.isDigit_of_mem_toDigits (by decide) (by decide) h

theorem spanDigits_toDigits (n : Nat) :
    spanDigits (Nat.toDigits 10 n) = (Nat.toDigits 10 n, []) := by
  have hdigits : ∀ c ∈ Nat.toDigits 10 n, c.isDigit = true := fun c ↦ isDigit_of_mem_toDigits
  have htake : (Nat.toDigits 10 n ++ []).takeWhile Char.isDigit = Nat.toDigits 10 n ++ [] :=
    List.takeWhile_append_of_pos hdigits
  have hdrop : (Nat.toDigits 10 n ++ []).dropWhile Char.isDigit = [] :=
    List.dropWhile_append_of_pos hdigits
  rw [List.append_nil] at htake hdrop
  rw [spanDigits, htake, hdrop]

/-- Only zero starts with the digit zero. -/
theorem head?_toDigits {n : Nat} (h : 0 < n) : (Nat.toDigits 10 n).head?.any (· ≠ '0') = true := by
  induction n using Nat.strongRecOn with
  | ind n ih =>
    rw [Nat.toDigits_eq_if (by decide)]
    split
    case isTrue hlt =>
      have hall : ∀ m : Fin 10, 0 < m.val → m.val.digitChar ≠ '0' := by decide
      simpa using hall ⟨n, hlt⟩ h
    case isFalse hle =>
      have hrest := ih (n / 10) (by omega) (by omega)
      rw [List.head?_append]
      cases hhead : (Nat.toDigits 10 (n / 10)).head? with
      | none => simp [hhead] at hrest
      | some c => simpa [hhead] using hrest

/-- Digits without a leading zero, and without a point or an exponent, are an integer. -/
theorem unsigned?_toDigits (negative : Bool) (n : Nat) :
    unsigned? negative (Nat.toDigits 10 n) =
      some (numberOf negative (Nat.toDigits 10 n) [] none) := by
  have hleading : Nat.toDigits 10 n = ['0'] ∨ (Nat.toDigits 10 n).head?.any (· ≠ '0') = true := by
    rcases Nat.eq_zero_or_pos n with rfl | hpos
    · exact .inl (Nat.toDigits_zero 10)
    · exact .inr (head?_toDigits hpos)
  have hguard : (guard (Nat.toDigits 10 n = ['0'] ∨
      (Nat.toDigits 10 n).head?.any (· ≠ '0') = true) : Option Unit) = some () := if_pos hleading
  rw [unsigned?, spanDigits_toDigits]
  dsimp only
  rw [hguard]
  rfl

/-- Digits are an integer if the value that they have, with their sign, fits. -/
theorem numberOf_eq_whole {negative : Bool} {digits : List Char} {n : Whole}
    (hvalue : (if negative then -(digitsValue digits : Int) else digitsValue digits) = n.value)
    (hzero : negative = true → digitsValue digits ≠ 0) :
    numberOf negative digits [] none = some (.whole n) := by
  have hinteger : (if negative then
      (if digitsValue digits = 0 then none else Whole.ofInt? (-(digitsValue digits : Int)))
      else Whole.ofInt? (digitsValue digits)) = some n := by
    rw [← n.ofInt?_value, ← hvalue]
    cases negative with
    | true => rw [if_pos rfl, if_pos rfl, if_neg (hzero rfl)]
    | false => rw [if_neg Bool.false_ne_true, if_neg Bool.false_ne_true]
  rw [numberOf]
  simp only [List.isEmpty_nil, Option.isNone_none, and_self, if_true, hinteger]

/-- An integer is the number of its numeral. -/
theorem numeral?_numeral (n : Whole) :
    numeral? (Token.numeral (.whole n)) = some (some (.whole n)) := by
  by_cases hnegative : n.value < 0
  case pos =>
    have hnumeral : Token.numeral (.whole n) = '-' :: Nat.toDigits 10 n.value.natAbs :=
      if_pos hnegative
    rw [hnumeral, numeral?, unsigned?_toDigits, numberOf_eq_whole (n := n)]
    · rw [if_pos rfl, digitsValue_toDigits]
      omega
    · rw [digitsValue_toDigits]
      omega
  case neg =>
    have hnumeral : Token.numeral (.whole n) = Nat.toDigits 10 n.value.natAbs := if_neg hnegative
    have hunsigned : numeral? (Nat.toDigits 10 n.value.natAbs) =
        unsigned? false (Nat.toDigits 10 n.value.natAbs) := by
      rw [numeral?]
      intro cs hcs
      have hminus : '-' ∈ Nat.toDigits 10 n.value.natAbs := hcs ▸ List.mem_cons_self
      exact absurd (isDigit_of_mem_toDigits hminus) (by decide)
    rw [hnumeral, hunsigned, unsigned?_toDigits, numberOf_eq_whole (n := n)]
    · rw [if_neg Bool.false_ne_true, digitsValue_toDigits]
      omega
    · exact nofun

/-! ### Strings -/

/-- A character that stands for itself between quotes. -/
def IsPlain (c : Char) : Prop := c ≠ '"' ∧ c ≠ '\\' ∧ ¬ c < ' '

theorem isPlain_digit {n : Nat} (h : n < 16) : IsPlain (Hex.digit n) := by
  have hall : ∀ m : Fin 16, Hex.digit m ≠ '"' ∧ Hex.digit m ≠ '\\' ∧ ¬ Hex.digit m < ' ' := by
    decide
  exact hall ⟨n, h⟩

theorem isPlain_of_mem_write {width n : Nat} : ∀ c ∈ Hex.write width n, IsPlain c := by
  induction width generalizing n with
  | zero => exact nofun
  | succ width ih =>
    intro c hc
    rcases List.mem_append.1 hc with hc | hc
    · exact ih c hc
    · exact List.mem_singleton.1 hc ▸ isPlain_digit (Nat.mod_lt n (by decide))

/-- All ways a character is written between quotes: as a letter after a backslash, as its number, or
as itself. -/
theorem escape_cases (c : Char) :
    (∃ letter, Token.escape c = ['\\', letter] ∧ letter ≠ 'u' ∧ shortEscape? letter = some c) ∨
    (Token.escape c = ['\\', 'u'] ++ Hex.write 4 c.toNat ∧ c < ' ') ∨
    (Token.escape c = [c] ∧ IsPlain c) := by
  unfold Token.escape
  split
  case isTrue h => exact .inl ⟨'"', rfl, by decide, by rw [h]; rfl⟩
  split
  case isTrue h => exact .inl ⟨'\\', rfl, by decide, by rw [h]; rfl⟩
  split
  case isTrue h => exact .inl ⟨'b', rfl, by decide, by rw [h]; rfl⟩
  split
  case isTrue h => exact .inl ⟨'f', rfl, by decide, by rw [h]; rfl⟩
  split
  case isTrue h => exact .inl ⟨'n', rfl, by decide, by rw [h]; rfl⟩
  split
  case isTrue h => exact .inl ⟨'r', rfl, by decide, by rw [h]; rfl⟩
  split
  case isTrue h => exact .inl ⟨'t', rfl, by decide, by rw [h]; rfl⟩
  split
  case isTrue h => exact .inr (.inl ⟨rfl, h⟩)
  case isFalse hquote hbackslash _ _ _ _ _ h =>
    exact .inr (.inr ⟨rfl, hquote, hbackslash, h⟩)

theorem unescape_letter {letter c : Char} (hletter : letter ≠ 'u')
    (h : shortEscape? letter = some c) (rest : Wire) :
    unescape (some '\\' :: some letter :: rest) = (unescape rest).map (prepend (some c)) := by
  rw [unescape, h]
  exact fun _ _ _ _ _ _ ↦ hletter

/-- The number of a control is no half of a surrogate pair. -/
theorem unescape_codeUnit {a b c d : Option Char} {unit : Nat} (h : codeUnit? a b c d = some unit)
    (hunit : unit < 0xD800) (rest : Wire) :
    unescape (some '\\' :: some 'u' :: a :: b :: c :: d :: rest) =
      (unescape rest).map (prepend (some (Char.ofNat unit))) := by
  have hhigh : isHighSurrogate unit = false := by
    simp only [isHighSurrogate, Bool.and_eq_false_iff, decide_eq_false_iff_not]
    omega
  have hlow : isLowSurrogate unit = false := by
    simp only [isLowSurrogate, Bool.and_eq_false_iff, decide_eq_false_iff_not]
    omega
  rw [unescape, h]
  simp [hhigh, hlow]

theorem unescape_plain {c : Char} (h : IsPlain c) (rest : Wire) :
    unescape (some c :: rest) = (unescape rest).map (prepend (some c)) := by
  rw [unescape] <;> simp [h.2.1]

/-- Between quotes, what a character is written as reads as the character. -/
theorem unescape_escape_append (c : Char) (rest : Wire) :
    unescape ((Token.escape c).map some ++ rest) = (unescape rest).map (prepend (some c)) := by
  obtain ⟨letter, hescape, hletter, hshort⟩ | ⟨hescape, hcontrol⟩ | ⟨hescape, hplain⟩ :=
    escape_cases c
  · rw [hescape]
    exact unescape_letter hletter hshort rest
  · have hnumber : c.toNat < 0x20 := hcontrol
    have hdigits : Hex.read? (Hex.write 4 c.toNat) = some c.toNat := Hex.read?_write (by
      have : Nat.pow 16 4 = 0x10000 := rfl
      omega)
    have hread := unescape_codeUnit (a := some _) (b := some _) (c := some _) (d := some _) hdigits
      (by omega) rest
    rw [Char.ofNat_toNat] at hread
    rw [hescape]
    exact hread
  · rw [hescape]
    exact unescape_plain hplain rest

/-- Between quotes, what a text is written as reads as the text. -/
theorem unescape_escape (cs : List Char) :
    unescape ((cs.flatMap Token.escape).map some) = some (some cs) := by
  induction cs with
  | nil => rw [List.flatMap_nil, List.map_nil, unescape]
  | cons c cs ih =>
    rw [List.flatMap_cons, List.map_append, unescape_escape_append, ih]
    rfl

end Json

end Chronicle
