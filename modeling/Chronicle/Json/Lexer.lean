import Chronicle.Json.Token
import Chronicle.Text.Utf8

/-!
# Reading tokens

A text is read one character at a time, by a machine that knows whether it stands between tokens,
inside a word, inside a numeral or inside a string. Words and numerals end at the first character
that cannot belong to them, which is then read afresh.

A string is well-formed when its escapes are, whatever the characters between them; its contents are
unknown (`none`) if it holds malformed bytes or half of a surrogate pair. In the same way a numeral
is well-formed whatever its size, and its number unknown if no double is that large. So a reader may
pass over a value that it does not need without judging what the value is.
-/

namespace Chronicle.Json

/-- A token of a text, with the contents that are known. -/
abbrev Lexeme := Token (Option String) (Option Number)

/-! ### Strings -/

/-- Puts a character in front of the contents of a string, which are unknown once either is. -/
def prepend (c : Option Char) (contents : Option (List Char)) : Option (List Char) :=
  match c, contents with
  | some c, some cs => some (c :: cs)
  | _, _ => none

/-- The number of four hexadecimal digits. -/
def codeUnit? (a b c d : Option Char) : Option Nat := do
  Hex.read? [← a, ← b, ← c, ← d]

/-- The character of a letter that stands for one after a backslash. -/
def shortEscape? (c : Char) : Option Char :=
  if c = '"' then some '"'
  else if c = '\\' then some '\\'
  else if c = '/' then some '/'
  else if c = 'b' then some '\x08'
  else if c = 'f' then some '\x0c'
  else if c = 'n' then some '\n'
  else if c = 'r' then some '\r'
  else if c = 't' then some '\t'
  else none

/-- Whether a code unit is the first half of a surrogate pair. -/
def isHighSurrogate (n : Nat) : Bool := 0xD800 ≤ n && n < 0xDC00

/-- Whether a code unit is the second half of a surrogate pair. -/
def isLowSurrogate (n : Nat) : Bool := 0xDC00 ≤ n && n < 0xE000

/-- Reads what stands between the quotes: `none` if an escape is ill-formed, `some none` if the
contents are unknown. The escape of a high surrogate must be followed by that of a low one. -/
def unescape : Wire → Option (Option (List Char))
  | [] => some (some [])
  | some '\\' :: some 'u' :: a :: b :: c :: d :: rest =>
    match codeUnit? a b c d with
    | none => none
    | some unit =>
      if isHighSurrogate unit then
        match rest with
        | some '\\' :: some 'u' :: e :: f :: g :: h :: rest =>
          match codeUnit? e f g h with
          | none => none
          | some low =>
            if isLowSurrogate low then
              let c := Char.ofNat ((unit - 0xD800) * 0x400 + (low - 0xDC00) + 0x10000)
              (unescape rest).map (prepend (some c))
            else (unescape rest).map fun _ ↦ none
        | rest => (unescape rest).map fun _ ↦ none
      else if isLowSurrogate unit then (unescape rest).map fun _ ↦ none
      else (unescape rest).map (prepend (some (Char.ofNat unit)))
  | some '\\' :: some c :: rest =>
    match shortEscape? c with
    | none => none
    | some c => (unescape rest).map (prepend (some c))
  | some '\\' :: _ => none
  | c :: rest => (unescape rest).map (prepend c)

/-! ### Numerals -/

/-- The digits that a text starts with, and the rest. -/
def spanDigits (cs : List Char) : List Char × List Char :=
  (cs.takeWhile Char.isDigit, cs.dropWhile Char.isDigit)

/-- The value of decimal digits. -/
def digitsValue (cs : List Char) : Nat := cs.foldl (fun n c ↦ n * 10 + (c.toNat - 48)) 0

/-- The number of a numeral in its parts. Without a point or an exponent it is an integer if it fits
a 64-bit word, and a double otherwise; so is a zero with a sign. -/
def numberOf (negative : Bool) (whole fraction : List Char) (exponent : Option Int) :
    Option Number :=
  let n := digitsValue whole
  let integer :=
    if fraction.isEmpty ∧ exponent.isNone then
      if negative then (if n = 0 then none else Whole.ofInt? (-n)) else Whole.ofInt? n
    else none
  match integer with
  | some n => some (.whole n)
  | none => (Decimal.readDouble? negative whole fraction (exponent.getD 0)).map .double

/-- The exponent of a numeral: an `e`, a sign if there is one, and digits. -/
def exponent? (cs : List Char) : Option (Option Int) :=
  match cs with
  | [] => some none
  | c :: cs =>
    if c = 'e' ∨ c = 'E' then
      let (sign, digits) : Int × List Char := match cs with
        | '-' :: digits => (-1, digits)
        | '+' :: digits => (1, digits)
        | digits => (1, digits)
      if digits.isEmpty ∨ !digits.all Char.isDigit then none
      else some (some (sign * digitsValue digits))
    else none

/-- The fraction of a numeral, a point and digits, and the rest. -/
def fraction? (cs : List Char) : Option (List Char × List Char) :=
  match cs with
  | '.' :: cs =>
    let (digits, rest) := spanDigits cs
    if digits.isEmpty then none else some (digits, rest)
  | cs => some ([], cs)

/-- Reads a numeral without its sign: `none` if it is ill-formed, as with a leading zero. -/
def unsigned? (negative : Bool) (cs : List Char) : Option (Option Number) := do
  let (whole, rest) := spanDigits cs
  guard (whole = ['0'] ∨ whole.head?.any (· ≠ '0'))
  let (fraction, rest) ← fraction? rest
  let exponent ← exponent? rest
  pure (numberOf negative whole fraction exponent)

/-- Reads a numeral. -/
def numeral? : List Char → Option (Option Number)
  | '-' :: cs => unsigned? true cs
  | cs => unsigned? false cs

/-! ### The machine -/

/-- Where the machine stands. Words, numerals and strings are kept as read so far, latest first. -/
inductive Mode where
  | between
  | word (letters : List Char)
  | numeral (chars : List Char)
  | quoted (body : Wire) (escaped : Bool)

/-- The mode and the tokens read so far, latest first. -/
structure Scan where
  mode : Mode
  read : List Lexeme

namespace Scan

/-- The machine before the first character. -/
def start : Scan := ⟨.between, []⟩

/-- The token of a word. -/
def word? (letters : List Char) : Option Lexeme :=
  if letters = ['n', 'u', 'l', 'l'] then some .null
  else if letters = ['t', 'r', 'u', 'e'] then some (.bool true)
  else if letters = ['f', 'a', 'l', 's', 'e'] then some (.bool false)
  else none

/-- The characters that words are made of. -/
def isWordChar (c : Char) : Bool := 'a' ≤ c && c ≤ 'z'

/-- The characters that numerals are made of. -/
def isNumeralChar (c : Char) : Bool :=
  c.isDigit || c = '-' || c = '+' || c = '.' || c = 'e' || c = 'E'

/-- Reads a character between tokens. -/
def open? (read : List Lexeme) (c : Char) : Option Scan :=
  if c = ' ' ∨ c = '\n' ∨ c = '\t' ∨ c = '\r' then some ⟨.between, read⟩
  else if c = '\x7b' then some ⟨.between, .openBrace :: read⟩
  else if c = '\x7d' then some ⟨.between, .closeBrace :: read⟩
  else if c = '[' then some ⟨.between, .openBracket :: read⟩
  else if c = ']' then some ⟨.between, .closeBracket :: read⟩
  else if c = ',' then some ⟨.between, .comma :: read⟩
  else if c = ':' then some ⟨.between, .colon :: read⟩
  else if c = '"' then some ⟨.quoted [] false, read⟩
  else if c.isDigit ∨ c = '-' then some ⟨.numeral [c], read⟩
  else if isWordChar c then some ⟨.word [c], read⟩
  else none

/-- Reads a character inside a string. A control must be escaped, and no escape is of a control. -/
def inString? (read : List Lexeme) (body : Wire) (escaped : Bool) (c : Option Char) :
    Option Scan :=
  if escaped then some ⟨.quoted (c :: body) false, read⟩
  else if c = some '\\' then some ⟨.quoted (c :: body) true, read⟩
  else if c = some '"' then do
    let contents ← unescape body.reverse
    pure ⟨.between, .string (contents.map String.ofList) :: read⟩
  else if c.any (· < ' ') then none
  else some ⟨.quoted (c :: body) false, read⟩

/-- Ends a word or a numeral. -/
def close? (s : Scan) : Option (List Lexeme) :=
  match s.mode with
  | .between => some s.read
  | .word letters => (word? letters.reverse).map (· :: s.read)
  | .numeral chars => (numeral? chars.reverse).map (.number · :: s.read)
  | .quoted _ _ => none

/-- Reads one character. -/
def step (s : Scan) (c : Option Char) : Option Scan :=
  match s.mode, c with
  | .quoted body escaped, c => inString? s.read body escaped c
  | _, none => none
  | .between, some c => open? s.read c
  | .word letters, some c =>
    if isWordChar c then some ⟨.word (c :: letters), s.read⟩
    else do open? (← s.close?) c
  | .numeral chars, some c =>
    if isNumeralChar c then some ⟨.numeral (c :: chars), s.read⟩
    else do open? (← s.close?) c

end Scan

/-- The tokens of a text. -/
def lex (text : Wire) : Option (List Lexeme) := do
  let s ← text.foldlM Scan.step Scan.start
  let read ← s.close?
  pure read.reverse

end Chronicle.Json
