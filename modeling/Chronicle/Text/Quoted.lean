import Chronicle.Text.Hex
import Chronicle.Text.Visible

/-!
# Quoted text

A text as it is shown inside an error or a description: between double quotes, with an escape for
the quote, the backslash, the common controls and everything that would not be seen.
-/

namespace Chronicle.Quoted

/-- The hexadecimal digits of a number without leading zeros. -/
def hexDigits (n : Nat) : List Char :=
  match (Hex.write 6 n).dropWhile (· == '0') with
  | [] => ['0']
  | digits => digits

/-- How one character is shown between quotes. -/
def escape (c : Char) : List Char :=
  if c = '\x00' then ['\\', '0']
  else if c = '\t' then ['\\', 't']
  else if c = '\r' then ['\\', 'r']
  else if c = '\n' then ['\\', 'n']
  else if c = '"' then ['\\', '"']
  else if c = '\\' then ['\\', '\\']
  else if isVisible c then [c]
  else ['\\', 'u', '\x7b'] ++ hexDigits c.toNat ++ ['\x7d']

/-- The text between double quotes. -/
def quote (s : String) : String :=
  String.ofList ('"' :: s.toList.flatMap escape ++ ['"'])

end Chronicle.Quoted
