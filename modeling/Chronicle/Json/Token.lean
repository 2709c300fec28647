import Chronicle.Json.Basic
import Chronicle.Text.Hex
import Chronicle.Decimal.Double

/-!
# The tokens of a JSON text

A token is a mark, a name, a string or a number. It carries its contents in two types, so that the
tokens of a value, whose strings and numbers are known, and the tokens of a text, where a string may
turn out to be ill-formed and a number too large, are the same type at different arguments.

`Token.chars` writes a token in its shortest form: a string escapes the quote, the backslash and the
controls, and nothing else.
-/

namespace Chronicle.Json

/-- A token with strings of one type and numbers of another. -/
inductive Token (σ ν : Type) where
  | openBrace
  | closeBrace
  | openBracket
  | closeBracket
  | comma
  | colon
  | null
  | bool (b : Bool)
  | string (s : σ)
  | number (n : ν)
deriving DecidableEq

namespace Token

/-- How one character is written inside a string. -/
def escape (c : Char) : List Char :=
  if c = '"' then ['\\', '"']
  else if c = '\\' then ['\\', '\\']
  else if c = '\x08' then ['\\', 'b']
  else if c = '\x0c' then ['\\', 'f']
  else if c = '\n' then ['\\', 'n']
  else if c = '\r' then ['\\', 'r']
  else if c = '\t' then ['\\', 't']
  else if c < ' ' then ['\\', 'u'] ++ Hex.write 4 c.toNat
  else [c]

/-- The numeral of a number. -/
def numeral : Number → List Char
  | .whole n =>
    if n.value < 0 then '-' :: Nat.toDigits 10 n.value.natAbs else Nat.toDigits 10 n.value.natAbs
  | .double x => Decimal.writeDouble x

/-- The characters of a token. -/
def chars : Token String Number → List Char
  | .openBrace => ['\x7b']
  | .closeBrace => ['\x7d']
  | .openBracket => ['[']
  | .closeBracket => [']']
  | .comma => [',']
  | .colon => [':']
  | .null => ['n', 'u', 'l', 'l']
  | .bool true => ['t', 'r', 'u', 'e']
  | .bool false => ['f', 'a', 'l', 's', 'e']
  | .string s => '"' :: s.toList.flatMap escape ++ ['"']
  | .number n => numeral n

end Token

/-! ### The tokens of a value -/

mutual

/-- The tokens of a value, followed by those of `rest`. -/
def tokens (rest : List (Token String Number)) : Json → List (Token String Number)
  | .null => .null :: rest
  | .bool b => .bool b :: rest
  | .number n => .number n :: rest
  | .string s => .string s :: rest
  | .array [] => .openBracket :: .closeBracket :: rest
  | .array (item :: items) =>
    .openBracket :: tokens (itemTokens (.closeBracket :: rest) items) item
  | .object [] => .openBrace :: .closeBrace :: rest
  | .object ((key, value) :: members) =>
    .openBrace :: .string key :: .colon ::
      tokens (memberTokens (.closeBrace :: rest) members) value

/-- The tokens of further items, each after a comma. -/
def itemTokens (rest : List (Token String Number)) : List Json → List (Token String Number)
  | [] => rest
  | item :: items => .comma :: tokens (itemTokens rest items) item

/-- The tokens of further members, each after a comma. -/
def memberTokens (rest : List (Token String Number)) :
    List (String × Json) → List (Token String Number)
  | [] => rest
  | (key, value) :: members =>
    .comma :: .string key :: .colon :: tokens (memberTokens rest members) value

end

/-- The compact text of a value. -/
def render (value : Json) : String := String.ofList ((tokens [] value).flatMap Token.chars)

end Chronicle.Json
