import Chronicle.Text.Hex

/-!
# Identifiers

Entities, sources and messages are named by 128-bit identifiers. An identifier is written as
thirty-two lower-case hexadecimal digits in groups of 8, 4, 4, 4 and 12, and read from that form,
from the digits alone, and from that form in braces or after `urn:uuid:`, with letters of either
case. New sources and messages are told apart by being numbered.
-/

namespace Chronicle

/-- A 128-bit identifier. -/
structure Identifier where
  bits : BitVec 128
deriving DecidableEq

namespace Identifier

/-- The identifier all of whose bits are zero. -/
def nil : Identifier := ⟨0⟩

instance : Inhabited Identifier := ⟨nil⟩

/-- Identifiers compare as numbers. -/
instance : Ord Identifier := ⟨fun a b ↦ compare a.bits.toNat b.bits.toNat⟩

/-- The identifier of a number, as far as 128 bits hold it. -/
def ofNat (n : Nat) : Identifier := ⟨BitVec.ofNat 128 n⟩

/-! ### Text -/

/-- The written form of an identifier. -/
def chars (id : Identifier) : List Char :=
  let digits := Hex.write 32 id.bits.toNat
  digits.take 8 ++ '-' :: (digits.drop 8).take 4 ++ '-' :: (digits.drop 12).take 4 ++
    '-' :: (digits.drop 16).take 4 ++ '-' :: digits.drop 20

/-- The written form of an identifier. -/
def text (id : Identifier) : String := String.ofList id.chars

/-- Reads thirty-two digits. -/
def ofDigits? (digits : List Char) : Option Identifier :=
  if digits.length = 32 then (Hex.read? digits).map ofNat else none

/-- Reads digits in their five groups. -/
def ofGroups? (cs : List Char) : Option Identifier :=
  if cs.length = 36 ∧ [8, 13, 18, 23].all (cs[·]? = some '-') then
    ofDigits? (cs.take 8 ++ (cs.drop 9).take 4 ++ (cs.drop 14).take 4 ++ (cs.drop 19).take 4 ++
      cs.drop 24)
  else none

/-- Reads an identifier in any of its forms. -/
def ofChars? (cs : List Char) : Option Identifier :=
  if cs.length = 32 then ofDigits? cs
  else if cs.length = 36 then ofGroups? cs
  else if cs.length = 38 then
    if cs.head? = some '\x7b' ∧ cs.getLast? = some '\x7d' then ofGroups? ((cs.drop 1).take 36)
    else none
  else if (cs.take 9).map Char.toLower = "urn:uuid:".toList then ofGroups? (cs.drop 9)
  else none

/-- Reads an identifier in any of its forms. -/
def parse? (s : String) : Option Identifier := ofChars? s.toList

/-! ### Numbered identifiers -/

/-- The identifier of the `n`-th source that a session offers to its store, counting from one. -/
def ofSource (n : Nat) : Identifier := ofNat (0x50000000_0000_4000_8000_000000000000 + n)

/-- The identifier of the `n`-th message, counting from one. -/
def ofMessage (n : Nat) : Identifier := ofNat (0x60000000_0000_4000_8000_000000000000 + n)

end Identifier

/-- How many sources and messages have been numbered. -/
structure Numbering where
  sources : Nat := 0
  messages : Nat := 0
deriving DecidableEq, Inhabited

namespace Numbering

/-- The identifier of the next source. -/
def nextSource (n : Numbering) : Identifier × Numbering :=
  (.ofSource (n.sources + 1), { n with sources := n.sources + 1 })

/-- The identifier of the next message. -/
def nextMessage (n : Numbering) : Identifier × Numbering :=
  (.ofMessage (n.messages + 1), { n with messages := n.messages + 1 })

end Numbering

end Chronicle
