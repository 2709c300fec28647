/-!
# Bytes as characters

A wire form is read as a list of characters in which `none` stands for a byte that belongs to no
well-formed UTF-8 sequence. Reading never swallows an ASCII byte, so the structure of a text is seen
even around malformed bytes, and whether a malformed byte matters is left to the reader.
-/

namespace Chronicle

/-- The characters of a wire form, `none` for a byte outside any UTF-8 sequence. -/
abbrev Wire := List (Option Char)

namespace Wire

/-- The wire form of a text. -/
def ofString (s : String) : Wire := s.toList.map some

/-- The six payload bits of a continuation byte. -/
def continuation? (b : UInt8) : Option Nat :=
  if 0x80 ≤ b ∧ b ≤ 0xBF then some (b.toNat - 0x80) else none

/-- The character of a code point, if it is a scalar value of at least `least`. -/
def scalar? (least n : Nat) : Option Char :=
  if h : n.isValidChar then
    if least ≤ n then some (Char.ofNatAux n h) else none
  else none

/-- The UTF-8 sequence that the bytes start with: its character, and how many bytes follow the
first. Overlong sequences, surrogates and code points past the last one are refused. -/
def firstChar? : List UInt8 → Option (Char × Nat)
  | [] => none
  | a :: rest =>
    if a < 0x80 then (scalar? 0 a.toNat).map (·, 0)
    else if 0xC0 ≤ a ∧ a < 0xE0 then
      match rest with
      | b :: _ => do
        let b ← continuation? b
        (scalar? 0x80 ((a.toNat - 0xC0) * 64 + b)).map (·, 1)
      | _ => none
    else if 0xE0 ≤ a ∧ a < 0xF0 then
      match rest with
      | b :: c :: _ => do
        let b ← continuation? b
        let c ← continuation? c
        (scalar? 0x800 ((a.toNat - 0xE0) * 4096 + b * 64 + c)).map (·, 2)
      | _ => none
    else if 0xF0 ≤ a ∧ a < 0xF8 then
      match rest with
      | b :: c :: d :: _ => do
        let b ← continuation? b
        let c ← continuation? c
        let d ← continuation? d
        (scalar? 0x10000 ((a.toNat - 0xF0) * 262144 + b * 4096 + c * 64 + d)).map (·, 3)
      | _ => none
    else none

/-- Reads bytes. A byte that starts no sequence is skipped alone. -/
def ofBytes : List UInt8 → Wire
  | [] => []
  | a :: rest =>
    match firstChar? (a :: rest) with
    | some (c, following) => some c :: ofBytes (rest.drop following)
    | none => none :: ofBytes rest
  termination_by bytes => bytes.length
  decreasing_by all_goals grind

end Wire

end Chronicle
