import Chronicle.TimeStamp.Basic

/-!
# Time stamps as text

An instant is written with the fewest of 0, 3, 6 or 9 fraction digits that show it exactly, and a
leap second as second 60. Years outside 0 to 9999 have a sign. It is shown with a space and `UTC`,
and stored in the form of RFC 3339.

Reading follows RFC 3339 loosely. Numbers may be shorter than their field and blanks may stand
before them, a year may have a sign and then any number of digits, the letters `T` and `Z` may be
small or be a blank and `UTC`, and hours and minutes of an offset may stand apart.
-/

namespace Chronicle.TimeStamp

/-! ### Writing -/

/-- A number in at least `width` digits. -/
def padded (width n : Nat) : List Char :=
  let digits := Nat.toDigits 10 n
  List.replicate (width - digits.length) '0' ++ digits

/-- A year: four digits, or a sign and at least four. -/
def yearChars (year : Int) : List Char :=
  if 0 ≤ year ∧ year ≤ 9999 then padded 4 year.toNat
  else (if year < 0 then '-' else '+') :: padded 4 year.natAbs

/-- A date, with hyphens between its parts. -/
def dateChars (date : Date) : List Char :=
  yearChars date.year ++ '-' :: padded 2 date.month ++ '-' :: padded 2 date.day

/-- The fraction of a second, with the fewest digits that show it. -/
def fractionChars (nanos : Nat) : List Char :=
  if nanos = 0 then []
  else if nanos % 1000000 = 0 then '.' :: padded 3 (nanos / 1000000)
  else if nanos % 1000 = 0 then '.' :: padded 6 (nanos / 1000)
  else '.' :: padded 9 nanos

/-- The time of day. The nanoseconds of a leap second count in second 60. -/
def timeChars (t : TimeStamp) : List Char :=
  let second := t.secondOfDay
  let leap := t.nanos / 1000000000
  padded 2 (second / 3600) ++ ':' :: padded 2 (second / 60 % 60) ++
    ':' :: padded 2 (second % 60 + leap) ++ fractionChars (t.nanos % 1000000000)

/-- The instant as it is shown. -/
def text (t : TimeStamp) : String :=
  String.ofList (dateChars t.date ++ ' ' :: t.timeChars ++ [' ', 'U', 'T', 'C'])

/-- The instant as it is stored. -/
def stored (t : TimeStamp) : String :=
  String.ofList (dateChars t.date ++ 'T' :: t.timeChars ++ ['Z'])

/-! ### Reading -/

/-- The characters that count as blank. -/
def isBlank (c : Char) : Bool :=
  let n := c.toNat
  (9 ≤ n && n ≤ 13) || n = 0x20 || n = 0x85 || n = 0xa0 || n = 0x1680 ||
    (0x2000 ≤ n && n ≤ 0x200a) || n = 0x2028 || n = 0x2029 || n = 0x202f || n = 0x205f ||
    n = 0x3000

/-- What is left without the blanks in front. -/
def skipBlanks (cs : List Char) : List Char := cs.dropWhile isBlank

/-- Reads between one and `most` digits. -/
def digits? (most : Nat) (cs : List Char) : Option (List Char × List Char) :=
  let digits := (cs.take most).takeWhile Char.isDigit
  if digits.isEmpty then none else some (digits, cs.drop digits.length)

/-- The number that digits show. -/
def digitsValue (digits : List Char) : Nat :=
  digits.foldl (fun n c ↦ n * 10 + (c.toNat - 48)) 0

/-- Reads a number of at most two digits within bounds. -/
def field? (least greatest : Nat) (cs : List Char) : Option (Nat × List Char) := do
  let (digits, rest) ← digits? 2 (skipBlanks cs)
  let n := digitsValue digits
  if least ≤ n ∧ n ≤ greatest then some (n, rest) else none

/-- Reads a year: up to four digits, or a sign and any number of them. -/
def year? (cs : List Char) : Option (Int × List Char) :=
  match skipBlanks cs with
  | '-' :: cs => do
    let (digits, rest) ← digits? cs.length cs
    pure (-(digitsValue digits : Int), rest)
  | '+' :: cs => do
    let (digits, rest) ← digits? cs.length cs
    pure ((digitsValue digits : Int), rest)
  | cs => do
    let (digits, rest) ← digits? 4 cs
    pure ((digitsValue digits : Int), rest)

/-- Reads a mark, with blanks before it. -/
def mark? (mark : Char) (cs : List Char) : Option (List Char) :=
  match skipBlanks cs with
  | c :: rest => if c = mark then some rest else none
  | [] => none

/-- Reads a fraction of a second if there is one; digits past the ninth are dropped. -/
def fraction? (cs : List Char) : Option (Nat × List Char) :=
  match cs with
  | '.' :: cs => do
    let (digits, rest) ← digits? 9 cs
    pure (digitsValue digits * Nat.pow 10 (9 - digits.length), rest.dropWhile Char.isDigit)
  | cs => some (0, cs)

/-- The sign of an offset. The minus sign proper counts as well as the hyphen. -/
def sign? (c : Char) : Option Int :=
  if c = '+' then some 1
  else if c = '-' ∨ c = '\u2212' then some (-1)
  else none

/-- Reads an offset from UTC in seconds: `UTC`, `Z`, or a sign with hours and minutes, between which
colons and blanks may stand. -/
def offset? (cs : List Char) : Option (Int × List Char) :=
  if (cs.take 3).map Char.toLower = ['u', 't', 'c'] then some (0, cs.drop 3)
  else
    match cs with
    | [] => none
    | c :: cs =>
      if c = 'Z' ∨ c = 'z' then some (0, cs)
      else do
        let sign ← sign? c
        let (hours, minutes) ← match cs with
          | a :: b :: rest =>
            if a.isDigit ∧ b.isDigit then
              some (digitsValue [a, b], rest.dropWhile fun c ↦ c = ':' || isBlank c)
            else none
          | _ => none
        match minutes with
        | a :: b :: rest =>
          if a.isDigit ∧ b.isDigit ∧ a < '6' then
            some (sign * (hours * 3600 + digitsValue [a, b] * 60 : Nat), rest)
          else none
        | _ => none

/-- Reads a time stamp. An offset must be less than a day, and the instant must be one that time
stamps may have both by local and by universal time. -/
def ofChars? (cs : List Char) : Option TimeStamp := do
  let (year, cs) ← year? cs
  let cs ← mark? '-' cs
  let (month, cs) ← field? 1 12 cs
  let cs ← mark? '-' cs
  let (day, cs) ← field? 1 31 cs
  let cs ← match cs with
    | c :: cs => if c = 'T' ∨ c = 't' ∨ c = ' ' then some cs else none
    | [] => none
  let (hour, cs) ← field? 0 23 cs
  let cs ← mark? ':' cs
  let (minute, cs) ← field? 0 59 cs
  let cs ← mark? ':' cs
  let (second, cs) ← field? 0 60 cs
  let (nanos, cs) ← fraction? cs
  let (offset, cs) ← offset? (skipBlanks cs)
  let date : Date := ⟨year, month, day⟩
  let leap := second / 60
  let seconds : Int := date.toDays * 86400 + (hour * 3600 + minute * 60 + (second - leap) : Nat)
  let t : TimeStamp := ⟨seconds - offset, nanos + leap * 1000000000⟩
  if (skipBlanks cs).isEmpty ∧ date.isValid ∧ offset.natAbs < 86400 ∧ t.date.isValid then some t
  else none

/-- Reads a time stamp. -/
def parse? (s : String) : Option TimeStamp := ofChars? s.toList

end Chronicle.TimeStamp
