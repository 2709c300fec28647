import Chronicle.Decimal.Shortest

/-!
# Doubles as decimal numerals

Writing is exact: the shortest decimal, positional from `0.00001` up to sixteen digits before the
point, and with an exponent beyond. Reading trades the last bit for speed: the leading digits that
fit a 64-bit word are scaled by a power of ten in floating point, so a numeral of many digits may
read as a neighbour of the nearest double.
-/

namespace Chronicle.Decimal

/-! ### Writing -/

/-- Whether a leading digit of this exponent is written in positional notation. -/
def isPositional (exponent : Int) : Bool := -5 ≤ exponent && exponent ≤ 15

/-- Writes a positive decimal, always with a point or an exponent. -/
def Digits.numeral (d : Digits) : List Char :=
  if isPositional d.exponent then
    if d.exponent < 0 then
      ['0', '.'] ++ List.replicate (-d.exponent - 1).toNat '0' ++ d.digits
    else
      let whole := d.exponent.toNat + 1
      let padded := d.digits ++ List.replicate (whole - d.digits.length) '0'
      let fraction := padded.drop whole
      padded.take whole ++ ['.'] ++ (if fraction.isEmpty then ['0'] else fraction)
  else
    let mantissa := match d.digits with
      | [] => ['0']
      | [first] => [first]
      | first :: rest => first :: '.' :: rest
    let sign := if d.exponent < 0 then '-' else '+'
    mantissa ++ ['e', sign] ++ Nat.toDigits 10 d.exponent.natAbs

/-- Writes a finite double. A zero keeps its sign. -/
def writeDouble (x : Float) : List Char :=
  let bits := x.toBits
  let magnitude := bits &&& 0x7fffffffffffffff
  let sign := if bits = magnitude then [] else ['-']
  sign ++ (if magnitude = 0 then ['0', '.', '0'] else (shortest magnitude).numeral)

/-! ### Reading -/

/-- The powers of ten that a double holds, up to the largest. -/
def tenTo (exponent : Nat) : Float := Float.ofScientific 1 false exponent

/-- Divides by a power of ten of any size, in steps that a double holds. -/
def divideByTenTo (x : Float) (exponent : Nat) : Float :=
  if h : exponent ≤ 308 then x / tenTo exponent
  else if x == 0 then x
  else divideByTenTo (x / tenTo 308) (exponent - 308)
  termination_by exponent

/-- The double near `significand · 10 ^ exponent`, unless it is too large. -/
def scale? (significand : UInt64) (exponent : Int) : Option Float :=
  let x := significand.toFloat
  if exponent < 0 then some (divideByTenTo x exponent.natAbs)
  else if exponent ≤ 308 then
    let y := x * tenTo exponent.toNat
    if y.isInf then none else some y
  else if x == 0 then some x
  else none

/-- A significand and how many further digits were read before it or dropped behind it. -/
structure Significand where
  value : Nat
  exponent : Int

/-- Takes digits as long as the significand fits a 64-bit word. -/
def takeDigits (value : Nat) : List Char → Nat × List Char
  | [] => (value, [])
  | c :: rest =>
    let next := value * 10 + (c.toNat - 48)
    if next < UInt64.size then takeDigits next rest else (value, c :: rest)

/-- The significand of the digits before and after the point. A digit that no longer fits the word
is dropped with all those behind it on its side of the point, and counts in the exponent if it
stands before the point. -/
def significand (whole fraction : List Char) : Significand :=
  let (value, dropped) := takeDigits 0 whole
  let (value, ignored) := takeDigits value fraction
  { value, exponent := dropped.length - (fraction.length - ignored.length : Nat) }

/-- An exponent as far as a signed 32-bit word holds it. -/
def clampExponent (n : Int) : Int := max (-0x80000000) (min 0x7fffffff n)

/-- The double of a numeral, from its sign, the digits before and after the point, and its exponent.
A numeral too large for a double is refused. -/
def readDouble? (negative : Bool) (whole fraction : List Char) (exponent : Int) : Option Float :=
  let s := significand whole fraction
  let magnitude :=
    if exponent.natAbs < 0x80000000 then
      scale? (UInt64.ofNat s.value) (clampExponent (s.exponent + exponent))
    else if s.value = 0 ∨ exponent < 0 then some 0
    else none
  magnitude.map fun x ↦ if negative then -x else x

end Chronicle.Decimal
