/-!
# The shortest decimal of a double

A positive double is the only double in an interval of reals: those that round to it. Among the
decimals of that interval the shortest is chosen, and among those of one length the nearest to the
double. Everything is exact: the interval is kept as three numerators over one denominator.
-/

namespace Chronicle.Decimal

/-- A double between the two reals halfway to its neighbours, as fractions over one denominator. The
two ends round to the double, and so belong to the interval, when its mantissa is even. -/
structure Interval where
  low : Nat
  middle : Nat
  high : Nat
  denominator : Nat
  closed : Bool
deriving DecidableEq

namespace Interval

/-- The interval of the positive finite double with these bits. The neighbour below is only half as
far when the mantissa is the least of its exponent. -/
def ofBits (bits : UInt64) : Interval :=
  let field := (bits >>> 52).toNat % 2048
  let fraction := bits.toNat % (1 <<< 52)
  let mantissa := if field = 0 then fraction else (1 <<< 52) + fraction
  let below := if fraction = 0 ∧ 1 < field then 1 else 2
  let up : Nat := 1 <<< (max field 1 - 1075)
  let down : Nat := 1 <<< (1075 - max field 1)
  { low := (4 * mantissa - below) * up
    middle := 4 * mantissa * up
    high := (4 * mantissa + 2) * up
    denominator := 4 * down
    closed := mantissa % 2 = 0 }

/-- The interval divided by a power of ten. -/
def shift (i : Interval) (exponent : Int) : Interval :=
  let up := Nat.pow 10 (-exponent).toNat
  { i with
    low := i.low * up
    middle := i.middle * up
    high := i.high * up
    denominator := i.denominator * Nat.pow 10 exponent.toNat }

/-- Whether a whole number lies in the interval. -/
def contains (i : Interval) (n : Nat) : Bool :=
  if i.closed then i.low ≤ n * i.denominator && n * i.denominator ≤ i.high
  else i.low < n * i.denominator && n * i.denominator < i.high

/-- The nearest whole number of the interval, if it has one: only the two around the double can be
nearest, and of two equally near the even one is taken. -/
def nearest? (i : Interval) : Option Nat :=
  let n := i.middle / i.denominator
  let rest := i.middle % i.denominator
  match i.contains n, i.contains (n + 1) with
  | true, true =>
    if 2 * rest < i.denominator then some n
    else if i.denominator < 2 * rest then some (n + 1)
    else some (if n % 2 = 0 then n else n + 1)
  | true, false => some n
  | false, true => some (n + 1)
  | false, false => none

/-- The exponent of the leading digit of the double. -/
def leading (i : Interval) : Int :=
  let length := fun n ↦ (Nat.toDigits 10 n).length
  let guess : Int := length i.middle - length i.denominator
  let scaled := i.shift guess
  if scaled.denominator ≤ scaled.middle then guess else guess - 1

end Interval

/-- A positive decimal: its digits, of which neither the first nor the last is zero, and the
exponent of the first one. -/
structure Digits where
  digits : List Char
  exponent : Int
deriving DecidableEq

/-- The decimal `n · 10 ^ exponent`, without trailing zeros. -/
def Digits.ofNat (n : Nat) (exponent : Int) : Digits :=
  let all := Nat.toDigits 10 n
  { digits := (all.reverse.dropWhile (· = '0')).reverse
    exponent := exponent + (all.length - 1 : Nat) }

/-- The shortest decimal that rounds to the positive finite double with these bits: seventeen digits
always suffice. -/
def shortest (bits : UInt64) : Digits :=
  let interval := Interval.ofBits bits
  let leading := interval.leading
  let attempt := fun count : Nat ↦
    let exponent := leading - count
    (interval.shift exponent).nearest?.map (Digits.ofNat · exponent)
  ((List.range 17).findSome? attempt).getD ⟨['0'], 0⟩

end Chronicle.Decimal
