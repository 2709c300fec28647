import Chronicle.TimeStamp.Calendar

/-!
# Time stamps

An instant of UTC to the nanosecond. A second has up to two thousand million nanoseconds: those past
the first thousand million are the leap second that follows it.
-/

namespace Chronicle

/-- An instant: whole seconds from the start of 1970, and nanoseconds within the second. -/
structure TimeStamp where
  seconds : Int
  nanos : Nat
deriving DecidableEq, Inhabited

namespace TimeStamp

/-- The start of 1970. -/
def epoch : TimeStamp := ⟨0, 0⟩

/-- Instants compare by seconds, then by nanoseconds. -/
instance : Ord TimeStamp :=
  ⟨fun a b ↦ (compare a.seconds b.seconds).then (compare a.nanos b.nanos)⟩

/-- Whether one instant is not after another. -/
def le (a b : TimeStamp) : Bool := (compare a b).isLE

/-- The instant that many nanoseconds after the start of 1970. -/
def ofNanoseconds (n : Int) : TimeStamp := ⟨n / 1000000000, (n % 1000000000).toNat⟩

/-- How many nanoseconds after the start of 1970 the instant is. -/
def toNanoseconds (t : TimeStamp) : Int := t.seconds * 1000000000 + t.nanos

/-- The date of an instant. -/
def date (t : TimeStamp) : Date := .ofDays (t.seconds / 86400)

/-- The second of the day of an instant. -/
def secondOfDay (t : TimeStamp) : Nat := (t.seconds % 86400).toNat

/-- The instant of these parts, if there is one: its date must be one that time stamps may have,
and a leap second can only follow the last second of a minute. -/
def ofParts? (seconds : Int) (nanos : Nat) : Option TimeStamp :=
  let t : TimeStamp := ⟨seconds, nanos⟩
  if t.date.isValid ∧ (nanos < 1000000000 ∨ nanos < 2000000000 ∧ seconds % 60 = 59) then some t
  else none

/-- The instant with its fraction of a millisecond cut off. -/
def toMilliseconds (t : TimeStamp) : TimeStamp := ⟨t.seconds, t.nanos - t.nanos % 1000000⟩

end TimeStamp

end Chronicle
