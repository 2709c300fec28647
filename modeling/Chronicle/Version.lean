/-!
# Versions

Each entity counts its states. Version zero is that of an entity that has only been constructed;
committed states start at one. The successor of the last 64-bit version wraps to zero, which no
commit accepts.
-/

namespace Chronicle

/-- The number of a state of an entity. -/
structure Version where
  value : UInt64
deriving DecidableEq, Inhabited

namespace Version

/-- The version of an entity that has only been constructed. -/
def zero : Version := ⟨0⟩

/-- The last version. -/
def last : Version := ⟨0xffffffffffffffff⟩

/-- Whether the entity has only been constructed. -/
def isZero (v : Version) : Bool := v.value == 0

/-- The next version, which is zero after the last. -/
def next (v : Version) : Version := ⟨v.value + 1⟩

instance : Ord Version := ⟨fun a b ↦ compare a.value.toNat b.value.toNat⟩
instance : LT Version := ⟨fun a b ↦ a.value < b.value⟩
instance : LE Version := ⟨fun a b ↦ a.value ≤ b.value⟩
instance (a b : Version) : Decidable (a < b) := inferInstanceAs (Decidable (a.value < b.value))
instance (a b : Version) : Decidable (a ≤ b) := inferInstanceAs (Decidable (a.value ≤ b.value))

/-- The decimal numeral of a version. -/
def text (v : Version) : String := String.ofList (Nat.toDigits 10 v.value.toNat)

/-- Only version zero is reserved. -/
@[simp] theorem isZero_iff {v : Version} : v.isZero = true ↔ v = zero := by
  cases v
  simp [isZero, zero]

/-- No two versions have the same successor. -/
theorem next_inj {a b : Version} : a.next = b.next ↔ a = b := by
  cases a
  cases b
  simp [next]

end Version

end Chronicle
