/-!
# Hexadecimal digits

Numbers as hexadecimal digits, lower case when written and of either case when read. The main
statement is `read?_write`: a number written with enough digits reads back.
-/

namespace Chronicle.Hex

/-- The lower-case digit of a number below sixteen. -/
def digit (n : Nat) : Char :=
  if n < 10 then Char.ofNat (48 + n) else Char.ofNat (87 + n)

/-- The value of one digit, of either case. -/
def value? (c : Char) : Option Nat :=
  if '0' ≤ c ∧ c ≤ '9' then some (c.toNat - 48)
  else if 'a' ≤ c ∧ c ≤ 'f' then some (c.toNat - 87)
  else if 'A' ≤ c ∧ c ≤ 'F' then some (c.toNat - 55)
  else none

/-- The number that `width` digits, most significant first, show of `n`. -/
def write : (width n : Nat) → List Char
  | 0, _ => []
  | width + 1, n => write width (n / 16) ++ [digit (n % 16)]

/-- Reads digits, most significant first. -/
def read? (cs : List Char) : Option Nat :=
  cs.foldlM (fun n c ↦ (value? c).map (16 * n + ·)) 0

theorem value?_digit {n : Nat} (h : n < 16) : value? (digit n) = some n := by
  have : ∀ m : Fin 16, value? (digit m) = some m.val := by decide
  exact this ⟨n, h⟩

@[simp] theorem length_write (width n : Nat) : (write width n).length = width := by
  induction width generalizing n with
  | zero => rfl
  | succ width ih => simp [write, ih]

/-- A number below `16 ^ width` reads back from its `width` digits. -/
theorem read?_write {width n : Nat} (h : n < Nat.pow 16 width) :
    read? (write width n) = some n := by
  induction width generalizing n with
  | zero => simp_all [write, read?]
  | succ width ih =>
    have hq : n / 16 < Nat.pow 16 width := by
      have hpow : Nat.pow 16 (width + 1) = Nat.pow 16 width * 16 := rfl
      omega
    have := ih hq
    unfold read? at this
    unfold read? write
    rw [List.foldlM_append, this]
    simp [value?_digit (Nat.mod_lt n (by omega : 0 < 16)), Nat.div_add_mod]

end Chronicle.Hex
