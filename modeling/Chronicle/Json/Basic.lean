import Chronicle.Text.Keyed

/-!
# JSON values

Numbers keep apart the integers that fit a 64-bit word, signed or unsigned, and the doubles. The
members of an object are listed in ascending order of their keys, so that a value has one form;
`Json.ofMembers` puts them in that order.
-/

namespace Chronicle

/-- An integer that fits a signed or an unsigned 64-bit word. -/
structure Whole where
  value : Int
  least : -0x8000000000000000 ≤ value := by omega
  greatest : value < 0x10000000000000000 := by omega
deriving DecidableEq

namespace Whole

/-- The integer, if it fits. -/
def ofInt? (n : Int) : Option Whole :=
  if h : -0x8000000000000000 ≤ n ∧ n < 0x10000000000000000 then some ⟨n, h.1, h.2⟩ else none

/-- An unsigned word. -/
def ofUInt64 (n : UInt64) : Whole :=
  ⟨n.toNat, by omega, by have := n.toNat_lt; omega⟩

/-- A signed word. -/
def ofInt64 (n : Int64) : Whole :=
  ⟨n.toInt, by have := n.le_toInt; omega, by have := n.toInt_lt; omega⟩

/-- The unsigned word of this value. -/
def toUInt64? (n : Whole) : Option UInt64 :=
  if 0 ≤ n.value then some (UInt64.ofNat n.value.toNat) else none

/-- The signed word of this value. -/
def toInt64? (n : Whole) : Option Int64 :=
  if n.value < 0x8000000000000000 then some (Int64.ofInt n.value) else none

@[simp] theorem toUInt64?_ofUInt64 (n : UInt64) : (ofUInt64 n).toUInt64? = some n := by
  simp [ofUInt64, toUInt64?]

@[simp] theorem toInt64?_ofInt64 (n : Int64) : (ofInt64 n).toInt64? = some n := by
  have hlt : n.toInt < 0x8000000000000000 := n.toInt_lt
  simp only [ofInt64, toInt64?, if_pos hlt, Int64.ofInt_toInt]

end Whole

/-- A number of a JSON text. -/
inductive Number where
  | whole (n : Whole)
  | double (x : Float)
deriving DecidableEq

/-- Numbers compare as numbers of their kind, so the two zeros of a double are equal. -/
instance : BEq Number where
  beq
    | .whole a, .whole b => a = b
    | .double a, .double b => a == b
    | _, _ => false

/-- A JSON value. -/
inductive Json where
  | null
  | bool (b : Bool)
  | number (n : Number)
  | string (s : String)
  | array (items : List Json)
  | object (members : List (String × Json))
deriving Inhabited

namespace Json

/-- The object with these members, where a later member replaces an earlier one of the same key. -/
def ofMembers (members : List (String × Json)) : Json := .object (Keyed.ofList members)

/-- An unsigned word as a value. -/
def ofUInt64 (n : UInt64) : Json := .number (.whole (.ofUInt64 n))

/-- A signed word as a value. -/
def ofInt64 (n : Int64) : Json := .number (.whole (.ofInt64 n))

/-- An absent value is `null`. -/
def ofOption {α : Type} (f : α → Json) : Option α → Json
  | none => .null
  | some a => f a

/-- Whether the value is `null`. -/
def isNull : Json → Bool
  | .null => true
  | _ => false

/-- The text that the value is. -/
def string? : Json → Option String
  | .string s => some s
  | _ => none

/-- The items of an array. -/
def array? : Json → Option (List Json)
  | .array items => some items
  | _ => none

/-- The unsigned word that the value is. -/
def uint64? : Json → Option UInt64
  | .number (.whole n) => n.toUInt64?
  | _ => none

/-- The signed word that the value is. -/
def int64? : Json → Option Int64
  | .number (.whole n) => n.toInt64?
  | _ => none

/-- The member of this key, of an object that has one. -/
def member? (key : String) : Json → Option Json
  | .object members => Keyed.lookup key members
  | _ => none

/-! ### Equality -/

mutual

/-- Whether two values have the same shape and the same leaves. -/
def same : Json → Json → Bool
  | .null, .null => true
  | .bool a, .bool b => a == b
  | .number a, .number b => a == b
  | .string a, .string b => a == b
  | .array a, .array b => sameItems a b
  | .object a, .object b => sameMembers a b
  | _, _ => false

/-- Whether two lists of items are the same, item by item. -/
def sameItems : List Json → List Json → Bool
  | [], [] => true
  | a :: as, b :: bs => same a b && sameItems as bs
  | _, _ => false

/-- Whether two lists of members are the same, member by member. -/
def sameMembers : List (String × Json) → List (String × Json) → Bool
  | [], [] => true
  | (k, a) :: as, (l, b) :: bs => k == l && same a b && sameMembers as bs
  | _, _ => false

end

instance : BEq Json := ⟨same⟩

end Json

end Chronicle
