import Chronicle.Identifier

/-!
# Catalogues

Finite maps from identifiers. What is put under an identifier takes the place of what was there; a
new identifier goes to the end. The main statements are `get?_put` and `get?_erase`.
-/

namespace Chronicle

/-- A finite map from identifiers. -/
structure Catalog (α : Type) where
  entries : List (Identifier × α) := []

namespace Catalog

variable {α : Type}

/-- The map with nothing in it. -/
def empty : Catalog α := {}

instance : Inhabited (Catalog α) := ⟨empty⟩

/-- What is under an identifier. -/
def get? (c : Catalog α) (id : Identifier) : Option α := c.entries.lookup id

/-- Whether there is anything under an identifier. -/
def contains (c : Catalog α) (id : Identifier) : Bool := (c.get? id).isSome

/-- How many identifiers there is something under. -/
def size (c : Catalog α) : Nat := c.entries.length

/-- The entries with a value under an identifier. -/
def putEntry (id : Identifier) (a : α) : List (Identifier × α) → List (Identifier × α)
  | [] => [(id, a)]
  | entry :: rest => if entry.1 = id then (id, a) :: rest else entry :: putEntry id a rest

/-- Puts a value under an identifier. -/
def put (c : Catalog α) (id : Identifier) (a : α) : Catalog α := ⟨putEntry id a c.entries⟩

/-- Removes what is under an identifier. -/
def erase (c : Catalog α) (id : Identifier) : Catalog α := ⟨c.entries.filter (·.1 ≠ id)⟩

theorem lookup_putEntry (id k : Identifier) (a : α) (entries : List (Identifier × α)) :
    (putEntry id a entries).lookup k = if k = id then some a else entries.lookup k := by
  induction entries with
  | nil => grind [putEntry]
  | cons e rest ih => grind [putEntry]

/-- Putting a value changes what is under its identifier and nothing else. -/
@[simp] theorem get?_put (c : Catalog α) (id k : Identifier) (a : α) :
    (c.put id a).get? k = if k = id then some a else c.get? k :=
  lookup_putEntry id k a c.entries

@[simp] theorem get?_empty (k : Identifier) : (empty : Catalog α).get? k = none := rfl

/-- Removing an identifier leaves all others. -/
@[simp] theorem get?_erase (c : Catalog α) (id k : Identifier) :
    (c.erase id).get? k = if k = id then none else c.get? k := by
  obtain ⟨entries⟩ := c
  simp only [get?, erase]
  induction entries with
  | nil => simp
  | cons e rest ih => grind

end Catalog

end Chronicle
