import Chronicle.Identifier
import Chronicle.Json.Basic
import Chronicle.Source

/-!
# Members of a record

A record is written as an object of its members. It is read from an object, where members that the
record does not have are passed over, or from an array of exactly its members in order. An optional
member may be missing from an object, or `null`; every other member must be there.
-/

namespace Chronicle.Json

/-- The members of a record by name, from an object or from an array. -/
def fields? (names : List String) : Json → Option (List (Option Json))
  | .object members => some (names.map (Keyed.lookup · members))
  | .array items => if items.length = names.length then some (items.map some) else none
  | _ => none

/-- Reads an optional member. -/
def optional? {α : Type} (read : Json → Option α) : Option Json → Option (Option α)
  | none | some .null => some none
  | some value => (read value).map some

/-- Reads an array, item by item. -/
def list? {α : Type} (read : Json → Option α) (value : Json) : Option (List α) := do
  (← value.array?).mapM read

/-- Reads an identifier, which is a string in any of its forms. -/
def identifier? (value : Json) : Option Identifier := do
  Identifier.parse? (← value.string?)

/-! ### Leases and tags -/

/-- A lease as a record. -/
def ofLease (l : Lease) : Json :=
  .object [("label", .string l.label), ("scope", .string l.scope), ("value", .string l.value)]

/-- Reads a lease from its record. -/
def lease? (value : Json) : Option Lease := do
  match ← value.fields? ["scope", "label", "value"] with
  | [some scope, some label, some value] =>
    pure ⟨← scope.string?, ← label.string?, ← value.string?⟩
  | _ => none

/-- A tag as a record. -/
def ofTag (t : Tag) : Json := .object [("label", .string t.label), ("value", .string t.value)]

/-- Reads a tag from its record. -/
def tag? (value : Json) : Option Tag := do
  match ← value.fields? ["label", "value"] with
  | [some label, some value] => pure ⟨← label.string?, ← value.string?⟩
  | _ => none

end Chronicle.Json
