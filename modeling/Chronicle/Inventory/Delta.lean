import Chronicle.Envelope.Payload
import Chronicle.Json.Fields

/-!
# Payloads of the inventory

Four payload types: the deltas of an item, the deltas of other things that share a store with items,
and the signatures of agents. (The fourth, snapshots of items, is `Item` itself.) Each variant is
written without its name, so that two types may well have variants that look alike.
-/

namespace Chronicle.Inventory

/-! ### Deltas of items -/

/-- What can happen to an item. -/
inductive Delta where
  /-- Adds to the count. -/
  | count (number : UInt64)
  | doNothing
  /-- Reserves the item under a name. -/
  | reserve (value : String)
  | release
  | setLeases (leases : List Lease)
  | setTags (tags : List Tag)
  /-- Has no value, and so cannot be stored. -/
  | nothing
  /-- Cannot be encoded, and so cannot be stored. -/
  | broken (reason : String)
deriving DecidableEq

/-- Reads the only member of a record. -/
def single? {α : Type} (name : String) (read : Json → Option α) (value : Json) : Option α := do
  match ← value.fields? [name] with
  | [some member] => read member
  | _ => none

/-- Reads a record without members. -/
def blank? (value : Json) : Option Unit := (value.fields? []).map fun _ ↦ ()

/-- Reads `null`. -/
def null? (value : Json) : Option Unit := if value.isNull then some () else none

namespace Delta

/-- The name that a delta is stored under. -/
def name : Delta → String
  | .count _ => "Count"
  | .doNothing => "DoNothing"
  | .reserve _ => "Reserve"
  | .release => "Release"
  | .setLeases _ => "SetLeases"
  | .setTags _ => "SetTags"
  | .nothing => "Nothing"
  | .broken _ => "Broken"

/-- The value of a delta, if it can be encoded. -/
def toJson? : Delta → Option Json
  | .count number => some (.object [("number", .ofUInt64 number)])
  | .doNothing | .release => some (.object [])
  | .reserve value => some (.object [("value", .string value)])
  | .setLeases leases => some (.object [("leases", .array (leases.map .ofLease))])
  | .setTags tags => some (.object [("tags", .array (tags.map .ofTag))])
  | .nothing => some .null
  | .broken _ => none

/-- How each delta is read. -/
def declared : Declared Delta :=
  Declared.declare {} "Count" (fun v ↦ (single? "number" Json.uint64? v).map .count)
    |>.declare "DoNothing" (fun v ↦ (blank? v).map fun _ ↦ .doNothing)
    |>.declare "Reserve" (fun v ↦ (single? "value" Json.string? v).map .reserve)
    |>.declare "Release" (fun v ↦ (blank? v).map fun _ ↦ .release)
    |>.declare "SetLeases" (fun v ↦ (single? "leases" (Json.list? Json.lease?) v).map .setLeases)
    |>.declare "SetTags" (fun v ↦ (single? "tags" (Json.list? Json.tag?) v).map .setTags)
    |>.declare "Nothing" (fun v ↦ (null? v).map fun _ ↦ .nothing)
    |>.declare "Broken" (fun v ↦ (single? "reason" Json.string? v).map .broken)

instance : Payload Delta where
  typeName := name
  encode := toJson?
  declared := declared

end Delta

/-! ### Other deltas -/

/-- What can happen to other things. -/
inductive AltDelta where
  | count (number : Int64) (unit : Option String)
  | renamed (value : String)
  /-- Any value, as it is. -/
  | blob (value : Json)

namespace AltDelta

/-- The name that a delta is stored under. -/
def name : AltDelta → String
  | .count _ _ => "Count"
  | .renamed _ => "Renamed"
  | .blob _ => "Blob"

/-- The value of a delta. -/
def toJson? : AltDelta → Option Json
  | .count number unit =>
    some (.object [("number", .ofInt64 number), ("unit", .ofOption .string unit)])
  | .renamed value => some (.object [("value", .string value)])
  | .blob value => some value

/-- Reads a count with its unit. -/
def count? (value : Json) : Option AltDelta := do
  match ← value.fields? ["number", "unit"] with
  | [some number, unit] => pure (.count (← number.int64?) (← Json.optional? Json.string? unit))
  | _ => none

/-- How each delta is read. -/
def declared : Declared AltDelta :=
  Declared.declare {} "Count" count?
    |>.declare "Renamed" (fun v ↦ (single? "value" Json.string? v).map .renamed)
    |>.declare "Blob" (fun v ↦ some (.blob v))

instance : Payload AltDelta where
  typeName := name
  encode := toJson?
  declared := declared

end AltDelta

/-! ### Signatures -/

/-- Who commits a source. -/
inductive Signature where
  | user (name : String)
  | system
  /-- Has no value, and so cannot be stored. -/
  | anonymous
deriving DecidableEq

namespace Signature

/-- The name that a signature is stored under. -/
def variant : Signature → String
  | .user _ => "User"
  | .system => "System"
  | .anonymous => "Anonymous"

/-- The value of a signature. -/
def toJson? : Signature → Option Json
  | .user name => some (.object [("name", .string name)])
  | .system => some (.object [])
  | .anonymous => some .null

/-- How each signature is read. -/
def declared : Declared Signature :=
  Declared.declare {} "User" (fun v ↦ (single? "name" Json.string? v).map .user)
    |>.declare "System" (fun v ↦ (blank? v).map fun _ ↦ .system)
    |>.declare "Anonymous" (fun v ↦ (null? v).map fun _ ↦ .anonymous)

instance : Payload Signature where
  typeName := variant
  encode := toJson?
  declared := declared

end Signature

end Chronicle.Inventory
