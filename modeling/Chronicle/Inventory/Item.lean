import Chronicle.Entity
import Chronicle.Inventory.Delta

/-!
# Items

An item is counted, may be reserved under a name, and holds leases and tags. Its reservation is a
lease too, so that no two items are reserved under one name.

`Plain` is an entity that is nothing but its version.
-/

namespace Chronicle.Inventory

/-! ### Items -/

/-- The state of an item. -/
structure Item where
  id : Identifier
  version : Version
  count : UInt64
  reservation : Option String
  leases : List Lease
  tags : List Tag
deriving DecidableEq

namespace Item

/-- The item that nothing has happened to. -/
def construct (id : Identifier) : Item := ⟨id, .zero, 0, none, [], []⟩

/-- The item after a delta. The count wraps. -/
def reduce (item : Item) (delta : Delta) : Item :=
  let next := { item with version := item.version.next }
  match delta with
  | .count number => { next with count := item.count + number }
  | .reserve value => { next with reservation := some value }
  | .release => { next with reservation := none }
  | .setLeases leases => { next with leases }
  | .setTags tags => { next with tags }
  | .doNothing | .nothing | .broken _ => next

/-- The leases of an item, that of its reservation first. -/
def heldLeases (item : Item) : List Lease :=
  (item.reservation.map fun name ↦ Lease.mk "test" "reservation" name).toList ++ item.leases

/-- An item as a record. -/
def toJson (item : Item) : Json :=
  .object [
    ("count", .ofUInt64 item.count),
    ("id", .string item.id.text),
    ("leases", .array (item.leases.map .ofLease)),
    ("reservation", .ofOption .string item.reservation),
    ("tags", .array (item.tags.map .ofTag)),
    ("version", .ofUInt64 item.version.value)]

/-- Reads an item from its record. -/
def ofJson? (value : Json) : Option Item := do
  match ← value.fields? ["id", "version", "count", "reservation", "leases", "tags"] with
  | [some id, some version, some count, reservation, some leases, some tags] =>
    pure {
      id := ← id.identifier?
      version := ⟨← version.uint64?⟩
      count := ← count.uint64?
      reservation := ← Json.optional? Json.string? reservation
      leases := ← leases.list? Json.lease?
      tags := ← tags.list? Json.tag? }
  | _ => none

end Item

/-- Items are entities, and are kept as snapshots when their count changes. -/
instance : Snapshot Item Delta where
  construct := Item.construct
  entityId := Item.id
  version := Item.version
  reduce := Item.reduce
  leases := Item.heldLeases
  tags := Item.tags
  typeName _ := "Item"
  encode item := some item.toJson
  declared := Declared.declare {} "Item" Item.ofJson?
  shouldPut previous next :=
    match previous with
    | none => 0 < next.count
    | some previous => previous.count ≠ next.count

instance : LawfulEntity Item where
  entityId_construct _ := rfl
  version_construct _ := rfl
  entityId_reduce _ d := by cases d <;> rfl
  version_reduce _ d := by cases d <;> rfl

/-! ### Plain entities -/

/-- An entity that is nothing but its version. -/
structure Plain where
  id : Identifier
  version : Version
deriving DecidableEq

instance : Entity Plain AltDelta where
  construct id := ⟨id, .zero⟩
  entityId := Plain.id
  version := Plain.version
  reduce plain _ := { plain with version := plain.version.next }

instance : LawfulEntity Plain where
  entityId_construct _ := rfl
  version_construct _ := rfl
  entityId_reduce _ _ := rfl
  version_reduce _ _ := rfl

end Chronicle.Inventory
