import Chronicle.Catalog
import Chronicle.Entity
import Chronicle.Fault

/-!
# Transactions

A transaction collects the messages of a source over any number of entities. An entity must be
known before anything is appended to it; every append reduces the state that is known, so that
each message follows the version that the one before it leads to, and records which leases and
tags the state gained and lost by it.

A message gets its identifier when it is appended, and keeps it whatever becomes of it: it is
offered to a store under it, and is pending under it again if the store does not take it. How
identifiers are generated is not for the transaction to decide, and so they are given to it.
-/

namespace Chronicle

/-! ### Differences -/

/-- What a list loses and gains to become another, each in its own order: what of the one is not
kept in the other, and what of the other is not in the one. -/
def difference {α : Type} [DecidableEq α] (before after : List α) : List α × List α :=
  let (kept, added) := after.partition before.contains
  (before.filter fun a ↦ !kept.contains a, added)

/-! ### Transactions -/

/-- The entities that are known, in their latest state, and the messages that are pending, in
order. -/
structure Transaction (E D : Type) where
  known : Catalog E := {}
  pending : List (Message D) := []

namespace Transaction

variable {E D : Type}

instance : Inhabited (Transaction E D) := ⟨{}⟩

/-- The state of an entity with every pending message. -/
def get? (t : Transaction E D) (entityId : Identifier) : Option E := t.known.get? entityId

/-- Whether an entity is known. -/
def isKnown (t : Transaction E D) (entityId : Identifier) : Bool := t.known.contains entityId

/-- Whether any message is pending. -/
def hasPending (t : Transaction E D) : Bool := !t.pending.isEmpty

/-- The state of an entity that is known. -/
def get (t : Transaction E D) (entityId : Identifier) : Except Fault E :=
  match t.get? entityId with
  | some e => .ok e
  | none => .error (.unknownEntity entityId)

/-- Makes an entity known that was not. -/
def load (t : Transaction E D) (entityId : Identifier) (e : E) :
    Except Fault (Transaction E D) :=
  if t.isKnown entityId then .error (.existingEntity entityId)
  else .ok { t with known := t.known.put entityId e }

/-- The change that is recorded of a delta which leads from one state to another. -/
def draft [Entity E D] (entityId : Identifier) (before after : E) (delta : D) : Change D :=
  let leases := difference (Entity.leases before) (Entity.leases after)
  let tags := difference (Entity.tags before) (Entity.tags after)
  { entityId, delta
    expectedPrevious := Entity.version before
    deleteLeases := leases.1
    addLeases := leases.2
    deleteTags := tags.1
    addTags := tags.2 }

/-- Reduces a known entity by a delta and records the message, which has an identifier from then
on. -/
def append [Entity E D] (t : Transaction E D) (entityId : Identifier) (delta : D)
    (messageId : Identifier) : Except Fault (Transaction E D) :=
  match t.get? entityId with
  | none => .error (.unknownEntity entityId)
  | some before =>
    let after := Entity.reduce before delta
    .ok { known := t.known.put entityId after
          pending := t.pending ++ [{ draft entityId before after delta with id := messageId }] }

/-- Constructs an entity that is not known and records its first delta. -/
def create [Entity E D] (t : Transaction E D) (entityId : Identifier) (delta : D)
    (messageId : Identifier) : Except Fault (Transaction E D) := do
  (← t.load entityId (Entity.construct entityId)).append entityId delta messageId

/-- Appends to an entity, which is constructed first if it is not known. -/
def appendOrCreate [Entity E D] (t : Transaction E D) (entityId : Identifier) (delta : D)
    (messageId : Identifier) : Except Fault (Transaction E D) :=
  if t.isKnown entityId then t.append entityId delta messageId
  else t.create entityId delta messageId

/-! ### Leases and tags of pending messages -/

/-- Changes the last message of an entity, if it has one. -/
def changeLast (entityId : Identifier) (change : Message D → Message D) :
    List (Message D) → Option (List (Message D))
  | [] => none
  | m :: rest =>
    match changeLast entityId change rest with
    | some rest => some (m :: rest)
    | none => if m.entityId = entityId then some (change m :: rest) else none

/-- Changes the last pending message of an entity. -/
def attach (t : Transaction E D) (entityId : Identifier) (change : Message D → Message D) :
    Except Fault (Transaction E D) :=
  match changeLast entityId change t.pending with
  | some pending => .ok { t with pending }
  | none => .error (.noPendingMessage entityId)

/-- What can be attached to a pending message. -/
inductive Attachment where
  | addLease (lease : Lease)
  | deleteLease (lease : Lease)
  | addTag (tag : Tag)
  | deleteTag (tag : Tag)
deriving DecidableEq

/-- A message with something attached, after what it already has. -/
def Attachment.apply (a : Attachment) (m : Message D) : Message D :=
  match a with
  | .addLease lease => { m with addLeases := m.addLeases ++ [lease] }
  | .deleteLease lease => { m with deleteLeases := m.deleteLeases ++ [lease] }
  | .addTag tag => { m with addTags := m.addTags ++ [tag] }
  | .deleteTag tag => { m with deleteTags := m.deleteTags ++ [tag] }

/-! ### Building a source -/

/-- The transaction without its pending messages. -/
def clear (t : Transaction E D) : Transaction E D := { t with pending := [] }

/-- Puts messages that were not committed back, ahead of those that were appended since. -/
def restore (t : Transaction E D) (messages : List (Message D)) : Transaction E D :=
  { t with pending := messages ++ t.pending }

/-- Replaces the known state of an entity. -/
def putKnown [Entity E D] (t : Transaction E D) (e : E) : Transaction E D :=
  { t with known := t.known.put (Entity.entityId e) e }

/-- Hands the pending messages out as a source. The entities stay known. -/
def build {A : Type} (t : Transaction E D) (agent : Agent A) (sourceId : Identifier) :
    Source D A × Transaction E D :=
  ({ id := sourceId
     timeStamp := agent.timeStamp
     agentSignature := agent.signature
     messages := t.pending }, t.clear)

/-- The transaction as it is shown: how much it knows and how much is pending. -/
def text (t : Transaction E D) : String :=
  "TransactionBuilder \x7b known_entities: " ++ toString t.known.size ++
    ", messages: " ++ toString t.pending.length ++ " \x7d"

end Transaction

end Chronicle
