import Chronicle.Session
import Chronicle.Store.Tables

/-!
# Commits

A source is committed as a whole or not at all. Its payloads are packed first; then every message
is checked against the tables as they are before the commit and against the messages ahead of it
in the source; only then is anything written.

A message is accepted if the version it leads to is not the reserved one, no other message of the
source follows the same version, and the entity does not have the version yet; and if each lease
it adds is held by no one once the deletions of the messages so far are done. Only leases and tags
of the entity itself can be deleted.
-/

namespace Chronicle

/-- A message with its delta packed. -/
abbrev PackedMessage := Message Envelope

/-- A source with its payloads packed. -/
abbrev PackedSource := Source Envelope Envelope

/-- A message with its delta replaced. -/
def Message.withDelta {D E : Type} (m : Message D) (delta : E) : Message E :=
  { m with delta }

/-- Packs the payloads of a source, the signature first. -/
def Source.pack {D A : Type} [Packable D] [Packable A] (s : Source D A) : Attempt PackedSource := do
  let agentSignature ← Envelope.pack s.agentSignature
  let messages ← s.messages.mapM fun m ↦ do
    pure (m.withDelta (← Envelope.pack m.delta))
  pure { id := s.id, timeStamp := s.timeStamp, agentSignature, messages }

/-! ### Checking -/

/-- Who holds which lease. -/
abbrev Holders := List (Lease × Identifier)

namespace Holders

/-- Who holds a lease. -/
def holder? (holders : Holders) (lease : Lease) : Option Identifier := holders.lookup lease

/-- Takes a lease from an entity, if the entity holds it. -/
def release (entityId : Identifier) (holders : Holders) (lease : Lease) : Holders :=
  if holders.holder? lease = some entityId then holders.filter (·.1 ≠ lease) else holders

/-- Gives a lease to an entity, if no one holds it. -/
def grant (entityId : Identifier) (holders : Holders) (lease : Lease) : Except Fault Holders :=
  if (holders.holder? lease).isSome then .error (.conflict (.lease lease))
  else .ok ((lease, entityId) :: holders)

/-- The holders by the table of leases. -/
def ofRecords (leases : List (EntityRecord Lease)) : Holders :=
  (leases.map fun record ↦ (record.data, record.entityId)).reverse

end Holders

/-- What the messages checked so far would do: the versions they follow, and who would hold the
leases. -/
structure Check where
  followed : List (Identifier × Version)
  holders : Holders

namespace Check

/-- The check before the first message. -/
def start (t : Tables) : Check := ⟨[], Holders.ofRecords t.leases⟩

/-- Checks one message. -/
def message (t : Tables) (c : Check) (m : PackedMessage) : Except Fault Check := do
  if m.entityVersion.isZero then
    throw (.reservedVersion m.entityId)
  if c.followed.contains (m.entityId, m.expectedPrevious) then
    throw (.conflict (.duplicateInBatch m.entityId m.expectedPrevious))
  if t.entityVersions.contains (m.entityId, m.entityVersion) then
    throw (.conflict (.version m.entityId m.entityVersion))
  let released := m.deleteLeases.foldl (Holders.release m.entityId) c.holders
  let holders ← m.addLeases.foldlM (Holders.grant m.entityId) released
  pure ⟨(m.entityId, m.expectedPrevious) :: c.followed, holders⟩

end Check

/-- Checks a source against the tables, without touching them. -/
def Tables.check (t : Tables) (s : PackedSource) : Except Fault Unit := do
  if t.sourceIds.contains s.id then
    throw (.conflict (.source s.id))
  let _ ← s.messages.foldlM (Check.message t) (Check.start t)

/-! ### Writing -/

namespace Tables

/-- Writes the record of a source. -/
def writeSource (t : Tables) (s : PackedSource) : Tables :=
  { t with
    nextSequence := t.nextSequence + 1
    sources := t.sources ++ [{
      sequence := t.nextSequence
      sourceId := s.id
      sourceTimeStamp := s.timeStamp
      agentSignature := s.agentSignature
      entityPointers := s.entityPointers }]
    sourceIds := s.id :: t.sourceIds }

/-- The records of data that a message brings, numbered from `sequence`. -/
def recordsOf {α : Type} (s : PackedSource) (m : PackedMessage) (sequence : Nat) (data : List α) :
    List (EntityRecord α) :=
  data.zipIdx.map fun (datum, i) ↦ {
    sequence := sequence + i
    sourceId := s.id
    sourceTimeStamp := s.timeStamp
    messageId := m.id
    entityId := m.entityId
    entityVersion := m.entityVersion
    data := datum }

/-- The records that stay when an entity loses some data. -/
def withoutData {α : Type} [DecidableEq α] (entityId : Identifier) (data : List α)
    (records : List (EntityRecord α)) : List (EntityRecord α) :=
  records.filter fun record ↦ record.entityId ≠ entityId || !data.contains record.data

/-- Writes what a message brings: its leases and tags, after the deletions of each, and its delta.
-/
def writeMessage (s : PackedSource) (t : Tables) (m : PackedMessage) : Tables :=
  let leaseStart := t.nextSequence
  let tagStart := leaseStart + m.addLeases.length
  let messageStart := tagStart + m.addTags.length
  { t with
    nextSequence := messageStart + 1
    leases := withoutData m.entityId m.deleteLeases t.leases ++ recordsOf s m leaseStart m.addLeases
    tags := withoutData m.entityId m.deleteTags t.tags ++ recordsOf s m tagStart m.addTags
    messages := t.messages ++ recordsOf s m messageStart [m.delta]
    entityVersions := (m.entityId, m.entityVersion) :: t.entityVersions }

/-- Writes a source. -/
def write (t : Tables) (s : PackedSource) : Tables :=
  s.messages.foldl (writeMessage s) (t.writeSource s)

/-- Commits a source in a session, and gives the tables after it. -/
def commit {D A : Type} [Packable D] [Packable A] (t : Tables) (options : SessionOptions)
    (s : Source D A) : Attempt Tables :=
  Attempt.inSession options.logLabel do
    if options.readOnly then
      throw .readOnly
    let packed ← s.pack
    Attempt.ofExcept (t.check packed)
    Attempt.report (.sourceCommitted s.messages.length)
    pure (t.write packed)

end Tables

end Chronicle
