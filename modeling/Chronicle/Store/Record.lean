import Chronicle.Envelope.Basic

/-!
# Records

A store keeps four tables: of sources, of messages, and of the leases and tags that are held.
Every record knows its place in the order of writing and the source that wrote it, and all but
those of sources also know the entity version they were written for. What the last three tables
keep differs only in its data, and so one type of record serves them, indexed by the kind of data.
-/

namespace Chronicle

/-- What a store keeps for entity versions. -/
inductive Kind where
  | message
  | lease
  | tag
deriving DecidableEq

/-- The data of one kind. A delta is kept packed. -/
abbrev Kind.Data : Kind → Type
  | .message => Envelope
  | .lease => Lease
  | .tag => Tag

/-- What a query may be about: sources, or what is kept for entity versions. -/
inductive Facet where
  | source
  | entity (kind : Kind)
deriving DecidableEq

/-- The record of a committed source. -/
structure SourceRecord where
  sequence : Nat
  sourceId : Identifier
  sourceTimeStamp : TimeStamp
  agentSignature : Envelope
  entityPointers : List Pointer

/-- The record of data that one message brought. -/
structure EntityRecord (α : Type) where
  sequence : Nat
  sourceId : Identifier
  sourceTimeStamp : TimeStamp
  messageId : Identifier
  entityId : Identifier
  entityVersion : Version
  data : α

/-- The records of a facet. -/
abbrev Facet.Record : Facet → Type
  | .source => SourceRecord
  | .entity kind => EntityRecord kind.Data

namespace Facet

/-- The place of a record in the order of writing. -/
def sequence : {φ : Facet} → φ.Record → Nat
  | .source, record => record.sequence
  | .entity _, record => record.sequence

/-- The source that wrote a record. -/
def sourceId : {φ : Facet} → φ.Record → Identifier
  | .source, record => record.sourceId
  | .entity _, record => record.sourceId

/-- When the source of a record was written. -/
def sourceTimeStamp : {φ : Facet} → φ.Record → TimeStamp
  | .source, record => record.sourceTimeStamp
  | .entity _, record => record.sourceTimeStamp

/-- The entities of a record: those that a source has messages for, or the one of the record. -/
def entityIds : {φ : Facet} → φ.Record → List Identifier
  | .source, record => record.entityPointers.map (·.id)
  | .entity _, record => [record.entityId]

end Facet

namespace EntityRecord

variable {α β : Type}

/-- The record as a read returns it, with its data read as `data`. -/
def annotate (record : EntityRecord α) (data : β) : AnnotatedMessage β where
  sourceId := record.sourceId
  sourceTimeStamp := record.sourceTimeStamp
  messageId := record.messageId
  entityId := record.entityId
  entityVersion := record.entityVersion
  data := data

end EntityRecord

/-- The record as a read returns it, with its signature read as `data`. -/
def SourceRecord.annotate {β : Type} (record : SourceRecord) (data : β) : AnnotatedSource β where
  sourceId := record.sourceId
  sourceTimeStamp := record.sourceTimeStamp
  entityPointers := record.entityPointers
  data := data

end Chronicle
