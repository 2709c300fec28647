import Chronicle.Envelope.Headers
import Chronicle.Source

/-!
# Faults

Why an operation fails. Faults of a commit that a caller has to expect, because another session was
faster or the store would not take the source, are rejections.
-/

namespace Chronicle

/-- Why a source cannot follow what is already committed. -/
inductive Conflict where
  /-- The entity already has the version. -/
  | version (entityId : Identifier) (version : Version)
  /-- Two messages of the source follow the same version. -/
  | duplicateInBatch (entityId : Identifier) (expectedPrevious : Version)
  /-- The lease is held. -/
  | lease (lease : Lease)
  /-- The source is committed. -/
  | source (sourceId : Identifier)
deriving DecidableEq

/-- What a reader is told about a conflict. -/
def Conflict.message : Conflict → String
  | .version id v => "entity " ++ id.text ++ " already has version " ++ v.text
  | .duplicateInBatch id v =>
    "entity " ++ id.text ++ " is appended twice after version " ++ v.text ++ " in the same source"
  | .lease l => "lease " ++ l.text ++ " is already held"
  | .source id => "source " ++ id.text ++ " is already committed"

/-- Why an operation fails. -/
inductive Fault where
  | conflict (c : Conflict)
  | readOnly
  /-- A commit would give the entity version zero. -/
  | reservedVersion (entityId : Identifier)
  | unknownEntity (entityId : Identifier)
  | existingEntity (entityId : Identifier)
  | noPendingMessage (entityId : Identifier)
  | resolutionFailed (headers : Headers)
  | serializationFailed (typeName : String)
  | deserializationFailed (typeName : String)
  | notConstructed (entityId : Identifier)
  | cancelled
  /-- The store itself fails. -/
  | backend (text : String)
deriving DecidableEq

namespace Fault

/-- What a reader is told about a fault. -/
def message : Fault → String
  | .conflict c => "optimistic concurrency conflict: " ++ c.message
  | .readOnly => "write rejected: the session is read-only"
  | .reservedVersion id => "entity " ++ id.text ++ " cannot be committed at the reserved version 0"
  | .unknownEntity id => "entity " ++ id.text ++ " is not known to this transaction"
  | .existingEntity id => "entity " ++ id.text ++ " is already known to this transaction"
  | .noPendingMessage id =>
    "entity " ++ id.text ++ " has no pending message to attach leases or tags to"
  | .resolutionFailed headers => "no type resolver accepted headers " ++ headers.text
  | .serializationFailed name => "failed to serialize payload of type " ++ name
  | .deserializationFailed name => "failed to deserialize payload of type " ++ name
  | .notConstructed id => "entity " ++ id.text ++ " was never constructed"
  | .cancelled => "operation cancelled"
  | .backend text => text

/-- Whether a commit path turns the fault into the answer that nothing was committed. -/
def isRejection : Fault → Bool
  | .conflict _ | .readOnly | .reservedVersion _ | .backend _ => true
  | _ => false

end Fault

end Chronicle
