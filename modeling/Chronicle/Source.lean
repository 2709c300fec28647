import Chronicle.Pointer
import Chronicle.TimeStamp.Basic

/-!
# Sources

What is committed: a source is a batch of messages, each of which carries one delta of one entity
along with the leases and tags that the entity gains and loses by it. A lease is held by at most
one entity at any time; a tag may be on any number of them.
-/

namespace Chronicle

/-! ### Leases and tags -/

/-- A triple that at most one entity holds. -/
structure Lease where
  scope : String
  label : String
  value : String
deriving DecidableEq, Inhabited

/-- Leases compare by scope, then by label, then by value. -/
instance : Ord Lease :=
  ⟨fun a b ↦ (compare a.scope b.scope).then
    ((compare a.label b.label).then (compare a.value b.value))⟩

/-- The three parts in parentheses. -/
def Lease.text (l : Lease) : String := "(" ++ l.scope ++ ", " ++ l.label ++ ", " ++ l.value ++ ")"

/-- A pair that entities are found by. -/
structure Tag where
  label : String
  value : String
deriving DecidableEq, Inhabited

/-- Tags compare by label, then by value. -/
instance : Ord Tag := ⟨fun a b ↦ (compare a.label b.label).then (compare a.value b.value)⟩

/-- The two parts in parentheses. -/
def Tag.text (t : Tag) : String := "(" ++ t.label ++ ", " ++ t.value ++ ")"

/-! ### Messages -/

/-- One state transition of one entity, with the leases and tags it brings and takes. Deletions come
before insertions. -/
structure Change (D : Type) where
  entityId : Identifier
  expectedPrevious : Version
  delta : D
  addLeases : List Lease := []
  deleteLeases : List Lease := []
  addTags : List Tag := []
  deleteTags : List Tag := []
deriving DecidableEq

namespace Change

variable {D : Type}

/-- The version that the entity reaches by the change. -/
def entityVersion (c : Change D) : Version := c.expectedPrevious.next

/-- The state that the entity reaches by the change. -/
def entityPointer (c : Change D) : Pointer := ⟨c.entityId, c.entityVersion⟩

/-- Whether the change brings and takes no lease and no tag. -/
def isPlain (c : Change D) : Bool :=
  c.addLeases.isEmpty && c.deleteLeases.isEmpty && c.addTags.isEmpty && c.deleteTags.isEmpty

end Change

/-- A change with the identifier it is committed under. -/
structure Message (D : Type) extends Change D where
  id : Identifier
deriving DecidableEq

/-- Messages that are committed together, signed by an agent. -/
structure Source (D A : Type) where
  id : Identifier
  timeStamp : TimeStamp
  agentSignature : A
  messages : List (Message D)
deriving DecidableEq

/-- The states that the messages of a source lead to, in order. -/
def Source.entityPointers {D A : Type} (s : Source D A) : List Pointer :=
  s.messages.map fun m ↦ m.entityPointer

/-- Who commits a source, and when. -/
structure Agent (A : Type) where
  timeStamp : TimeStamp
  signature : A
deriving DecidableEq

/-! ### What reads return -/

/-- Data of one committed message, with where it comes from. -/
structure AnnotatedMessage (α : Type) where
  sourceId : Identifier
  sourceTimeStamp : TimeStamp
  messageId : Identifier
  entityId : Identifier
  entityVersion : Version
  data : α
deriving DecidableEq

/-- The state that the message led to. -/
def AnnotatedMessage.entityPointer {α : Type} (m : AnnotatedMessage α) : Pointer :=
  ⟨m.entityId, m.entityVersion⟩

/-- Data of one committed source, with where it comes from and the states it led to. -/
structure AnnotatedSource (α : Type) where
  sourceId : Identifier
  sourceTimeStamp : TimeStamp
  entityPointers : List Pointer
  data : α
deriving DecidableEq

end Chronicle
