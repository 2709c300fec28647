import Chronicle.Store.Read

/-!
# The reads of a store

There are sixteen reads: of the sources and of the entities of the records that a query selects, and
of their data, alone and annotated, for each of the four facets. What is said of all of them is said
once, of a read of a facet (`Read`) and what it answers (`Read.answer`).
-/

namespace Chronicle

/-- What can be read of the records of a facet. Payloads are read as a type of payloads. -/
inductive Read (R : Type) : Facet → Type 1 where
  | sourceIds {φ : Facet} : Read R φ
  | entityIds {φ : Facet} : Read R φ
  | agentSignatures (A : Type) [Payload A] [Resolves R A] : Read R .source
  | annotatedAgentSignatures (A : Type) [Payload A] [Resolves R A] : Read R .source
  | deltas (D : Type) [Payload D] [Resolves R D] : Read R (.entity .message)
  | annotatedDeltas (D : Type) [Payload D] [Resolves R D] : Read R (.entity .message)
  | heldLeases : Read R (.entity .lease)
  | annotatedLeases : Read R (.entity .lease)
  | heldTags : Read R (.entity .tag)
  | annotatedTags : Read R (.entity .tag)

namespace Read

/-- What a read answers with. -/
def Answer {R : Type} : {φ : Facet} → Read R φ → Type
  | _, .sourceIds | _, .entityIds => List Identifier
  | .source, @agentSignatures _ A _ _ => List A
  | .source, @annotatedAgentSignatures _ A _ _ => List (AnnotatedSource A)
  | .entity .message, @deltas _ D _ _ => List D
  | .entity .message, @annotatedDeltas _ D _ _ => List (AnnotatedMessage D)
  | .entity .lease, .heldLeases => List Lease
  | .entity .lease, .annotatedLeases => List (AnnotatedMessage Lease)
  | .entity .tag, .heldTags => List Tag
  | .entity .tag, .annotatedTags => List (AnnotatedMessage Tag)

/-- The answer to a read of what a query selects, with the events reported on the way to it. -/
def answer {R : Type} (t : Tables) (registry : R) :
    {φ : Facet} → (read : Read R φ) → Query R φ → Attempt read.Answer
  | _, .sourceIds, q => pure (t.selectSourceIds registry q)
  | _, .entityIds, q => pure (t.selectEntityIds registry q)
  | .source, @agentSignatures _ A _ _, q => t.agentSignatures A registry q
  | .source, @annotatedAgentSignatures _ A _ _, q => t.annotatedAgentSignatures A registry q
  | .entity .message, @deltas _ D _ _, q => t.deltas D registry q
  | .entity .message, @annotatedDeltas _ D _ _, q => t.annotatedDeltas D registry q
  | .entity .lease, .heldLeases, q => pure (t.heldLeases registry q)
  | .entity .lease, .annotatedLeases, q => pure (t.annotatedLeases registry q)
  | .entity .tag, .heldTags, q => pure (t.heldTags registry q)
  | .entity .tag, .annotatedTags, q => pure (t.annotatedTags registry q)

end Read

end Chronicle
