import Chronicle.Query.Basic
import Chronicle.Store.Tables

/-!
# Reads

Every read selects the records of one facet by a query. Some return identifiers, each once, and
page over the distinct ones; the others page over the records and return their data, alone or
annotated with where it comes from. Payloads are unpacked one record after the other, up to the
first that fails.
-/

namespace Chronicle.Tables

variable {R : Type} {φ : Facet}

/-- The page of records that a query selects. -/
def select (t : Tables) (registry : R) (q : Query R φ) : List φ.Record :=
  q.page (q.selectAll registry (t.records φ))

/-! ### Identifiers -/

/-- The sources of the records that a query selects. -/
def selectSourceIds (t : Tables) (registry : R) (q : Query R φ) : List Identifier :=
  q.page (distinct ((q.selectAll registry (t.records φ)).map Facet.sourceId))

/-- The entities of the records that a query selects. -/
def selectEntityIds (t : Tables) (registry : R) (q : Query R φ) : List Identifier :=
  q.page (distinct ((q.selectAll registry (t.records φ)).flatMap Facet.entityIds))

/-! ### Data -/

/-- The agent signatures of the selected sources. -/
def agentSignatures (A : Type) [Payload A] [Resolves R A] (t : Tables) (registry : R)
    (q : Query R .source) : Attempt (List A) :=
  (t.select registry q).mapM fun record ↦ record.agentSignature.unpack A registry

/-- The agent signatures of the selected sources, annotated. -/
def annotatedAgentSignatures (A : Type) [Payload A] [Resolves R A] (t : Tables) (registry : R)
    (q : Query R .source) : Attempt (List (AnnotatedSource A)) :=
  (t.select registry q).mapM fun record ↦ do
    pure (record.annotate (← record.agentSignature.unpack A registry))

/-- The deltas of the selected messages. -/
def deltas (D : Type) [Payload D] [Resolves R D] (t : Tables) (registry : R)
    (q : Query R (.entity .message)) : Attempt (List D) :=
  (t.select registry q).mapM fun record ↦ record.data.unpack D registry

/-- The deltas of the selected messages, annotated. -/
def annotatedDeltas (D : Type) [Payload D] [Resolves R D] (t : Tables) (registry : R)
    (q : Query R (.entity .message)) : Attempt (List (AnnotatedMessage D)) :=
  (t.select registry q).mapM fun record ↦ do
    pure (record.annotate (← record.data.unpack D registry))

/-- The selected leases. -/
def heldLeases (t : Tables) (registry : R) (q : Query R (.entity .lease)) : List Lease :=
  (t.select registry q).map (·.data)

/-- The selected leases, annotated. -/
def annotatedLeases (t : Tables) (registry : R) (q : Query R (.entity .lease)) :
    List (AnnotatedMessage Lease) :=
  (t.select registry q).map fun record ↦ record.annotate record.data

/-- The selected tags. -/
def heldTags (t : Tables) (registry : R) (q : Query R (.entity .tag)) : List Tag :=
  (t.select registry q).map (·.data)

/-- The selected tags, annotated. -/
def annotatedTags (t : Tables) (registry : R) (q : Query R (.entity .tag)) :
    List (AnnotatedMessage Tag) :=
  (t.select registry q).map fun record ↦ record.annotate record.data

end Chronicle.Tables
