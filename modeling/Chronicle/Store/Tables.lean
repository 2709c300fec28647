import Chronicle.Store.Record

/-!
# The tables of a store

What a store keeps: the four tables, the number that the next record gets, and two indexes, of the
committed sources and of the committed entity versions. The tables of leases and tags hold what is
held now; those of sources and messages only grow.
-/

namespace Chronicle

/-- What a store keeps. -/
structure Tables where
  nextSequence : Nat := 0
  sources : List SourceRecord := []
  messages : List (EntityRecord Envelope) := []
  leases : List (EntityRecord Lease) := []
  tags : List (EntityRecord Tag) := []
  /-- The committed sources. -/
  sourceIds : List Identifier := []
  /-- The committed versions of each entity. -/
  entityVersions : List (Identifier × Version) := []

namespace Tables

/-- The store before any commit. -/
def empty : Tables := {}

instance : Inhabited Tables := ⟨empty⟩

/-- The table of a facet, in the order of writing. -/
def records (t : Tables) : (φ : Facet) → List φ.Record
  | .source => t.sources
  | .entity .message => t.messages
  | .entity .lease => t.leases
  | .entity .tag => t.tags

end Tables

end Chronicle
