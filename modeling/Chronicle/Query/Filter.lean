import Chronicle.Store.Record

/-!
# Filters

A filter combines tests of a record by *all*, *any* and *not*. Which tests there are depends on
the facet: the type of tests is indexed by it, so a filter can only ask a record what the record
knows.

A test of a payload asks what a registry reads out of an envelope, and never reports anything,
because the envelopes of a table may well belong to other payload types.
-/

namespace Chronicle

/-- A test of a payload: what a registry and an envelope decide. -/
abbrev PayloadTest (R : Type) := R → Envelope → Bool

/-- Whether the envelope belongs to the payload type and its payload satisfies the predicate. -/
def PayloadTest.matches {R : Type} (T : Type) [Payload T] [Resolves R T] (predicate : T → Bool) :
    PayloadTest R := fun registry e ↦
  match e.unpack? T registry with
  | some payload => predicate payload
  | none => false

/-- The tests of the records of a facet. -/
inductive Test (R : Type) : Facet → Type where
  | sourceIdIn {φ : Facet} (ids : List Identifier) : Test R φ
  | sourceTimeStampGte {φ : Facet} (least : TimeStamp) : Test R φ
  | sourceTimeStampLte {φ : Facet} (greatest : TimeStamp) : Test R φ
  | entityIdIn {kind : Kind} (ids : List Identifier) : Test R (.entity kind)
  | entityVersionGte {kind : Kind} (least : Version) : Test R (.entity kind)
  | entityVersionLte {kind : Kind} (greatest : Version) : Test R (.entity kind)
  /-- The source has a message for one of the entities. -/
  | entityIdsIn (ids : List Identifier) : Test R .source
  | signatureTypeIn (names : List String) : Test R .source
  | signatureMatches (test : PayloadTest R) : Test R .source
  | deltaTypeIn (names : List String) : Test R (.entity .message)
  | deltaMatches (test : PayloadTest R) : Test R (.entity .message)
  | leaseScopeEq (scope : String) : Test R (.entity .lease)
  | leaseLabelEq (label : String) : Test R (.entity .lease)
  | leaseValueEq (value : String) : Test R (.entity .lease)
  | tagLabelEq (label : String) : Test R (.entity .tag)
  | tagValueEq (value : String) : Test R (.entity .tag)

/-- Whether the headers name one of the types. -/
def Headers.typeIn (headers : Headers) (names : List String) : Bool :=
  headers.typeName?.any names.contains

/-- Whether a record passes a test. -/
def Test.holds {R : Type} (registry : R) : {φ : Facet} → Test R φ → φ.Record → Bool
  | _, .sourceIdIn ids, record => ids.contains (Facet.sourceId record)
  | _, .sourceTimeStampGte least, record => least.le (Facet.sourceTimeStamp record)
  | _, .sourceTimeStampLte greatest, record => (Facet.sourceTimeStamp record).le greatest
  | .entity _, .entityIdIn ids, record => ids.contains record.entityId
  | .entity _, .entityVersionGte least, record => least ≤ record.entityVersion
  | .entity _, .entityVersionLte greatest, record => record.entityVersion ≤ greatest
  | .source, .entityIdsIn ids, record => record.entityPointers.any (ids.contains ·.id)
  | .source, .signatureTypeIn names, record => record.agentSignature.headers.typeIn names
  | .source, .signatureMatches test, record => test registry record.agentSignature
  | .entity .message, .deltaTypeIn names, record => record.data.headers.typeIn names
  | .entity .message, .deltaMatches test, record => test registry record.data
  | .entity .lease, .leaseScopeEq scope, record => record.data.scope = scope
  | .entity .lease, .leaseLabelEq label, record => record.data.label = label
  | .entity .lease, .leaseValueEq value, record => record.data.value = value
  | .entity .tag, .tagLabelEq label, record => record.data.label = label
  | .entity .tag, .tagValueEq value, record => record.data.value = value

/-- Tests combined. No filters together pass everything; no filters to choose from pass nothing. -/
inductive Filter (R : Type) (φ : Facet) where
  | test (t : Test R φ)
  | all (filters : List (Filter R φ))
  | any (filters : List (Filter R φ))
  | not (filter : Filter R φ)

namespace Filter

variable {R : Type} {φ : Facet}

mutual

/-- Whether a record passes a filter. -/
def holds (registry : R) (record : φ.Record) : Filter R φ → Bool
  | .test t => t.holds registry record
  | .all filters => allHold registry record filters
  | .any filters => anyHolds registry record filters
  | .not filter => !holds registry record filter

/-- Whether a record passes all of some filters. -/
def allHold (registry : R) (record : φ.Record) : List (Filter R φ) → Bool
  | [] => true
  | filter :: filters => holds registry record filter && allHold registry record filters

/-- Whether a record passes any of some filters. -/
def anyHolds (registry : R) (record : φ.Record) : List (Filter R φ) → Bool
  | [] => false
  | filter :: filters => holds registry record filter || anyHolds registry record filters

end

end Filter

end Chronicle
