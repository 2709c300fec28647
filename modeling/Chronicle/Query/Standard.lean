import Chronicle.Query.Basic

/-!
# Standard queries

The queries that sessions rely on, and a few of general use. A query that makes sense for several
facets is one definition over them.
-/

namespace Chronicle.Query

variable {R : Type}

/-- Records of one entity, or of all. -/
def ofEntity? {kind : Kind} (entityId : Option Identifier) : List (Filter R (.entity kind)) :=
  (entityId.map fun id ↦ .test (.entityIdIn [id])).toList

/-- Everything that one source wrote, or what it wrote for one entity. The source itself is found
whatever the entity. -/
def ofSource (sourceId : Identifier) (entityId : Option Identifier) : (φ : Facet) → Query R φ
  | .source => { filter := .test (.sourceIdIn [sourceId]) }
  | .entity _ =>
    match entityId with
    | none => { filter := .test (.sourceIdIn [sourceId]) }
    | some id =>
      { filter := .all [.test (.entityIdIn [id]), .test (.sourceIdIn [sourceId])] }

/-- The deltas of an entity after a version that is known, up to a version if one is given, in the
order of versions. -/
def deltas (entityId : Identifier) (after : Version) (upTo : Option Version) :
    Query R (.entity .message) where
  filter := .all ([.test (.entityIdIn [entityId]), .test (.entityVersionGte after.next)] ++
    (upTo.map fun v ↦ Filter.test (.entityVersionLte v)).toList)
  ranking := some (.by .entityVersion true)

/-- Everything about some entities. -/
def ofEntities (ids : List Identifier) (skip take : Option Nat) : (φ : Facet) → Query R φ
  | .source => { filter := .test (.entityIdsIn ids), skip, take }
  | .entity .message =>
    { filter := .test (.entityIdIn ids)
      ranking := some (.combine [.by .entityId true, .by .entityVersion true])
      skip, take }
  | .entity _ => { filter := .test (.entityIdIn ids), skip, take }

/-- What is kept for entity versions in a range. -/
def versionRange (entityId : Option Identifier) (least greatest : Option Version)
    (skip take : Option Nat) (kind : Kind) : Query R (.entity kind) where
  filter := .all (ofEntity? entityId ++
    (least.map fun v ↦ Filter.test (.entityVersionGte v)).toList ++
    (greatest.map fun v ↦ Filter.test (.entityVersionLte v)).toList)
  ranking :=
    match kind with
    | .message => some (.combine [.by .entityId true, .by .entityVersion true])
    | _ => none
  skip := skip
  take := take

/-- What was written in a range of time, oldest first. -/
def timeStampRange (least greatest : Option TimeStamp) (skip take : Option Nat) (φ : Facet) :
    Query R φ where
  filter := .all ((least.map fun t ↦ Filter.test (.sourceTimeStampGte t)).toList ++
    (greatest.map fun t ↦ Filter.test (.sourceTimeStampLte t)).toList)
  ranking := some (.by .sourceTimeStamp true)
  skip := skip
  take := take

/-- The agent signatures that satisfy a test. -/
def signaturesMatching (test : PayloadTest R) (skip take : Option Nat) : Query R .source where
  filter := .test (.signatureMatches test)
  skip := skip
  take := take

/-- The deltas that satisfy a test, by entity and version. -/
def deltasMatching (test : PayloadTest R) (skip take : Option Nat) :
    Query R (.entity .message) where
  filter := .test (.deltaMatches test)
  ranking := some (.combine [.by .entityId true, .by .entityVersion true, .by .deltaType true])
  skip := skip
  take := take

/-- The leases with the given parts, by their parts. -/
def leasesMatching (entityId : Option Identifier) (scope label value : Option String) :
    Query R (.entity .lease) where
  filter := .all (ofEntity? entityId ++
    (scope.map fun s ↦ Filter.test (.leaseScopeEq s)).toList ++
    (label.map fun s ↦ Filter.test (.leaseLabelEq s)).toList ++
    (value.map fun s ↦ Filter.test (.leaseValueEq s)).toList)
  ranking := some (.combine [.by .leaseScope true, .by .leaseLabel true, .by .leaseValue true])

/-- The tags with the given parts, by entity and version and then by their parts. -/
def tagsMatching (entityId : Option Identifier) (label value : Option String) :
    Query R (.entity .tag) where
  filter := .all (ofEntity? entityId ++
    (label.map fun s ↦ Filter.test (.tagLabelEq s)).toList ++
    (value.map fun s ↦ Filter.test (.tagValueEq s)).toList)
  ranking := some (.combine
    [.by .entityId true, .by .entityVersion true, .by .tagLabel true, .by .tagValue true])

/-- Everything, in the order of writing, with options for the store. -/
def withOptions (options : String) (φ : Facet) : Query R φ where
  filter := .all []
  options := some options

end Chronicle.Query
