import Chronicle.Store.Record

/-!
# Rankings

A ranking says in what order records come: by keys, each in one direction, the first taking
precedence. Records that are equal by every key keep the order of writing, in the direction of the
first key, so that reversing every key reverses the whole order.
-/

namespace Chronicle

/-- The keys that records of a facet can be ordered by. -/
inductive Key : Facet → Type where
  /-- The order of writing. -/
  | sequence {φ : Facet} : Key φ
  | sourceTimeStamp {φ : Facet} : Key φ
  | sourceId {φ : Facet} : Key φ
  | entityId {kind : Kind} : Key (.entity kind)
  | entityVersion {kind : Kind} : Key (.entity kind)
  | signatureType : Key .source
  | deltaType : Key (.entity .message)
  | leaseScope : Key (.entity .lease)
  | leaseLabel : Key (.entity .lease)
  | leaseValue : Key (.entity .lease)
  | tagLabel : Key (.entity .tag)
  | tagValue : Key (.entity .tag)

/-- How two records compare by a key. A record without a type name comes before those with one. -/
def Key.compare : {φ : Facet} → Key φ → (a b : φ.Record) → Ordering
  | _, .sequence, a, b => Ord.compare (Facet.sequence a) (Facet.sequence b)
  | _, .sourceTimeStamp, a, b => Ord.compare (Facet.sourceTimeStamp a) (Facet.sourceTimeStamp b)
  | _, .sourceId, a, b => Ord.compare (Facet.sourceId a) (Facet.sourceId b)
  | .entity _, .entityId, a, b => Ord.compare a.entityId b.entityId
  | .entity _, .entityVersion, a, b => Ord.compare a.entityVersion b.entityVersion
  | .source, .signatureType, a, b =>
    Ord.compare a.agentSignature.headers.typeName? b.agentSignature.headers.typeName?
  | .entity .message, .deltaType, a, b =>
    Ord.compare a.data.headers.typeName? b.data.headers.typeName?
  | .entity .lease, .leaseScope, a, b => Ord.compare a.data.scope b.data.scope
  | .entity .lease, .leaseLabel, a, b => Ord.compare a.data.label b.data.label
  | .entity .lease, .leaseValue, a, b => Ord.compare a.data.value b.data.value
  | .entity .tag, .tagLabel, a, b => Ord.compare a.data.label b.data.label
  | .entity .tag, .tagValue, a, b => Ord.compare a.data.value b.data.value

/-- A key in a direction. -/
structure Directed (φ : Facet) where
  key : Key φ
  ascending : Bool

/-- An ordering as seen in a direction. -/
def inDirection (ascending : Bool) (o : Ordering) : Ordering :=
  if ascending then o else o.swap

/-- How two records compare by a key in its direction. -/
def Directed.compare {φ : Facet} (d : Directed φ) (a b : φ.Record) : Ordering :=
  inDirection d.ascending (d.key.compare a b)

/-- Keys combined, in any nesting. -/
inductive Ranking (φ : Facet) where
  | by (key : Key φ) (ascending : Bool)
  | combine (rankings : List (Ranking φ))

namespace Ranking

variable {φ : Facet}

mutual

/-- The keys of a ranking, those that take precedence first. -/
def keys : Ranking φ → List (Directed φ)
  | .by key ascending => [⟨key, ascending⟩]
  | .combine rankings => allKeys rankings

/-- The keys of some rankings, one after the other. -/
def allKeys : List (Ranking φ) → List (Directed φ)
  | [] => []
  | ranking :: rankings => keys ranking ++ allKeys rankings

end

mutual

/-- The ranking with the direction of every key turned. -/
def reverse : Ranking φ → Ranking φ
  | .by key ascending => .by key (!ascending)
  | .combine rankings => .combine (reverseAll rankings)

/-- The rankings with every direction turned, in their order. -/
def reverseAll : List (Ranking φ) → List (Ranking φ)
  | [] => []
  | ranking :: rankings => reverse ranking :: reverseAll rankings

end

end Ranking

/-- How two records compare by keys, and by the order of writing if all of these tie. -/
def compareBy {φ : Facet} (keys : List (Directed φ)) (a b : φ.Record) : Ordering :=
  let ties := inDirection (keys.head?.all (·.ascending))
    (Ord.compare (Facet.sequence a) (Facet.sequence b))
  keys.foldr (fun d rest ↦ (d.compare a b).then rest) ties

end Chronicle
