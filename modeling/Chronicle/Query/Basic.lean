import Chronicle.Query.Filter
import Chronicle.Query.Ranking

/-!
# Queries

A query of a facet is a filter, a ranking if the order of writing will not do, and a page. It
selects from a list of records those that pass, in the order of the ranking, and then a page of
what it is asked for: the records themselves, or the distinct identifiers in them.

A query is also the base of others: `Query.modify` inverts its filter, reverses its ranking and
replaces its page. A query without a ranking comes in the order of writing, and is reversed by
reading backwards.
-/

namespace Chronicle

/-- What a query asks for. The options are handed to the store as they are. -/
structure Query (R : Type) (φ : Facet) where
  filter : Filter R φ
  ranking : Option (Ranking φ) := none
  skip : Option Nat := none
  take : Option Nat := none
  options : Option String := none

/-- The page of a list that is left by skipping and taking. -/
def paginate {α : Type} (skip take : Option Nat) (items : List α) : List α :=
  let rest := items.drop (skip.getD 0)
  match take with
  | none => rest
  | some n => rest.take n

/-- The first occurrence of each identifier. -/
def distinct (ids : List Identifier) : List Identifier :=
  ids.foldl (fun seen id ↦ if seen.contains id then seen else seen ++ [id]) []

/-- The first occurrences in a list are those of everything in it. -/
theorem mem_distinct {ids : List Identifier} {X : Identifier} : X ∈ distinct ids ↔ X ∈ ids := by
  suffices ∀ seen : List Identifier,
      X ∈ ids.foldl (fun seen id ↦ if seen.contains id then seen else seen ++ [id]) seen ↔
        X ∈ seen ∨ X ∈ ids by
    simpa [distinct] using this []
  induction ids with
  | nil => simp
  | cons id rest ih =>
    intro seen
    rw [List.foldl_cons, ih]
    split
    case isTrue hseen =>
      rw [List.contains_iff_mem] at hseen
      grind
    · grind

/-- The records that pass a filter, in the order of the keys. -/
def select {R : Type} {φ : Facet} (registry : R) (filter : Filter R φ)
    (keys : List (Directed φ)) (records : List φ.Record) : List φ.Record :=
  (records.filter (filter.holds registry)).mergeSort fun a b ↦ (compareBy keys a b).isLE

namespace Query

variable {R : Type} {φ : Facet}

/-- The keys that a query orders records by. -/
def keys (q : Query R φ) : List (Directed φ) :=
  match q.ranking with
  | none => []
  | some ranking => ranking.keys

/-- All records that a query selects, in order. -/
def selectAll (q : Query R φ) (registry : R) (records : List φ.Record) : List φ.Record :=
  select registry q.filter q.keys records

/-- The page of a query. -/
def page {α : Type} (q : Query R φ) (items : List α) : List α := paginate q.skip q.take items

/-! ### Modified queries -/

/-- How a query is derived from another. -/
structure Modification where
  /-- Select what the other does not. -/
  invert : Bool := false
  /-- Traverse in the opposite order. -/
  reverse : Bool := false
  skip : Option Nat := none
  take : Option Nat := none
deriving DecidableEq

/-- The ranking that traverses in the opposite order. -/
def reverseRanking : Option (Ranking φ) → Ranking φ
  | none => .by .sequence false
  | some ranking => ranking.reverse

/-- The query derived from another. -/
def modify (q : Query R φ) (m : Modification) : Query R φ where
  filter := if m.invert then .not q.filter else q.filter
  ranking := if m.reverse then some (reverseRanking q.ranking) else q.ranking
  skip := m.skip.or q.skip
  take := m.take.or q.take
  options := q.options

end Query

end Chronicle
