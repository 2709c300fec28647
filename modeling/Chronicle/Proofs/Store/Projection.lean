import Chronicle.Proofs.Store.History
import Chronicle.Proofs.Transaction
import Mathlib.Data.Finset.Basic
import Mathlib.Data.Finset.Lattice.Lemmas

/-!
# What is kept of states

Leases and tags come from the states of entities. A message that is drafted says which of them its
delta takes from the state and which it brings, and a store that takes the message takes the one
from the records of the entity and adds records of the other. Both kinds of data go the same way
(`Projection`), and so they are dealt with here as one: a source changes the data kept for an entity
as its messages say, one after the other (`heldBy_write`). A lease or tag may well be among the data
of a state several times, which makes no difference to the set of them (`toFinset_foldl_revise`).
-/

namespace Chronicle

variable {D A : Type}

/-! ### Projections -/

/-- A kind of data that states have and a store keeps of them: what a state has of it, what a change
takes and brings, and where it is kept. -/
structure Projection (α : Type) [DecidableEq α] where
  state : {E D : Type} → [Entity E D] → E → List α
  deleted : {D : Type} → Change D → List α
  added : {D : Type} → Change D → List α
  records : Tables → List (EntityRecord α)
  records_empty : records .empty = []
  records_writeSource : ∀ t s, records (t.writeSource s) = records t
  records_writeMessage : ∀ s t m, ∃ sequence, records (Tables.writeMessage s t m) =
    Tables.withoutData m.entityId (deleted m.toChange) (records t) ++
      Tables.recordsOf s m sequence (added m.toChange)
  /-- Packing a delta changes nothing else of its message. -/
  withDelta : ∀ {D D' : Type} (m : Message D) (delta : D'),
    deleted (m.withDelta delta).toChange = deleted m.toChange ∧
      added (m.withDelta delta).toChange = added m.toChange
  /-- What is recorded of a delta takes what the state loses, and brings what it gains. -/
  draft : ∀ {E D : Type} [Entity E D] (X : Identifier) (before after : E) (delta : D),
    let c := Transaction.draft X before after delta
    deleted c = (difference (state before) (state after)).1 ∧
      added c = (difference (state before) (state after)).2

namespace Projection

/-- The leases that states hold. -/
def leases : Projection Lease where
  state := Entity.leases
  deleted := Change.deleteLeases
  added := Change.addLeases
  records := Tables.leases
  records_empty := rfl
  records_writeSource _ _ := rfl
  records_writeMessage _ _ _ := ⟨_, rfl⟩
  withDelta _ _ := ⟨rfl, rfl⟩
  draft _ _ _ _ := ⟨rfl, rfl⟩

/-- The tags that states are found by. -/
def tags : Projection Tag where
  state := Entity.tags
  deleted := Change.deleteTags
  added := Change.addTags
  records := Tables.tags
  records_empty := rfl
  records_writeSource _ _ := rfl
  records_writeMessage _ _ _ := ⟨_, rfl⟩
  withDelta _ _ := ⟨rfl, rfl⟩
  draft _ _ _ _ := ⟨rfl, rfl⟩

variable {α : Type} [DecidableEq α] (p : Projection α)

/-- What is kept for an entity, in the order of writing. -/
def heldBy (t : Tables) (X : Identifier) : List α :=
  ((p.records t).filter (·.entityId = X)).map (·.data)

theorem mem_heldBy {t : Tables} {X : Identifier} {a : α} :
    a ∈ p.heldBy t X ↔ ∃ record ∈ p.records t, record.entityId = X ∧ record.data = a := by
  simp [heldBy, and_assoc]

/-- What is kept once a change of the entity is written. -/
def revise (held : List α) (c : Change D) : List α :=
  held.filter (fun a ↦ !(p.deleted c).contains a) ++ p.added c

theorem revise_withDelta {D' : Type} (held : List α) (m : Message D) (delta : D') :
    p.revise held (m.withDelta delta).toChange = p.revise held m.toChange := by
  obtain ⟨hdeleted, hadded⟩ := p.withDelta m delta
  rw [revise, hdeleted, hadded, revise]

/-- The same of a set: what a change leaves of it, and what it brings. -/
def turn (held : Finset α) (c : Change D) : Finset α :=
  held \ (p.deleted c).toFinset ∪ (p.added c).toFinset

/-- Changes turn the set of what is kept, in whatever order and however often it is kept. -/
theorem toFinset_foldl_revise (cs : List (Change D)) (held : List α) :
    (cs.foldl p.revise held).toFinset = cs.foldl p.turn held.toFinset := by
  refine (List.foldl_hom List.toFinset fun held c ↦ ?_).symm
  ext a
  simp [turn, revise]

/-! ### Writing -/

section Write

variable (s : PackedSource) (t : Tables) (m : PackedMessage) {X : Identifier}

/-- A message changes what is kept for its entity. -/
theorem heldBy_writeMessage_of_eq (hX : m.entityId = X) :
    p.heldBy (Tables.writeMessage s t m) X = p.revise (p.heldBy t X) m.toChange := by
  obtain ⟨sequence, hrecords⟩ := p.records_writeMessage s t m
  rw [heldBy, hrecords, Tables.withoutData,
    Tables.filter_append_recordsOf_of_eq (fun a ↦ !(p.deleted m.toChange).contains a) hX,
    List.map_append, Tables.map_data_recordsOf, revise, heldBy, List.filter_map]
  rfl

/-- It leaves what is kept for others. -/
theorem heldBy_writeMessage_of_ne (hX : m.entityId ≠ X) :
    p.heldBy (Tables.writeMessage s t m) X = p.heldBy t X := by
  obtain ⟨sequence, hrecords⟩ := p.records_writeMessage s t m
  rw [heldBy, hrecords, Tables.withoutData,
    Tables.filter_append_recordsOf_of_ne (fun a ↦ !(p.deleted m.toChange).contains a) hX, heldBy]

end Write

/-- A source changes what is kept for an entity as its messages of the entity say, one after the
other. The induction is on the messages, over the tables as they are after those ahead. -/
theorem heldBy_write [Packable D] [Packable A] (t : Tables) {s : Source D A} {packed : PackedSource}
    (h : s.pack.outcome = .ok packed) (X : Identifier) :
    p.heldBy (t.write packed) X = (changesOf X s.changes).foldl p.revise (p.heldBy t X) := by
  obtain ⟨-, -, -, hmessages⟩ := Source.pack_eq_ok_iff.1 h
  have hstart : p.heldBy (t.writeSource packed) X = p.heldBy t X := by
    rw [heldBy, p.records_writeSource]
    rfl
  rw [← hstart, Tables.write, Source.changes]
  clear h hstart
  generalize t.writeSource packed = t
  generalize s.messages = messages, packed.messages = packedMessages at hmessages
  induction hmessages generalizing t with
  | nil => rfl
  | @cons m _ rest _ hm _ ih =>
    obtain ⟨delta, -, rfl⟩ := hm
    rw [List.foldl_cons, ih, List.map_cons]
    by_cases hX : m.entityId = X
    · rw [changesOf_cons_of_eq hX, List.foldl_cons,
        p.heldBy_writeMessage_of_eq packed t (m.withDelta delta) hX, p.revise_withDelta]
    · rw [changesOf_cons_of_ne hX, p.heldBy_writeMessage_of_ne packed t (m.withDelta delta) hX]

end Projection

end Chronicle
