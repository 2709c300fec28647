import Chronicle.Proofs.Query.Reads
import Chronicle.Proofs.Query.Reversal
import Mathlib.Data.List.Perm.Basic

/-!
# Queries modified several times

However often a query is modified, its filter, its ranking and its page are each changed by a part
of the modifications of their own. Two modifications in a row are one (`alike_modify_modify`), and
so any number of them are one: it inverts and reverses if an odd number of them do, and its page is
the last one that is given (`Modification.collapse`).

The query that results need not be the same. One without a ranking that is reversed twice ascends
the order of writing by a key, and before it had no key. What counts is that the records pass alike
and compare alike (`Query.Alike`), which is all that any read depends on (`Alike.answer_eq`).
-/

namespace Chronicle

variable {R : Type} {φ : Facet}

/-! ### Collapsed modifications -/

namespace Query.Modification

/-- The modification that does what one does and then another. -/
def andThen (m m' : Modification) : Modification where
  invert := m.invert ^^ m'.invert
  reverse := m.reverse ^^ m'.reverse
  skip := m'.skip.or m.skip
  take := m'.take.or m.take

/-- Whether an odd number of modifications have a flag. -/
def odd (flag : Modification → Bool) (ms : List Modification) : Bool := ms.countP flag % 2 = 1

/-- The last of what modifications give. -/
def last? (part : Modification → Option Nat) (ms : List Modification) : Option Nat :=
  (ms.filterMap part).getLast?

/-- One modification in place of several: its flags are the parities of theirs, and its page the
last one that is given. -/
def collapse (ms : List Modification) : Modification where
  invert := odd (·.invert) ms
  reverse := odd (·.reverse) ms
  skip := last? (·.skip) ms
  take := last? (·.take) ms

theorem odd_cons (flag : Modification → Bool) (m : Modification) (ms : List Modification) :
    odd flag (m :: ms) = (flag m ^^ odd flag ms) := by
  rw [odd, odd, List.countP_cons]
  cases flag m with
  | false => simp
  | true =>
    rcases Nat.mod_two_eq_zero_or_one (ms.countP flag) with heven | hodd
    · simp [Nat.add_mod, heven]
    · simp [Nat.add_mod, hodd]

theorem last?_cons (part : Modification → Option Nat) (m : Modification)
    (ms : List Modification) : last? part (m :: ms) = (last? part ms).or (part m) := by
  rw [last?, last?, List.filterMap_cons]
  cases part m with
  | none => simp
  | some n =>
    rw [List.getLast?_cons]
    cases (ms.filterMap part).getLast? <;> rfl

theorem collapse_cons (m : Modification) (ms : List Modification) :
    collapse (m :: ms) = m.andThen (collapse ms) := by
  simp only [collapse, andThen, odd_cons, last?_cons]

end Query.Modification

/-! ### Queries that are alike -/

namespace Query

/-- Two queries are alike if the same records pass, these compare alike, and the page is the
same. -/
structure Alike (q q' : Query R φ) : Prop where
  holds : ∀ (registry : R) (record : φ.Record),
    q.filter.holds registry record = q'.filter.holds registry record
  compare : ∀ a b : φ.Record, compareBy q.keys a b = compareBy q'.keys a b
  skip : q.skip = q'.skip
  take : q.take = q'.take

namespace Alike

variable {q q' q'' : Query R φ}

theorem refl (q : Query R φ) : q.Alike q := ⟨fun _ _ ↦ rfl, fun _ _ ↦ rfl, rfl, rfl⟩

theorem trans (h : q.Alike q') (h' : q'.Alike q'') : q.Alike q'' where
  holds registry record := (h.holds registry record).trans (h'.holds registry record)
  compare a b := (h.compare a b).trans (h'.compare a b)
  skip := h.skip.trans h'.skip
  take := h.take.trans h'.take

theorem selectAll_eq (h : q.Alike q') (registry : R) (records : List φ.Record) :
    q.selectAll registry records = q'.selectAll registry records := by
  have hfilter : (q.filter.holds registry ·) = (q'.filter.holds registry ·) :=
    funext (h.holds registry)
  have hcompare : (compareBy q.keys : φ.Record → φ.Record → Ordering) = compareBy q'.keys := by
    funext a b
    exact h.compare a b
  rw [selectAll, selectAll, select, select, hfilter, hcompare]

theorem page_eq {α : Type} (h : q.Alike q') (items : List α) : q.page items = q'.page items := by
  rw [page, page, h.skip, h.take]

theorem select_eq (h : q.Alike q') (t : Tables) (registry : R) :
    t.select registry q = t.select registry q' := by
  rw [Tables.select, Tables.select, h.selectAll_eq, h.page_eq]

theorem selectSourceIds_eq (h : q.Alike q') (t : Tables) (registry : R) :
    t.selectSourceIds registry q = t.selectSourceIds registry q' := by
  rw [Tables.selectSourceIds, Tables.selectSourceIds, h.selectAll_eq, h.page_eq]

theorem selectEntityIds_eq (h : q.Alike q') (t : Tables) (registry : R) :
    t.selectEntityIds registry q = t.selectEntityIds registry q' := by
  rw [Tables.selectEntityIds, Tables.selectEntityIds, h.selectAll_eq, h.page_eq]

/-- Queries that are alike are answered alike, by every read. -/
theorem answer_eq (h : q.Alike q') (t : Tables) (registry : R) (read : Read R φ) :
    read.answer t registry q = read.answer t registry q' := by
  have hselect := h.select_eq t registry
  cases read with
  | sourceIds => rw [Read.answer, Read.answer, h.selectSourceIds_eq]
  | entityIds => rw [Read.answer, Read.answer, h.selectEntityIds_eq]
  | agentSignatures A =>
    rw [Read.answer, Read.answer, Tables.agentSignatures, Tables.agentSignatures, hselect]
  | annotatedAgentSignatures A =>
    rw [Read.answer, Read.answer, Tables.annotatedAgentSignatures,
      Tables.annotatedAgentSignatures, hselect]
  | deltas D => rw [Read.answer, Read.answer, Tables.deltas, Tables.deltas, hselect]
  | annotatedDeltas D =>
    rw [Read.answer, Read.answer, Tables.annotatedDeltas, Tables.annotatedDeltas, hselect]
  | heldLeases =>
    rw [Read.answer, Read.answer, Tables.heldLeases, Tables.heldLeases, hselect]
  | annotatedLeases =>
    rw [Read.answer, Read.answer, Tables.annotatedLeases, Tables.annotatedLeases, hselect]
  | heldTags => rw [Read.answer, Read.answer, Tables.heldTags, Tables.heldTags, hselect]
  | annotatedTags =>
    rw [Read.answer, Read.answer, Tables.annotatedTags, Tables.annotatedTags, hselect]

end Alike

/-! ### Two modifications -/

theorem holds_modify (q : Query R φ) (m : Modification) (registry : R) (record : φ.Record) :
    (q.modify m).filter.holds registry record = (m.invert ^^ q.filter.holds registry record) := by
  cases hinvert : m.invert with
  | false => simp [modify, hinvert]
  | true => simp [modify, hinvert, Filter.holds]

/-- To ascend the order of writing by a key is what having no key comes to. -/
theorem compareBy_sequence_ascending (a b : φ.Record) :
    compareBy [⟨.sequence, true⟩] a b = compareBy [] a b := by
  have hturned : [⟨.sequence, true⟩] = [(⟨.sequence, false⟩ : Directed φ)].map Directed.turn := rfl
  rw [hturned, compareBy_map_turn (List.cons_ne_nil _ _), compareBy_sequence_descending,
    Ordering.swap_swap]

/-- Reversed twice, a query compares as it did. -/
theorem compareBy_reverseRanking (ranking : Option (Ranking φ)) (a b : φ.Record) :
    compareBy (reverseRanking (some (reverseRanking ranking))).keys a b =
      compareBy ((ranking.map Ranking.keys).getD []) a b := by
  cases ranking with
  | none => exact compareBy_sequence_ascending a b
  | some ranking =>
    have hturn : (Directed.turn ∘ Directed.turn : Directed φ → Directed φ) = id := by
      funext d
      simp [Directed.turn]
    show compareBy ranking.reverse.reverse.keys a b = compareBy ranking.keys a b
    rw [Ranking.keys_reverse, Ranking.keys_reverse, List.map_map, hturn, List.map_id]

/-- **Two modifications in a row.** They come to one. -/
theorem alike_modify_modify (q : Query R φ) (m m' : Modification) :
    ((q.modify m).modify m').Alike (q.modify (m.andThen m')) where
  holds registry record := by
    rw [holds_modify, holds_modify, holds_modify, Modification.andThen]
    cases m.invert <;> cases m'.invert <;> simp
  compare a b := by
    cases hreverse : m.reverse with
    | false => simp [keys, modify, Modification.andThen, hreverse]
    | true =>
      cases hreverse' : m'.reverse with
      | false => simp [keys, modify, Modification.andThen, hreverse, hreverse']
      | true =>
        have htwice := compareBy_reverseRanking q.ranking a b
        cases hranking : q.ranking <;>
          simpa [keys, modify, Modification.andThen, hreverse, hreverse', hranking] using htwice
  skip := by simp [modify, Modification.andThen, Option.or_assoc]
  take := by simp [modify, Modification.andThen, Option.or_assoc]

/-- Modified by nothing, a query is as it was. -/
theorem modify_default (q : Query R φ) : q.modify {} = q := by
  obtain ⟨filter, ranking, skip, take, options⟩ := q
  simp [modify]

/-- Any number of modifications in a row come to one. -/
theorem alike_foldl_modify (q : Query R φ) (ms : List Modification) :
    (ms.foldl modify q).Alike (q.modify (Modification.collapse ms)) := by
  induction ms generalizing q with
  | nil =>
    have hnone : Modification.collapse [] = {} := rfl
    rw [hnone, modify_default]
    exact .refl q
  | cons m ms ih =>
    rw [List.foldl_cons, Modification.collapse_cons]
    exact (ih (q.modify m)).trans (q.alike_modify_modify m _)

end Query

/-! ### Reads of modified queries -/

namespace Tables

open Query (Modification)

variable {t : Tables} {registry : R}

/-- What a query without a page selects and what its inversion does make up the table. -/
theorem select_invert_perm {q : Query R φ} (hskip : q.skip = none) (htake : q.take = none) :
    (t.select registry q ++ t.select registry (q.modify { invert := true })).Perm
      (t.records φ) := by
  have hinverted : (q.modify { invert := true }).selectAll registry (t.records φ) =
      Chronicle.select registry (.not q.filter) q.keys (t.records φ) := rfl
  rw [select_eq_selectAll hskip htake, select_eq_selectAll (by exact hskip) (by exact htake),
    hinverted]
  refine (select_perm.append select_perm).trans ?_
  exact List.filter_append_perm (q.filter.holds registry ·) (t.records φ)

/-- No record is selected both by a query and by its inversion. -/
theorem disjoint_select_invert {q : Query R φ} (hskip : q.skip = none) (htake : q.take = none) :
    (t.select registry q).Disjoint (t.select registry (q.modify { invert := true })) := by
  intro record hrecord hinverted
  rw [select_eq_selectAll (by exact hskip) (by exact htake)] at hrecord hinverted
  have hpass := (List.mem_filter.1 (select_perm.mem_iff.1 hrecord)).2
  have hfail := (List.mem_filter.1 (select_perm.mem_iff.1 hinverted)).2
  rw [Query.holds_modify, hpass] at hfail
  cases hfail

/-- **Stacked modifications.** Each of the reads of a facet answers a query that is modified several
times as it answers the query modified once, inverted and reversed if an odd number of the
modifications are, and with the last page that any of them gives. So two inversions come to nothing,
as do two reversals; and without a page, what a query selects and what its inversion selects make up
the table, with nothing in both. -/
theorem answer_foldl_modify (t : Tables) (registry : R) (q : Query R φ) :
    (∀ (ms : List Modification) (read : Read R φ),
      read.answer t registry (ms.foldl Query.modify q) =
        read.answer t registry (q.modify (.collapse ms))) ∧
    (∀ read : Read R φ,
      read.answer t registry ((q.modify { invert := true }).modify { invert := true }) =
          read.answer t registry q ∧
        read.answer t registry ((q.modify { reverse := true }).modify { reverse := true }) =
          read.answer t registry q) ∧
    (q.skip = none → q.take = none →
      (t.select registry q ++ t.select registry (q.modify { invert := true })).Perm
          (t.records φ) ∧
        (t.select registry q).Disjoint (t.select registry (q.modify { invert := true }))) := by
  have hcollapse : ∀ (ms : List Modification) (read : Read R φ),
      read.answer t registry (ms.foldl Query.modify q) =
        read.answer t registry (q.modify (.collapse ms)) := fun ms read ↦
    (q.alike_foldl_modify ms).answer_eq t registry read
  refine ⟨hcollapse, fun read ↦ ⟨?_, ?_⟩, fun hskip htake ↦
    ⟨select_invert_perm hskip htake, disjoint_select_invert hskip htake⟩⟩
  · have htwice := hcollapse [{ invert := true }, { invert := true }] read
    rwa [show Modification.collapse [{ invert := true }, { invert := true }] = {} from rfl,
      q.modify_default] at htwice
  · have htwice := hcollapse [{ reverse := true }, { reverse := true }] read
    rwa [show Modification.collapse [{ reverse := true }, { reverse := true }] = {} from rfl,
      q.modify_default] at htwice

section Stacked

open Inventory

/-- Turned around, paged, inverted, turned around again and paged once more. -/
def stacked : List Modification := [
  { reverse := true, take := some 2 },
  { invert := true, skip := some 3 },
  { reverse := true, skip := some 1 }]

theorem answer_foldl_modify_stacked :
    Modification.collapse stacked = { invert := true, skip := some 1, take := some 2 } ∧
    (∀ read : Read Registry (.entity .message),
      read.answer handedOver {} (stacked.foldl Query.modify latestFirst) =
        read.answer handedOver {} (latestFirst.modify (.collapse stacked))) ∧
    latestFirst.skip = none ∧ latestFirst.take = none ∧
    (handedOver.select {} latestFirst ++
      handedOver.select {} (latestFirst.modify { invert := true })).Perm handedOver.messages ∧
    (handedOver.select {} latestFirst).Disjoint
      (handedOver.select {} (latestFirst.modify { invert := true })) := by
  obtain ⟨hcollapse, -, hparts⟩ := answer_foldl_modify handedOver {} latestFirst
  exact ⟨by decide, hcollapse stacked, rfl, rfl, hparts rfl rfl⟩

end Stacked

end Tables

end Chronicle
