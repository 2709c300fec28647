import Chronicle.Inventory.Registry
import Chronicle.Proofs.Query.Ordering
import Chronicle.Proofs.Store.Sequence
import Chronicle.Store.Read

/-!
# Reading backwards

A query that is modified to traverse in the opposite order has every key of its ranking turned
around, in whatever nesting the ranking combines them (`Ranking.keys_reverse`); one without a
ranking descends the order of writing instead. Since the first key also gives ties their direction,
the modified query selects exactly the same records backwards.

That takes a key. A ranking that combines nothing is a ranking all the same, so that it is not
replaced by the order of writing, and has no key that could be turned around: such a query selects
the records in the order of writing whether it is reversed or not (`select_modify_reverse`).
-/

namespace Chronicle

/-! ### Turned rankings -/

namespace Ranking

variable {φ : Facet}

mutual

/-- Reversing a ranking turns each of its keys around and leaves them in their places. -/
theorem keys_reverse : ∀ ranking : Ranking φ, ranking.reverse.keys = ranking.keys.map Directed.turn
  | .by _ _ => rfl
  | .combine rankings => allKeys_reverseAll rankings

theorem allKeys_reverseAll : ∀ rankings : List (Ranking φ),
    allKeys (reverseAll rankings) = (allKeys rankings).map Directed.turn
  | [] => rfl
  | ranking :: rankings => by
    rw [reverseAll, allKeys, allKeys, keys_reverse ranking, allKeys_reverseAll rankings,
      List.map_append]

end

end Ranking

namespace Query

variable {R : Type} {φ : Facet}

/-- Without a page, nothing is left out. -/
theorem page_eq_self {α : Type} (q : Query R φ) (hskip : q.skip = none) (htake : q.take = none)
    (items : List α) : q.page items = items := by
  rw [page, hskip, htake]
  exact List.drop_zero

/-- Whether the ranking of a query, if it has one, has a key. -/
def Turnable (q : Query R φ) : Prop := ∀ ranking, q.ranking = some ranking → ranking.keys ≠ []

/-- A query with a ranking that has a key, or with none, compares the other way round when it is
reversed. -/
theorem compareBy_modify_reverse {q : Query R φ} (h : q.Turnable) (a b : φ.Record) :
    compareBy (q.modify { reverse := true }).keys a b = (compareBy q.keys a b).swap := by
  obtain ⟨filter, ranking, skip, take, options⟩ := q
  cases ranking with
  | none => exact compareBy_sequence_descending a b
  | some ranking =>
    show compareBy ranking.reverse.keys a b = (compareBy ranking.keys a b).swap
    rw [ranking.keys_reverse]
    exact compareBy_map_turn (h ranking rfl) a b

/-- A ranking without keys has none when it is reversed. -/
theorem keys_modify_reverse {q : Query R φ} (h : ¬ q.Turnable) :
    (q.modify { reverse := true }).keys = q.keys := by
  obtain ⟨ranking, hranking, hkeys⟩ : ∃ ranking, q.ranking = some ranking ∧ ranking.keys = [] := by
    simpa [Turnable] using h
  obtain ⟨filter, _, skip, take, options⟩ := q
  obtain rfl := hranking
  show ranking.reverse.keys = ranking.keys
  rw [ranking.keys_reverse, hkeys, List.map_nil]

end Query

/-! ### Reversed reads -/

namespace Tables

variable {R : Type} {φ : Facet} {t : Tables}

theorem Sequenced.distinguished (h : t.Sequenced) (φ : Facet) : Distinguished (t.records φ) := by
  have hnumbers := (List.pairwise_append.1 (h φ)).1
  exact (List.pairwise_map.1 hnumbers).imp fun {a b} hlt ↦ Nat.ne_of_lt hlt

/-- A query without a page selects whatever its filter and its ranking select. -/
theorem select_eq_selectAll {registry : R} {q : Query R φ} (hskip : q.skip = none)
    (htake : q.take = none) : t.select registry q = q.selectAll registry (t.records φ) :=
  q.page_eq_self hskip htake _

/-- Records that were written in order are selected as they were written. -/
theorem Sequenced.select_eq_filter_of_pairwise (h : t.Sequenced) {registry : R} {q : Query R φ}
    (hskip : q.skip = none) (htake : q.take = none)
    (hsorted : ((t.records φ).filter (q.filter.holds registry)).Pairwise
      fun a b ↦ (compareBy q.keys a b).isLE) :
    t.select registry q = (t.records φ).filter (q.filter.holds registry) :=
  (select_eq_selectAll hskip htake).trans
    (select_eq_of_perm (h.distinguished φ) (.refl _) hsorted)

/-- Without keys, records come in the order of writing. -/
theorem Sequenced.select_eq_filter (h : t.Sequenced) {registry : R} {q : Query R φ}
    (hskip : q.skip = none) (htake : q.take = none) (hkeys : q.keys = []) :
    t.select registry q = (t.records φ).filter (q.filter.holds registry) := by
  refine h.select_eq_filter_of_pairwise hskip htake ?_
  rw [hkeys]
  have hnumbers := List.pairwise_map.1 (List.pairwise_append.1 (h φ)).1
  refine (hnumbers.sublist List.filter_sublist).imp fun {a b} hlt ↦ ?_
  show (compare (Facet.sequence a) (Facet.sequence b)).isLE
  rw [Nat.compare_eq_lt.2 hlt]
  rfl

open Classical in
/-- **Reversal.** On every store that commits can reach, and for every facet, filter and ranking, a
query without a page that is modified to be reversed selects exactly the same records backwards;
unless its ranking has no key at all, when it selects them in the same order as before. -/
theorem select_modify_reverse (h : Reachable t) (registry : R) {q : Query R φ}
    (hskip : q.skip = none) (htake : q.take = none) :
    t.select registry (q.modify { reverse := true }) =
      if q.Turnable then (t.select registry q).reverse else t.select registry q := by
  have hskip' : (q.modify { reverse := true }).skip = none := hskip
  have htake' : (q.modify { reverse := true }).take = none := htake
  rw [select_eq_selectAll hskip' htake', select_eq_selectAll hskip htake, Query.selectAll,
    Query.selectAll]
  split
  case isTrue hturnable =>
    exact select_eq_reverse (h.sequenced.distinguished φ)
      (Query.compareBy_modify_reverse hturnable)
  case isFalse hkeyless =>
    rw [Query.keys_modify_reverse hkeyless]
    rfl

section HandedOver

open Inventory

/-- All messages, by entity, and those of each entity from the latest version on. -/
def latestFirst : Query Registry (.entity .message) where
  filter := .all []
  ranking := some (.combine [.by .entityId true, .combine [.by .entityVersion false]])

theorem select_modify_reverse_latestFirst :
    Reachable handedOver ∧ latestFirst.Turnable ∧
      handedOver.select {} (latestFirst.modify { reverse := true }) =
        (handedOver.select {} latestFirst).reverse := by
  have hturnable : latestFirst.Turnable := fun ranking hranking ↦ by
    obtain rfl := Option.some.inj hranking
    nofun
  have hreversed := select_modify_reverse reachable_handedOver {} (q := latestFirst) rfl rfl
  rw [if_pos hturnable] at hreversed
  exact ⟨reachable_handedOver, hturnable, hreversed⟩

/-- All messages, ranked by nothing. -/
def unranked : Query Registry (.entity .message) where
  filter := .all []
  ranking := some (.combine [])

/-- Ranked by nothing, the three messages come in the order of writing, and do so again in reverse.
-/
theorem select_unranked_ne_reverse :
    Reachable handedOver ∧ unranked.skip = none ∧ unranked.take = none ∧
      handedOver.select {} (unranked.modify { reverse := true }) ≠
        (handedOver.select {} unranked).reverse := by
  have hs := reachable_handedOver.sequenced
  refine ⟨reachable_handedOver, rfl, rfl, fun hreverse ↦ ?_⟩
  have hall : handedOver.select {} unranked = handedOver.messages := by
    rw [hs.select_eq_filter rfl rfl rfl]
    exact List.filter_true _
  have hagain : handedOver.select {} (unranked.modify { reverse := true }) =
      handedOver.messages := by
    rw [hs.select_eq_filter rfl rfl rfl]
    exact List.filter_true _
  rw [hall, hagain] at hreverse
  have hnumbers : handedOver.messages.map (·.sequence) ≠
      handedOver.messages.reverse.map (·.sequence) := by
    decide +kernel
  exact hnumbers (congrArg _ hreverse)

end HandedOver

end Tables

end Chronicle
