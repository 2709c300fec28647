import Chronicle.Proofs.Query.Reversal
import Mathlib.Data.List.Induction

/-!
# Reading identifiers

Identifiers are read off the records that a query selects, each once and where it is first met. So
what a query without a page returns is named in some record that passes
(`Tables.mem_selectSourceIds`, `Tables.mem_selectEntityIds`), and records that are grouped by an
identifier return it once for each group (`distinct_flatMap`).
-/

namespace Chronicle

/-! ### First occurrences -/

theorem distinct_concat (ids : List Identifier) (id : Identifier) :
    distinct (ids ++ [id]) =
      if (distinct ids).contains id then distinct ids else distinct ids ++ [id] :=
  List.foldl_concat ..

theorem distinct_eq_eraseDups (ids : List Identifier) : distinct ids = ids.eraseDups := by
  induction ids using List.reverseRecOn with
  | nil => rfl
  | append_singleton ids id ih =>
    rw [distinct_concat, ih, List.eraseDups_append]
    by_cases hmem : id ∈ ids <;> simp [hmem, List.removeAll, List.eraseDups_cons]

/-- The same identifier over and over is met once, unless there is none. -/
theorem eraseDups_of_forall_eq {id : Identifier} {ids : List Identifier}
    (h : ∀ other ∈ ids, other = id) : ids.eraseDups = if ids.isEmpty then [] else [id] := by
  rcases ids with _ | ⟨first, rest⟩
  · rfl
  · have hrest : rest.filter (!· == first) = [] := by
      refine List.filter_eq_nil_iff.2 fun other hother ↦ ?_
      simp [h other (List.mem_cons_of_mem _ hother), h first (List.mem_cons_self ..)]
    rw [List.eraseDups_cons, hrest, h first (List.mem_cons_self ..)]
    rfl

/-- Grouped by an identifier of their own, what is not empty is met once for each group. -/
theorem distinct_flatMap {α : Type} {items : List α} {ids : α → List Identifier}
    {own : α → Identifier} (hids : ∀ a ∈ items, ∀ id ∈ ids a, id = own a)
    (hown : (items.map own).Nodup) :
    distinct (items.flatMap ids) = (items.filter fun a ↦ !(ids a).isEmpty).map own := by
  rw [distinct_eq_eraseDups]
  induction items with
  | nil => rfl
  | cons a items ih =>
    rw [List.forall_mem_cons] at hids
    rw [List.map_cons, List.nodup_cons] at hown
    have hothers : (items.flatMap ids).removeAll (ids a) = items.flatMap ids := by
      refine List.filter_eq_self.2 fun id hid ↦ ?_
      obtain ⟨b, hb, hmem⟩ := List.mem_flatMap.1 hid
      have hne : id ∉ ids a := fun hmem' ↦ hown.1
        (List.mem_map.2 ⟨b, hb, (hids.2 b hb id hmem).symm.trans (hids.1 id hmem')⟩)
      simpa using hne
    rw [List.flatMap_cons, List.eraseDups_append, hothers, ih hids.2 hown.2,
      eraseDups_of_forall_eq hids.1, List.filter_cons]
    cases (ids a).isEmpty <;> rfl

theorem distinct_of_nodup {ids : List Identifier} (h : ids.Nodup) : distinct ids = ids := by
  have hgrouped : distinct (ids.flatMap fun id ↦ [id]) = (ids.filter fun _ ↦ true).map id :=
    distinct_flatMap (fun _ _ _ hother ↦ List.mem_singleton.1 hother) (by simpa using h)
  simpa using hgrouped

/-! ### What is read -/

namespace Tables

variable {R : Type} {φ : Facet} {t : Tables} {registry : R} {q : Query R φ} {id : Identifier}

theorem mem_selectAll {record : φ.Record} : record ∈ q.selectAll registry (t.records φ) ↔
    record ∈ t.records φ ∧ q.filter.holds registry record :=
  select_perm.mem_iff.trans List.mem_filter

section Unpaged

variable (hskip : q.skip = none) (htake : q.take = none)

include hskip htake

/-- Without a page, all sources of what is selected are read, each where it is first met. -/
theorem selectSourceIds_eq_distinct : t.selectSourceIds registry q =
    distinct ((t.select registry q).map Facet.sourceId) := by
  rw [selectSourceIds, q.page_eq_self hskip htake, select_eq_selectAll hskip htake]

/-- And so are the entities. -/
theorem selectEntityIds_eq_distinct : t.selectEntityIds registry q =
    distinct ((t.select registry q).flatMap Facet.entityIds) := by
  rw [selectEntityIds, q.page_eq_self hskip htake, select_eq_selectAll hskip htake]

theorem mem_selectSourceIds : id ∈ t.selectSourceIds registry q ↔
    ∃ record ∈ t.records φ, q.filter.holds registry record ∧ Facet.sourceId record = id := by
  rw [selectSourceIds_eq_distinct hskip htake, mem_distinct, List.mem_map]
  simp only [select_eq_selectAll hskip htake, mem_selectAll, and_assoc]

theorem mem_selectEntityIds : id ∈ t.selectEntityIds registry q ↔
    ∃ record ∈ t.records φ, q.filter.holds registry record ∧ id ∈ Facet.entityIds record := by
  rw [selectEntityIds_eq_distinct hskip htake, mem_distinct, List.mem_flatMap]
  simp only [select_eq_selectAll hskip htake, mem_selectAll, and_assoc]

end Unpaged

/-- No source is selected twice. -/
theorem nodup_map_sourceId (h : Reachable t) (registry : R) (q : Query R .source) :
    ((q.selectAll registry t.sources).map (·.sourceId)).Nodup :=
  (select_perm.map _).nodup_iff.2 (h.sound.nodup_sourceIds.sublist (List.filter_sublist.map _))

end Tables

end Chronicle
