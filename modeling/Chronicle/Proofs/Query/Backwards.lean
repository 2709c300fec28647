import Chronicle.Proofs.Query.Identifiers
import Mathlib.Data.List.Dedup

/-!
# Reading identifiers backwards

A read of identifiers returns each of them where it is first met. A query that is reversed meets the
same records from the other end (`selectAll_modify_reverse`), and so returns each identifier where
it was last met before (`distinct_reverse`). The identifiers are the same; but their order is the
opposite of that of their last occurrences, and what the query returned without being reversed is in
the order of their first.

The two orders agree if the records of an identifier stand together (`Together.dedup_eq`), as they
do when no two share one or when the ranking goes by the identifier first. If another identifier
comes between, reading backwards need not turn the list around: with records of one entity on both
sides of those of another, the one that is first from the front is first from the back
(`selectEntityIds_framed_ne_reverse`).
-/

namespace Chronicle

/-! ### Last occurrences -/

section Distinct

variable {ids : List Identifier}

/-- Met from the other end, identifiers come in the opposite order of their last occurrences. -/
theorem distinct_reverse (ids : List Identifier) : distinct ids.reverse = ids.dedup.reverse := by
  induction ids with
  | nil => rfl
  | cons id ids ih =>
    rw [List.reverse_cons, distinct_concat, ih]
    by_cases hmem : id ∈ ids
    · simp [hmem, List.dedup_cons_of_mem]
    · simp [hmem, List.dedup_cons_of_notMem]

theorem nodup_distinct (ids : List Identifier) : (distinct ids).Nodup := by
  rw [← ids.reverse_reverse, distinct_reverse, List.nodup_reverse]
  exact List.nodup_dedup _

theorem head?_distinct (ids : List Identifier) : (distinct ids).head? = ids.head? := by
  rw [distinct_eq_eraseDups]
  cases ids with
  | nil => rfl
  | cons id ids => rw [List.eraseDups_cons, List.head?_cons, List.head?_cons]

/-- Identifiers stand together if none of them comes back after another one. -/
def Together (ids : List Identifier) : Prop :=
  ∀ id other, [id, other, id].Sublist ids → id = other

/-- Where identifiers stand together, the last occurrences are in the order of the first. -/
theorem Together.dedup_eq (h : Together ids) : ids.dedup = distinct ids := by
  rw [distinct_eq_eraseDups]
  induction ids with
  | nil => rfl
  | cons id ids ih =>
    have hrest := ih fun a b hsub ↦ h a b (hsub.cons id)
    by_cases hmem : id ∈ ids
    · -- It comes again, and then at once.
      obtain ⟨next, ids, rfl⟩ := List.exists_cons_of_ne_nil (List.ne_nil_of_mem hmem)
      obtain rfl : id = next := by
        rcases List.mem_cons.1 hmem with heq | hlater
        · exact heq
        · exact h id next (((List.singleton_sublist.2 hlater).cons_cons next).cons_cons id)
      rw [List.dedup_cons_of_mem hmem, hrest, List.eraseDups_cons, List.eraseDups_cons]
      simp
    · have hothers : ids.filter (!· == id) = ids := by
        refine List.filter_eq_self.2 fun other hother ↦ ?_
        simpa using fun heq : other = id ↦ hmem (heq ▸ hother)
      rw [List.dedup_cons_of_notMem hmem, hrest, List.eraseDups_cons, hothers]

theorem Together.of_nodup (h : ids.Nodup) : Together ids := fun id other hsub ↦ by
  have hnodup := h.sublist hsub
  simp at hnodup

/-- Identifiers in order, in either direction, stand together. -/
theorem Together.of_pairwise (ascending : Bool)
    (h : ids.Pairwise fun a b ↦ (inDirection ascending (compare a b)).isLE) : Together ids := by
  intro id other hsub
  have horder := transCmp_inDirection ascending (compare : Identifier → Identifier → Ordering)
  have hpairs := h.sublist hsub
  simp only [List.pairwise_cons, List.mem_cons, List.not_mem_nil, or_false, forall_eq_or_imp,
    forall_eq] at hpairs
  obtain ⟨⟨hle, -⟩, hge, -⟩ := hpairs
  have heq : inDirection ascending (compare id other) = .eq :=
    @Std.OrientedCmp.isLE_antisymm _ _ horder.toOrientedCmp _ _ hle hge
  exact Std.LawfulEqCmp.eq_of_compare (inDirection_eq_eq_iff.1 heq)

end Distinct

/-! ### Selections read backwards -/

section Ranked

variable {R : Type} {φ : Facet} {registry : R} {filter : Filter R φ} {keys : List (Directed φ)}
  {records : List φ.Record}

/-- A selection that goes by an identifier first has the records of each stand together. -/
theorem together_map_select {key : Key φ} {ascending : Bool} {id : φ.Record → Identifier}
    (hkey : ∀ a b, key.compare a b = compare (id a) (id b))
    (hfirst : keys.head? = some ⟨key, ascending⟩) :
    Together ((select registry filter keys records).map id) := by
  obtain ⟨rest, rfl⟩ := List.head?_eq_some_iff.1 hfirst
  refine .of_pairwise ascending (List.pairwise_map.2 (pairwise_select.imp fun {a b} hle ↦ ?_))
  have hboth := (Ordering.isLE_then_iff_and.1 hle).1
  rwa [Directed.compare, hkey] at hboth

end Ranked

/-- What a read of identifiers (`forward`) comes to from the other end, when as many of them are
taken as is given (`backward`). What the records name, one after the other as the first read meets
them, is `met`, but with those that one record names the other way round. -/
structure ReadBackwards (forward met : List Identifier)
    (backward : Option Nat → List Identifier) : Prop where
  /-- Each comes where it is last met. -/
  order : backward none = met.dedup.reverse
  /-- They are the same. -/
  perm : (backward none).Perm forward
  /-- If one is taken, it is the one that is met last. -/
  last : backward (some 1) = met.getLast?.toList
  /-- Those that stand together come in the opposite order. -/
  exact : Together met → forward = distinct met → backward none = forward.reverse

theorem ReadBackwards.of_paginate {forward met : List Identifier}
    {backward : Option Nat → List Identifier} (hsame : ∀ id, id ∈ met ↔ id ∈ forward)
    (hforward : forward.Nodup)
    (hbackward : ∀ take, backward take = paginate none take (distinct met.reverse)) :
    ReadBackwards forward met backward := by
  have horder : backward none = met.dedup.reverse := by
    rw [hbackward, ← distinct_reverse]
    exact List.drop_zero
  constructor
  case order => exact horder
  case perm =>
    rw [horder]
    refine (List.reverse_perm _).trans
      ((List.perm_ext_iff_of_nodup (List.nodup_dedup met) hforward).2 fun id ↦ ?_)
    rw [List.mem_dedup, hsame]
  case last =>
    have hfirst : backward (some 1) = (distinct met.reverse).take 1 := by
      rw [hbackward]
      exact congrArg (List.take 1) List.drop_zero
    rw [hfirst, List.take_one, head?_distinct, List.head?_reverse]
  case exact =>
    intro htogether heq
    rw [horder, htogether.dedup_eq, heq]

namespace Tables

variable {R : Type} {φ : Facet} {t : Tables} {registry : R} {q : Query R φ}

/-- A reversed query meets the records from the other end. -/
theorem selectAll_modify_reverse (h : Reachable t) (hturnable : q.Turnable) (take : Option Nat) :
    (q.modify { reverse := true, take }).selectAll registry (t.records φ) =
      (q.selectAll registry (t.records φ)).reverse :=
  select_eq_reverse (h.sequenced.distinguished φ) (Query.compareBy_modify_reverse hturnable)

section Unpaged

variable (hskip : q.skip = none) (htake : q.take = none)

include hskip htake

theorem page_modify_reverse (take : Option Nat) (ids : List Identifier) :
    (q.modify { reverse := true, take }).page ids = paginate none take ids := by
  simp [Query.page, Query.modify, hskip, htake]

theorem selectSourceIds_readBackwards (h : Reachable t) (registry : R) (hturnable : q.Turnable) :
    ReadBackwards (t.selectSourceIds registry q) ((t.select registry q).map Facet.sourceId)
      fun take ↦ t.selectSourceIds registry (q.modify { reverse := true, take }) := by
  refine .of_paginate (fun id ↦ ?_) ?_ fun take ↦ ?_
  · rw [selectSourceIds_eq_distinct hskip htake, mem_distinct]
  · rw [selectSourceIds_eq_distinct hskip htake]
    exact nodup_distinct _
  · rw [selectSourceIds, page_modify_reverse hskip htake, selectAll_modify_reverse h hturnable,
      select_eq_selectAll hskip htake, List.map_reverse]

theorem selectEntityIds_readBackwards (h : Reachable t) (registry : R) (hturnable : q.Turnable) :
    ReadBackwards (t.selectEntityIds registry q)
      ((t.select registry q).flatMap fun record ↦ (Facet.entityIds record).reverse)
      fun take ↦ t.selectEntityIds registry (q.modify { reverse := true, take }) := by
  refine .of_paginate (fun id ↦ ?_) ?_ fun take ↦ ?_
  · rw [selectEntityIds_eq_distinct hskip htake, mem_distinct]
    simp only [List.mem_flatMap, List.mem_reverse]
  · rw [selectEntityIds_eq_distinct hskip htake]
    exact nodup_distinct _
  · rw [selectEntityIds, page_modify_reverse hskip htake, selectAll_modify_reverse h hturnable,
      select_eq_selectAll hskip htake, List.flatMap_reverse]
    rfl

end Unpaged

/-- A query that has a first key has a key. -/
theorem turnable_of_head? {d : Directed φ} (hfirst : q.keys.head? = some d) : q.Turnable := by
  rintro ranking hranking hkeys
  rw [Query.keys, hranking] at hfirst
  simp [hkeys] at hfirst

/-- **Reversed identifiers.** On every store that commits can reach, a query without a page whose
ranking is absent or has a key returns, when it is reversed, the sources in the opposite order of
where they are last met, and the entities too, where those of one record keep their order; and the
one that is met last, if one is taken. These are the identifiers that it returns otherwise. They
come in exactly the opposite order if they are the sources of sources, and if the ranking goes by
them first. -/
theorem ids_read_backwards (h : Reachable t) (registry : R) :
    (∀ {φ : Facet} (q : Query R φ), q.skip = none → q.take = none → q.Turnable →
      ReadBackwards (t.selectSourceIds registry q) ((t.select registry q).map Facet.sourceId)
        (fun take ↦ t.selectSourceIds registry (q.modify { reverse := true, take })) ∧
      ReadBackwards (t.selectEntityIds registry q)
        ((t.select registry q).flatMap fun record ↦ (Facet.entityIds record).reverse)
        (fun take ↦ t.selectEntityIds registry (q.modify { reverse := true, take }))) ∧
    (∀ q : Query R .source, q.skip = none → q.take = none → q.Turnable →
      t.selectSourceIds registry (q.modify { reverse := true }) =
        (t.selectSourceIds registry q).reverse) ∧
    (∀ {φ : Facet} (q : Query R φ) (ascending : Bool), q.skip = none → q.take = none →
      q.keys.head? = some ⟨.sourceId, ascending⟩ →
      t.selectSourceIds registry (q.modify { reverse := true }) =
        (t.selectSourceIds registry q).reverse) ∧
    ∀ {kind : Kind} (q : Query R (.entity kind)) (ascending : Bool), q.skip = none →
      q.take = none → q.keys.head? = some ⟨.entityId, ascending⟩ →
      t.selectEntityIds registry (q.modify { reverse := true }) =
        (t.selectEntityIds registry q).reverse := by
  refine ⟨fun q hskip htake hturnable ↦
    ⟨selectSourceIds_readBackwards hskip htake h registry hturnable,
      selectEntityIds_readBackwards hskip htake h registry hturnable⟩,
    fun q hskip htake hturnable ↦ ?_, fun {φ} q ascending hskip htake hfirst ↦ ?_,
    fun {kind} q ascending hskip htake hfirst ↦ ?_⟩
  · have hread := selectSourceIds_readBackwards hskip htake h registry hturnable
    refine hread.exact (.of_nodup ?_) (selectSourceIds_eq_distinct hskip htake)
    rw [select_eq_selectAll hskip htake]
    exact nodup_map_sourceId h registry q
  · have hread := selectSourceIds_readBackwards hskip htake h registry (turnable_of_head? hfirst)
    refine hread.exact ?_ (selectSourceIds_eq_distinct hskip htake)
    rw [select_eq_selectAll hskip htake]
    refine together_map_select (fun a b ↦ ?_) hfirst
    cases φ <;> rfl
  · have hread := selectEntityIds_readBackwards hskip htake h registry (turnable_of_head? hfirst)
    -- A record of an entity names it alone, either way round.
    have hmet : ((t.select registry q).flatMap fun record ↦ (Facet.entityIds record).reverse) =
        (t.select registry q).map (·.entityId) := List.flatMap_pure_eq_map _ _
    rw [hmet] at hread
    refine hread.exact ?_ ((selectEntityIds_eq_distinct hskip htake).trans ?_)
    · rw [select_eq_selectAll hskip htake]
      exact together_map_select (fun _ _ ↦ rfl) hfirst
    · exact congrArg distinct (List.flatMap_pure_eq_map _ _)

section Framed

open Inventory

/-- All messages, by entity. -/
def byEntity : Query Registry (.entity .message) where
  filter := .all []
  ranking := some (.by .entityId true)

theorem ids_read_backwards_byEntity :
    Reachable handedOver ∧ byEntity.keys.head? = some ⟨.entityId, true⟩ ∧
      handedOver.selectEntityIds {} (byEntity.modify { reverse := true }) =
        (handedOver.selectEntityIds {} byEntity).reverse ∧
      handedOver.selectEntityIds {} (byEntity.modify { reverse := true, take := some 1 }) =
        [.ofNat 8] := by
  obtain ⟨hboth, -, -, hentities⟩ := ids_read_backwards (R := Registry) reachable_handedOver {}
  have hfirst : byEntity.keys.head? = some ⟨.entityId, true⟩ := rfl
  refine ⟨reachable_handedOver, hfirst, hentities byEntity true rfl rfl hfirst, ?_⟩
  -- The messages are written in this order.
  have hselect : handedOver.select {} byEntity = handedOver.messages.filter fun _ ↦ true :=
    reachable_handedOver.sequenced.select_eq_filter_of_pairwise rfl rfl (by decide +kernel)
  have hlast := (hboth byEntity rfl rfl (turnable_of_head? hfirst)).2.last
  rw [hselect] at hlast
  exact hlast.trans (by decide +kernel)

/-- Two messages of entity 7, with one of entity 8 between. -/
def framing : Source Delta Signature where
  id := .ofNat 1
  timeStamp := default
  agentSignature := .system
  messages := [
    { id := .ofNat 11, entityId := .ofNat 7, expectedPrevious := .zero, delta := .doNothing },
    { id := .ofNat 12, entityId := .ofNat 8, expectedPrevious := .zero, delta := .doNothing },
    { id := .ofNat 13, entityId := .ofNat 7, expectedPrevious := ⟨1⟩, delta := .doNothing }]

/-- The tables after these messages. -/
def framed : Tables := (Tables.empty.attempt {} framing).2

/-- All messages, in the order of writing. -/
def asWritten : Query Registry (.entity .message) where
  filter := .all []

/-- From either end, entity 7 is met first. -/
theorem selectEntityIds_framed_ne_reverse :
    (Reachable framed ∧ asWritten.skip = none ∧ asWritten.take = none ∧ asWritten.Turnable) ∧
      framed.selectEntityIds {} (asWritten.modify { reverse := true }) ≠
        (framed.selectEntityIds {} asWritten).reverse ∧
      framed.selectEntityIds {} (asWritten.modify { reverse := true, take := some 1 }) ≠
        (framed.selectEntityIds {} asWritten).getLast?.toList := by
  have hreach : Reachable framed := .commit {} framing .empty
  have hturnable : asWritten.Turnable := nofun
  have hselect : framed.select {} asWritten = framed.messages.filter fun _ ↦ true :=
    hreach.sequenced.select_eq_filter_of_pairwise rfl rfl (by decide +kernel)
  have hforward : framed.selectEntityIds {} asWritten = [.ofNat 7, .ofNat 8] := by
    rw [selectEntityIds_eq_distinct rfl rfl, hselect]
    decide +kernel
  have hread := selectEntityIds_readBackwards rfl rfl hreach {} hturnable
  have hmet : ((framed.select {} asWritten).flatMap fun record ↦ (Facet.entityIds record).reverse) =
      [.ofNat 7, .ofNat 8, .ofNat 7] := by
    rw [hselect]
    decide +kernel
  rw [hmet] at hread
  refine ⟨⟨hreach, rfl, rfl, hturnable⟩, ?_, ?_⟩
  · rw [hforward, hread.order]
    decide
  · rw [hforward, hread.last]
    decide

end Framed

end Tables

end Chronicle
