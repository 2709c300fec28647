import Chronicle.Proofs.Store.Log
import Chronicle.Query.Standard
import Chronicle.Store.Read

/-!
# Replaying a log

A replay reads the deltas of an entity after one version and up to another. From a gapless log it
gets a segment (`select_deltas`): what is left of the log up to the one version without the log up
to the other. Each delta leads to the next version, so that the version which a replay ends at can
be told from where it starts (`toNat_version_replay`).
-/

namespace Chronicle

namespace List

/-- What of a list in numerical order lies above one number and up to another is a segment. -/
theorem filter_eq_drop_take {α : Type} (f : α → Nat) (xs : List α) (start after upTo : Nat)
    (h : xs.map f = List.range' (start + 1) xs.length) :
    (xs.filter fun x ↦ after < f x && f x ≤ upTo) =
      (xs.take (upTo - start)).drop (after - start) := by
  induction xs generalizing start with
  | nil => simp
  | cons x xs ih =>
    rw [List.map_cons, List.length_cons, List.range'_succ, List.cons.injEq] at h
    obtain ⟨hx, hxs⟩ := h
    have hrest := ih (start + 1) hxs
    by_cases hupTo : upTo ≤ start
    -- Nothing from here on is within the bound.
    · have hout : ¬ f x ≤ upTo := by omega
      have hnone : upTo - start = 0 := by omega
      have hrestNone : upTo - (start + 1) = 0 := by omega
      simpa [hout, hnone, hrestNone] using hrest
    · obtain ⟨k, hk⟩ : ∃ k, upTo - start = k + 1 := ⟨upTo - start - 1, by omega⟩
      have hk' : upTo - (start + 1) = k := by omega
      rw [hk, List.take_succ_cons]
      rw [hk'] at hrest
      by_cases hafter : after ≤ start
      · have hin : after < f x ∧ f x ≤ upTo := by omega
        have hzero : after - start = 0 := by omega
        have hzero' : after - (start + 1) = 0 := by omega
        rw [hzero'] at hrest
        simpa [hin, hzero] using hrest
      · have hout : ¬ after < f x := by omega
        obtain ⟨j, hj⟩ : ∃ j, after - start = j + 1 := ⟨after - start - 1, by omega⟩
        have hj' : after - (start + 1) = j := by omega
        rw [hj'] at hrest
        simpa [hout, hj] using hrest

end List

/-! ### Versions of states -/

namespace Entity

variable {E D : Type} [Entity E D] [LawfulEntity E]

theorem entityId_replay (e : E) (deltas : List D) : entityId (replay e deltas) = entityId e := by
  induction deltas generalizing e with
  | nil => rfl
  | cons d ds ih => exact (ih (reduce e d)).trans (LawfulEntity.entityId_reduce e d)

/-- Every delta leads to the next version. -/
theorem toNat_version_replay (e : E) (deltas : List D) :
    (version (replay e deltas)).toNat = ((version e).toNat + deltas.length) % 2 ^ 64 := by
  induction deltas generalizing e with
  | nil => exact (Nat.mod_eq_of_lt (version e).toNat_lt).symm
  | cons d ds ih =>
    rw [replay, List.foldl_cons, ← replay, ih, LawfulEntity.version_reduce, Version.toNat_next,
      List.length_cons]
    omega

end Entity

namespace Tables

variable {R : Type} {t : Tables} {entityId : Identifier}

/-! ### The deltas that are read -/

/-- The last version that a replay may read: the one it is bounded by, or else the last that is
committed. -/
def readTo (t : Tables) (entityId : Identifier) (upTo : Option Version) : Nat :=
  (upTo.map Version.toNat).getD (t.committed entityId)

theorem holds_deltas (registry : R) (after : Version) (upTo : Option Version)
    (record : EntityRecord Envelope) :
    (Query.deltas entityId after upTo).filter.holds registry record =
      (record.entityId = entityId && (after.next ≤ record.entityVersion &&
        upTo.all (record.entityVersion ≤ ·))) := by
  cases upTo with
  | none => simp [Query.deltas, Filter.holds, Filter.allHold, Test.holds]
  | some v => simp [Query.deltas, Filter.holds, Filter.allHold, Test.holds]

/-- The records that pass, in the order of writing, are a segment of a gapless log. -/
theorem filter_deltas (hg : t.Gapless entityId) (registry : R) {after : Version}
    (hafter : after.toNat + 1 < 2 ^ 64) (upTo : Option Version) :
    (t.messages.filter fun record ↦
        (Query.deltas entityId after upTo).filter.holds registry record) =
      ((t.log entityId).take (t.readTo entityId upTo)).drop after.toNat := by
  have hsegment := List.filter_eq_drop_take (fun r : EntityRecord Envelope ↦ r.entityVersion.toNat)
    (t.log entityId) 0 after.toNat (t.readTo entityId upTo) hg
  rw [Nat.sub_zero, Nat.sub_zero] at hsegment
  rw [← hsegment, log, List.filter_filter]
  refine List.filter_congr fun record hrecord ↦ ?_
  rw [holds_deltas, Bool.eq_iff_iff]
  by_cases hid : record.entityId = entityId
  · have hlog : record ∈ t.log entityId := List.mem_filter.2 ⟨hrecord, by simpa using hid⟩
    have hle : record.entityVersion.toNat ≤ t.committed entityId :=
      (hg.mem_iff.1 (List.mem_map.2 ⟨record, hlog, rfl⟩)).2
    have hne : after ≠ .last := by
      rintro rfl
      exact absurd hafter (by decide)
    have hafter : after.next ≤ record.entityVersion ↔ after.toNat < record.entityVersion.toNat :=
      Version.next_le_iff.trans (or_iff_right hne)
    cases upTo with
    | none => simp [readTo, hid, hle, hafter]
    | some v => simp [readTo, hid, hafter, ← Version.le_iff]
  · simp [hid]

/-- The deltas of an entity after a version are a segment of a gapless log. They are in the order
of versions already, and so the ranking leaves them as they are. -/
theorem select_deltas (hg : t.Gapless entityId) (registry : R) {after : Version}
    (hafter : after.toNat + 1 < 2 ^ 64) (upTo : Option Version) :
    t.select registry (Query.deltas entityId after upTo) =
      ((t.log entityId).take (t.readTo entityId upTo)).drop after.toNat := by
  have hsorted : (t.log entityId).Pairwise fun a b ↦
      a.entityVersion.toNat < b.entityVersion.toNat := by
    have := List.pairwise_lt_range' (s := 1) (n := t.committed entityId)
    rwa [← hg, List.pairwise_map] at this
  have hsegment := hsorted.sublist
    ((List.drop_sublist after.toNat _).trans (List.take_sublist (t.readTo entityId upTo) _))
  -- The query has no page, so that selecting is filtering and sorting.
  show List.drop 0 (List.mergeSort (List.filter _ t.messages) _) = _
  rw [List.drop_zero, filter_deltas hg registry hafter upTo]
  refine List.mergeSort_of_pairwise (hsegment.imp fun {a b} hlt ↦ ?_)
  have hcompare : compare a.entityVersion.value.toNat b.entityVersion.value.toNat = .lt :=
    Nat.compare_eq_lt.2 hlt
  show (Ordering.then (compare a.entityVersion.value.toNat b.entityVersion.value.toNat) _).isLE
  rw [hcompare]
  rfl

/-! ### The version that is reached -/

variable {E D : Type} [Entity E D] [LawfulEntity E] [Payload D] [Resolves R D]

/-- A replay ends at the last version that it may read, unless it starts beyond. -/
theorem toNat_version_replay {start : E} (hg : t.Gapless (Entity.entityId start)) (registry : R)
    (hstart : (Entity.version start).toNat + 1 < 2 ^ 64) {upTo : Option Version} {deltas : List D}
    (h : (t.deltas D registry
      (Query.deltas (Entity.entityId start) (Entity.version start) upTo)).outcome = .ok deltas) :
    (Entity.version (Entity.replay start deltas)).toNat =
      max (Entity.version start).toNat
        (min (t.readTo (Entity.entityId start) upTo) (t.committed (Entity.entityId start))) := by
  have hlength : deltas.length =
      min (t.readTo (Entity.entityId start) upTo) (t.committed (Entity.entityId start)) -
        (Entity.version start).toNat := by
    rw [Tables.deltas, Attempt.outcome_mapM, select_deltas hg registry hstart] at h
    have := (Except.mapM_eq_ok_iff.1 h).length_eq
    rw [← this, List.length_drop, List.length_take]
    rfl
  have hcommitted := hg.committed_lt
  rw [Entity.toNat_version_replay, hlength]
  omega

end Tables

end Chronicle
