import Chronicle.Proofs.Store.Safety
import Chronicle.Proofs.Versions
import Mathlib.Data.List.Range

/-!
# The log of an entity

The records of an entity's messages are its log. A log without gaps (`Gapless`) holds the versions
from one on, each once and in order. The store itself does not keep logs gapless: it accepts a
message that follows a version which was never committed. What it does ensure is that no message
follows a version that another one has followed (`claims_of_check`), and that messages which
continue a gapless log leave it gapless (`Gapless.write`).
-/

namespace Chronicle

/-! ### Followed versions -/

/-- The versions of an entity that some changes follow, in order. -/
def claimsOf {D : Type} (entityId : Identifier) (cs : List (Change D)) : List Nat :=
  versionsOf entityId (cs.map (·.claim))

theorem claimsOf_append {D : Type} (entityId : Identifier) (cs ds : List (Change D)) :
    claimsOf entityId (cs ++ ds) = claimsOf entityId cs ++ claimsOf entityId ds := by
  rw [claimsOf, List.map_append, versionsOf_append]
  rfl

theorem length_claimsOf_le {D : Type} (entityId : Identifier) (cs : List (Change D)) :
    (claimsOf entityId cs).length ≤ cs.length := by
  rw [claimsOf, versionsOf, List.length_map]
  exact (List.length_filter_le _ _).trans (by rw [List.length_map])

/-- Changes that follow some versions lead to the successors of these. -/
theorem versionsOf_map_product {D : Type} (entityId : Identifier) (cs : List (Change D)) :
    versionsOf entityId (cs.map (·.product)) =
      (claimsOf entityId cs).map fun v ↦ (v + 1) % 2 ^ 64 := by
  induction cs with
  | nil => rfl
  | cons c cs ih =>
    rw [claimsOf, List.map_cons, List.map_cons, Change.product, Change.claim]
    by_cases hc : c.entityId = entityId
    · rw [hc, versionsOf_cons_self, versionsOf_cons_self, List.map_cons, ih, Change.entityVersion,
        Version.toNat_next]
      rfl
    · rw [versionsOf_cons_of_ne hc, versionsOf_cons_of_ne hc, ih]
      rfl

/-- The changes of a source. -/
def Source.changes {D A : Type} (s : Source D A) : List (Change D) := s.messages.map (·.toChange)

namespace Tables

/-! ### Logs -/

/-- The records of an entity's messages, in the order of writing. -/
def log (t : Tables) (entityId : Identifier) : List (EntityRecord Envelope) :=
  t.messages.filter (·.entityId = entityId)

/-- How many versions of an entity are committed. -/
def committed (t : Tables) (entityId : Identifier) : Nat := (t.log entityId).length

/-- The versions in the log of an entity are those from one on. -/
def Gapless (t : Tables) (entityId : Identifier) : Prop :=
  (t.log entityId).map (·.entityVersion.toNat) = List.range' 1 (t.committed entityId)

variable {t : Tables} {entityId : Identifier}

theorem map_log (t : Tables) (entityId : Identifier) :
    (t.log entityId).map (·.entityVersion.toNat) =
      versionsOf entityId (t.messages.map (·.product)) := by
  rw [versionsOf, List.filter_map, List.map_map]
  rfl

theorem committed_le (t : Tables) (entityId : Identifier) :
    t.committed entityId ≤ t.messages.length :=
  List.length_filter_le _ _

theorem Gapless.empty (entityId : Identifier) : Gapless .empty entityId := rfl

/-- The index of versions lists the versions in the log. -/
theorem Sound.mem_entityVersions_iff (hs : t.Sound) {v : Version} :
    (entityId, v) ∈ t.entityVersions ↔ v.toNat ∈ (t.log entityId).map (·.entityVersion.toNat) := by
  rw [hs.index, List.mem_reverse, map_log, mem_versionsOf]
  constructor
  · exact fun h ↦ ⟨v, h, rfl⟩
  · rintro ⟨w, hw, heq⟩
    rwa [Version.toNat_inj.1 heq] at hw

/-- What a gapless log holds: as many versions as are committed. -/
theorem Gapless.mem_iff (hg : t.Gapless entityId) {n : Nat} :
    n ∈ (t.log entityId).map (·.entityVersion.toNat) ↔ 1 ≤ n ∧ n ≤ t.committed entityId := by
  rw [hg, List.mem_range'_1]
  omega

/-- A gapless log ends before the versions do. -/
theorem Gapless.committed_lt (hg : t.Gapless entityId) : t.committed entityId < 2 ^ 64 := by
  by_cases hzero : t.committed entityId = 0
  · omega
  · obtain ⟨record, -, hrecord⟩ := List.mem_map.1 (hg.mem_iff.2 ⟨by omega, le_rfl⟩)
    exact hrecord ▸ record.entityVersion.toNat_lt

/-! ### Sources and logs -/

variable {s : PackedSource}

/-- A source continues each log with the versions that its messages lead to. -/
theorem map_log_write (t : Tables) (s : PackedSource) (entityId : Identifier) :
    ((t.write s).log entityId).map (·.entityVersion.toNat) =
      (t.log entityId).map (·.entityVersion.toNat) ++
        (claimsOf entityId s.changes).map fun v ↦ (v + 1) % 2 ^ 64 := by
  obtain ⟨records, hmessages, hrecords⟩ := exists_messages_write t s
  have hproducts : List.Forall₂ (· = ·) (records.map (·.product)) (s.changes.map (·.product)) := by
    rw [Source.changes, List.map_map, List.forall₂_map_left_iff, List.forall₂_map_right_iff]
    refine hrecords.flip.imp fun record m h ↦ ?_
    rw [EntityRecord.product, h.entityId, h.entityVersion]
    rfl
  rw [List.forall₂_eq_eq_eq] at hproducts
  rw [map_log, map_log, hmessages, List.map_append, versionsOf_append, hproducts,
    versionsOf_map_product]

theorem committed_write (t : Tables) (s : PackedSource) (entityId : Identifier) :
    (t.write s).committed entityId =
      t.committed entityId + (claimsOf entityId s.changes).length := by
  have h := congrArg List.length (map_log_write t s entityId)
  simpa [committed] using h

/-- Messages that continue a gapless log leave it gapless. -/
theorem Gapless.write (hg : t.Gapless entityId) {k : Nat}
    (hclaims : claimsOf entityId s.changes = List.range' (t.committed entityId) k)
    (hroom : t.committed entityId + k < 2 ^ 64) : (t.write s).Gapless entityId := by
  have hnext : (List.range' (t.committed entityId) k).map (fun v ↦ (v + 1) % 2 ^ 64) =
      List.range' (1 + t.committed entityId) k := by
    rw [← List.map_add_range']
    refine List.map_congr_left fun v hv ↦ ?_
    rw [List.mem_range'_1] at hv
    omega
  rw [Gapless, map_log_write, hg, committed_write, hclaims, hnext, List.length_range',
    List.range'_append_1]

/-! ### Acceptance -/

/-- A message leads to a free version when the one it follows has not been followed. -/
theorem Gapless.product_iff (hs : t.Sound) {m : PackedMessage} (hg : t.Gapless m.entityId) :
    (m.entityVersion ≠ .zero ∧ m.product ∉ t.entityVersions) ↔
      t.committed m.entityId ≤ m.expectedPrevious.toNat ∧
        m.expectedPrevious.toNat + 1 < 2 ^ 64 := by
  have hlt := m.expectedPrevious.toNat_lt
  have hcommitted := hg.committed_lt
  rw [Change.product, hs.mem_entityVersions_iff, hg.mem_iff, Change.entityVersion, Ne,
    Version.eq_zero_iff, Version.toNat_next]
  omega

/-- An accepted source follows no version that was followed before, nor the last one. -/
theorem claims_of_check (hs : t.Sound) (hg : t.Gapless entityId) (hcheck : t.check s = .ok ())
    {n : Nat} (hn : n ∈ claimsOf entityId s.changes) :
    t.committed entityId ≤ n ∧ n + 1 < 2 ^ 64 := by
  obtain ⟨-, hversions, -, -⟩ := (check_eq_ok_iff hs.data_nodup s).1 hcheck
  rw [claimsOf, Source.changes, List.map_map, mem_versionsOf] at hn
  obtain ⟨v, hv, rfl⟩ := hn
  obtain ⟨m, hm, hclaim⟩ := List.mem_map.1 hv
  obtain ⟨rfl, rfl⟩ := Prod.mk.inj hclaim
  exact (hg.product_iff hs).1 (hversions m hm)

/-- A new source whose messages continue gapless logs is accepted if its leases fit. -/
theorem check_of_claims (hs : t.Sound) (hg : ∀ X, t.Gapless X) (hid : s.id ∉ t.sourceIds)
    (hclaims : ∀ X, claimsOf X s.changes =
      List.range' (t.committed X) (claimsOf X s.changes).length)
    (hroom : ∀ X, t.committed X + (claimsOf X s.changes).length < 2 ^ 64)
    (hfits : Fits t.holdings s.changes) : t.check s = .ok () := by
  refine (check_eq_ok_iff hs.data_nodup s).2 ⟨hid, fun m hm ↦ ?_, ?_, hfits⟩
  · refine ((hg m.entityId).product_iff hs).2 ?_
    have hmem : m.expectedPrevious.toNat ∈ claimsOf m.entityId s.changes := by
      rw [claimsOf, Source.changes, List.map_map, mem_versionsOf]
      exact ⟨_, List.mem_map.2 ⟨m, hm, rfl⟩, rfl⟩
    rw [hclaims, List.mem_range'_1] at hmem
    have := hroom m.entityId
    omega
  -- Versions in a row are distinct, for each entity and so altogether.
  · have hnodup : (s.changes.map (·.claim)).Nodup := nodup_of_nodup_versionsOf fun X ↦ by
      show (claimsOf X s.changes).Nodup
      rw [hclaims]
      exact List.nodup_range'
    rwa [Source.changes, List.map_map] at hnodup

end Tables

end Chronicle
