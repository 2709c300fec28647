import Chronicle.Proofs.Query.Identifiers
import Chronicle.Proofs.Store.Replay

/-!
# Deltas after a version

Every replay reads the deltas that an entity has after a version which is known, and up to another
if one is given. On any store that commits can reach, with gaps in its logs or without, these are
read each once and from version to version (`Tables.select_deltas_newer`): no two messages of the
entity have the same version, and so the ranking leaves no ties.

The query asks for versions from the successor of the known one on. The last version has none that
is above it, and its successor is zero: after the last version the query finds not nothing, as it
should, but everything (`Tables.select_deltas_last_overruns`).
-/

namespace Chronicle

namespace Tables

variable {R : Type} {t : Tables}

/-- The deltas that a replay reads are in the order of their versions. -/
theorem pairwise_lt_select_deltas (h : Reachable t) (registry : R) (X : Identifier)
    (after : Version) (upTo : Option Version) :
    (t.select registry (Query.deltas X after upTo)).Pairwise
      fun a b ↦ a.entityVersion < b.entityVersion := by
  rw [select_eq_selectAll rfl rfl]
  have hproducts : (((Query.deltas X after upTo).selectAll registry t.messages).map
      (·.product)).Nodup :=
    (select_perm.map _).nodup_iff.2 (h.sound.nodup_products.sublist (List.filter_sublist.map _))
  refine (pairwise_select.and (List.pairwise_map.1 hproducts)).imp_of_mem
    fun {a b} ha hb hab ↦ ?_
  have hentity : ∀ {record : EntityRecord Envelope},
      record ∈ (Query.deltas X after upTo).selectAll registry t.messages →
        record.entityId = X := fun hrecord ↦ by
    have hholds := (List.mem_filter.1 (select_perm.mem_iff.1 hrecord)).2
    rw [holds_deltas, Bool.and_eq_true, decide_eq_true_eq] at hholds
    exact hholds.1
  have hle : a.entityVersion.toNat ≤ b.entityVersion.toNat :=
    Nat.isLE_compare.1 (Ordering.isLE_then_iff_and.1 hab.1).1
  have hne : a.entityVersion ≠ b.entityVersion := fun heq ↦ hab.2 (by
    rw [EntityRecord.product, EntityRecord.product, hentity ha, hentity hb, heq])
  exact Version.lt_iff.2 (lt_of_le_of_ne hle (mt Version.toNat_inj.1 hne))

/-- **Newer deltas.** On every store that commits can reach, the deltas of an entity after a version
and up to another, if one is given, are all its messages of such versions, each once, in the order
of their versions. After the last version there are none, but all are found as if it were not
there. -/
theorem select_deltas_newer (h : Reachable t) (registry : R) (X : Identifier) (after : Version)
    (upTo : Option Version) :
    (t.select registry (Query.deltas X after upTo)).Perm
        (t.messages.filter fun record ↦ record.entityId = X ∧
          (after = .last ∨ after < record.entityVersion) ∧
          ∀ v ∈ upTo, record.entityVersion ≤ v) ∧
      (t.select registry (Query.deltas X after upTo)).Pairwise
        fun a b ↦ a.entityVersion < b.entityVersion := by
  refine ⟨?_, pairwise_lt_select_deltas h registry X after upTo⟩
  rw [select_eq_selectAll rfl rfl]
  refine select_perm.trans (.of_eq (List.filter_congr fun record _ ↦ ?_))
  rw [holds_deltas, Bool.eq_iff_iff]
  simp [Version.next_le_iff, Option.all_eq_true]

section Scattered

open Inventory

/-- Three messages of entity 7, out of order and with gaps between: they lead to versions five and
two and to the last. -/
def scattering : Source Delta Signature where
  id := .ofNat 1
  timeStamp := default
  agentSignature := .system
  messages := [
    { id := .ofNat 11, entityId := .ofNat 7, expectedPrevious := ⟨4⟩, delta := .doNothing },
    { id := .ofNat 12, entityId := .ofNat 7, expectedPrevious := ⟨1⟩, delta := .doNothing },
    { id := .ofNat 13, entityId := .ofNat 7, expectedPrevious := ⟨0xfffffffffffffffe⟩,
      delta := .doNothing }]

/-- The tables after these messages. -/
def scattered : Tables := (Tables.empty.attempt {} scattering).2

theorem reachable_scattered : Reachable scattered := .commit {} scattering .empty

/-- After the first version and up to the fifth, there are the fifth and the second, in the order of
writing. -/
theorem select_deltas_newer_scattered :
    let newer := scattered.messages.filter fun record ↦ record.entityId = .ofNat 7 ∧
      ((⟨1⟩ : Version) = .last ∨ ⟨1⟩ < record.entityVersion) ∧
      ∀ v ∈ some (⟨5⟩ : Version), record.entityVersion ≤ v
    Reachable scattered ∧ newer.map (·.entityVersion) = [⟨5⟩, ⟨2⟩] ∧
      (scattered.select ({} : Registry) (Query.deltas (.ofNat 7) ⟨1⟩ (some ⟨5⟩))).Perm newer ∧
      (scattered.select ({} : Registry) (Query.deltas (.ofNat 7) ⟨1⟩ (some ⟨5⟩))).Pairwise
        fun a b ↦ a.entityVersion < b.entityVersion :=
  ⟨reachable_scattered, by decide +kernel,
    select_deltas_newer reachable_scattered ({} : Registry) (.ofNat 7) ⟨1⟩ (some ⟨5⟩)⟩

/-- After the last version, all three are found, which are not above it. -/
theorem select_deltas_last_overruns :
    Reachable scattered ∧
      (scattered.select ({} : Registry) (Query.deltas (.ofNat 7) .last none)).length = 3 ∧
      ¬ ∀ record, record ∈ scattered.select ({} : Registry) (Query.deltas (.ofNat 7) .last none) ↔
        record ∈ scattered.messages ∧ record.entityId = .ofNat 7 ∧
          Version.last < record.entityVersion := by
  have hfound : (scattered.select ({} : Registry)
      (Query.deltas (.ofNat 7) .last none)).length = 3 := by
    rw [select_eq_selectAll rfl rfl, Query.selectAll, select_perm.length_eq]
    decide +kernel
  refine ⟨reachable_scattered, hfound, fun hnewer ↦ ?_⟩
  obtain ⟨record, hrecord⟩ := List.exists_mem_of_length_pos (by rw [hfound]; decide)
  obtain ⟨-, -, hlt⟩ := (hnewer record).1 hrecord
  have hlast : Version.last.toNat = 2 ^ 64 - 1 := rfl
  have hrange := record.entityVersion.toNat_lt
  rw [Version.lt_iff] at hlt
  omega

end Scattered

end Tables

end Chronicle
