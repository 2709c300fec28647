import Chronicle.Inventory.Item
import Chronicle.Inventory.Registry
import Chronicle.Proofs.Sessions.Actions
import Chronicle.Proofs.Sessions.Shelves
import Chronicle.Proofs.Sessions.Standing
import Chronicle.Proofs.Store.Packing
import Chronicle.Proofs.Store.Replay
import Mathlib.Data.List.Infix

/-!
# Versions without gaps

The store does not verify that the version which a message follows was ever committed. That no
version is left out rests on the sessions alone, and on how they come to know an entity: whatever
they read is covered by the log (`Tables.Covers`), so that each of them stays in one of two
standings towards each entity, and an accepted source continues every log from its end. Stores and
sessions are coherent after every action of a session (`Effect.coherent`) and every other event
(`Coherent.step`), and so after every run.
-/

namespace Chronicle

variable {R E D A : Type}

/-! ### Coherent stores -/

/-- A state is not ahead of the log of its entity. -/
def Tables.Covers [Entity E D] (t : Tables) (e : E) : Prop :=
  (Entity.version e).toNat ≤ t.committed (Entity.entityId e)

theorem Tables.Covers.mono [Entity E D] {t t' : Tables} {e : E} (h : t.Covers e)
    (hle : ∀ X, t.committed X ≤ t'.committed X) : t'.Covers e :=
  Nat.le_trans h (hle _)

/-- What holds of the stores at any time: the tables are sound and without gaps, and no snapshot is
ahead of the log, whether it waits or is on a shelf. -/
structure Stores.Coherent [Snapshot E D] [Resolves R E] (registry : R) (s : Stores E) : Prop where
  sound : s.tables.Sound
  gapless : ∀ X, s.tables.Gapless X
  queue : ∀ w ∈ s.queue, s.tables.Covers w.snapshot
  shelved : s.Shelved registry s.tables.Covers

/-- Shelves may change as long as what can be read off them is covered, and snapshots may stop
waiting. -/
theorem Stores.Coherent.of_tables [Snapshot E D] [Resolves R E] {registry : R} {s s' : Stores E}
    (h : s.Coherent registry) (htables : s'.tables = s.tables) (hqueue : s'.queue ⊆ s.queue)
    (hshelved : s'.Shelved registry s.tables.Covers) : s'.Coherent registry where
  sound := htables ▸ h.sound
  gapless := htables ▸ h.gapless
  queue := htables ▸ fun w hw ↦ h.queue w (hqueue hw)
  shelved := htables ▸ hshelved

namespace Repository

variable [Snapshot E D] [LawfulEntity E] [Resolves R E] [Payload D] [Resolves R D] [Packable A]
variable {registry : R} {r : Repository E D A} {stores stores' : Stores E}

/-! ### Loading -/

omit [Payload D] [Resolves R D] [Packable A] in
theorem entityId_startingPoint (hs : stores.Coherent registry) {X : Identifier}
    {upTo : Option Version} {start : E}
    (h : (r.startingPoint registry stores X upTo).outcome = .ok start) :
    Entity.entityId start = X ∧ stores.tables.Covers start := by
  obtain rfl | ⟨session, -, hread⟩ := r.startingPoint_cases registry stores h
  · refine ⟨LawfulEntity.entityId_construct X, ?_⟩
    rw [Tables.Covers, LawfulEntity.version_construct]
    exact Nat.zero_le _
  · exact hs.shelved session.shelf X start hread

omit [Packable A] in
/-- **What a load makes known.** A state of the entity asked for that is not ahead of its log, and
newer than what is known of the entity. -/
theorem Loads.reached (hs : stores.Coherent registry) {pointer : Pointer} {e : E}
    (h : r.Loads registry stores pointer e) :
    Entity.entityId e = pointer.id ∧ stores.tables.Covers e ∧
      ∀ known, r.transaction.get? pointer.id = some known →
        (Entity.version known).toNat < (Entity.version e).toNat := by
  obtain ⟨⟨start, deltas, hstart, hdeltas, rfl⟩, hpositive, hsatisfied⟩ := h
  obtain ⟨hid, hversion⟩ := Pointer.isSatisfiedBy_iff.1 hsatisfied
  have hself : Entity.entityId start = pointer.id := by
    rw [hid]
    exact (Entity.entityId_replay start deltas).symm
  rw [Tables.Covers, Entity.entityId_replay, hself]
  refine ⟨rfl, ?_⟩
  cases hstart with
  | known hknown hunsatisfied hbehind =>
    rw [Pointer.isSatisfiedBy_iff, not_and_or, not_or] at hunsatisfied
    obtain ⟨hnonzero, hother⟩ : pointer.version ≠ .zero ∧ pointer.version ≠ Entity.version start :=
      hunsatisfied.resolve_left fun h ↦ h hself.symm
    have hbound : bound pointer = some pointer.version := by
      rw [bound, if_neg (mt Version.isZero_iff.1 hnonzero)]
    have hexact : pointer.version = Entity.version (Entity.replay start deltas) :=
      hversion.resolve_left hnonzero
    -- The state asked for is newer, so that the replay has not run past the last version.
    have hnewer : (Entity.version start).toNat < pointer.version.toNat := by
      rw [Version.lt_iff] at hbehind
      have : pointer.version.toNat ≠ (Entity.version start).toNat := mt Version.toNat_inj.1 hother
      omega
    have hlast := pointer.version.toNat_lt
    have hreached := Tables.toNat_version_replay (hs.gapless _) registry (by omega) hdeltas
    rw [hbound, ← hexact, Tables.readTo, hself] at hreached
    simp only [Option.map_some, Option.getD_some] at hreached
    rw [← hexact]
    refine ⟨by omega, fun known hget ↦ ?_⟩
    obtain rfl : start = known := Option.some.inj (hknown.symm.trans hget)
    exact hnewer
  | unknown hunknown hstart =>
    refine ⟨?_, fun known hget ↦ by cases hunknown.symm.trans hget⟩
    have hcovers := (entityId_startingPoint hs hstart).2
    rw [Tables.Covers, hself] at hcovers
    by_cases hlast : (Entity.version start).toNat + 1 < 2 ^ 64
    · have hreached := Tables.toNat_version_replay (hs.gapless _) registry hlast hdeltas
      rw [hself] at hreached
      omega
    · -- All versions there are have been committed.
      have := (Entity.version (Entity.replay start deltas)).toNat_lt
      omega

omit [Packable A] in
/-- It takes the place of an older state or was committed as it is. -/
theorem Loads.standing (hs : stores.Coherent registry) (ht : r.transaction.Coheres stores.tables)
    {pointer : Pointer} {e : E} (h : r.Loads registry stores pointer e) :
    Entity.entityId e = pointer.id ∧
      Standing (stores.tables.committed pointer.id) (Entity.version e).toNat
        (r.transaction.claims pointer.id) := by
  obtain ⟨hid, hcovers, hnewer⟩ := h.reached hs
  rw [Tables.Covers, hid] at hcovers
  refine ⟨hid, ?_⟩
  cases hget : r.transaction.get? pointer.id with
  | some known => exact (ht.standing pointer.id known hget).reload (hnewer known hget) hcovers
  | none =>
    rw [ht.unknown pointer.id hget]
    exact .of_le hcovers

/-! ### Committing -/

/-- What an accepted source does to the log of an entity: it continues the log from its end to the
version that the session knows, if it has messages of the entity at all. -/
structure Continues (r : Repository E D A) (before after : Tables) (X : Identifier) : Prop where
  claims : r.transaction.claims X =
    List.range' (before.committed X) (r.transaction.claims X).length
  committed : after.committed X = before.committed X + (r.transaction.claims X).length
  gapless : after.Gapless X
  known : ∀ e, r.transaction.get? X = some e → r.transaction.claims X ≠ [] →
    (Entity.version e).toNat = after.committed X

omit [LawfulEntity E] [Resolves R D] in
theorem continues_of_commit (hs : stores.Coherent registry)
    (ht : r.transaction.Coheres stores.tables) {tables : Tables}
    (hcommit : (stores.tables.commit r.options (r.offered stores)).outcome = .ok tables) :
    tables.Sound ∧ ∀ X, r.Continues stores.tables tables X := by
  obtain ⟨-, packed, hpack, hcheck, rfl⟩ := Tables.commit_eq_ok_iff.1 hcommit
  refine ⟨hs.sound.write hcheck, fun X ↦ ?_⟩
  have hsource : claimsOf X packed.changes = r.transaction.claims X := by
    rw [Source.claimsOf_pack hpack, changes_offered]
    rfl
  have haccepted : ∀ claim ∈ r.transaction.claims X,
      stores.tables.committed X ≤ claim ∧ claim + 1 < 2 ^ 64 := fun claim hclaim ↦
    Tables.claims_of_check hs.sound (hs.gapless X) hcheck (hsource ▸ hclaim)
  have hend := ht.exists_of_accepted haccepted
  have hcommitted := Tables.committed_write stores.tables packed X
  rw [hsource] at hcommitted
  have hclaims : r.transaction.claims X =
      List.range' (stores.tables.committed X) (r.transaction.claims X).length := by
    by_cases hne : r.transaction.claims X = []
    · rw [hne]
      rfl
    · obtain ⟨e, -, hclaims, -⟩ := hend hne
      exact hclaims
  have hroom : stores.tables.committed X + (r.transaction.claims X).length < 2 ^ 64 := by
    by_cases hne : r.transaction.claims X = []
    · rw [hne]
      exact (hs.gapless X).committed_lt
    · obtain ⟨e, -, -, hversion⟩ := hend hne
      exact hversion ▸ (Entity.version e).toNat_lt
  have hgapless := (hs.gapless X).write (hsource.trans hclaims) hroom
  refine ⟨hclaims, hcommitted, hgapless, fun f hf hne ↦ ?_⟩
  obtain ⟨e, hget, -, hversion⟩ := hend hne
  rw [hf, Option.some.injEq] at hget
  rw [hcommitted, hget, hversion]

omit [LawfulEntity E] [Payload D] [Packable A] in
/-- Once a source is accepted, the session knows the end of each log that it continued. -/
theorem Continues.coheres {tables : Tables} (ht : r.transaction.Coheres stores.tables)
    (h : ∀ X, r.Continues stores.tables tables X) : r.transaction.clear.Coheres tables where
  entityId := ht.entityId
  unknown _ _ := rfl
  standing X e he := by
    show Standing _ _ []
    -- An entity without messages in the source keeps its standing, now with nothing pending.
    by_cases hne : r.transaction.claims X = []
    · have hstanding := ht.standing X e he
      have hcommitted := (h X).committed
      rw [hne] at hstanding hcommitted
      exact hstanding.mono (by omega)
    · exact .of_le ((h X).known e he hne).le

/-! ### All actions -/

/-- Whatever a session does, the stores and its transaction stay coherent, and no log gets
shorter. -/
theorem Effect.coherent (hs : stores.Coherent registry) (ht : r.transaction.Coheres stores.tables)
    {action : Action D A} {t : Transaction E D} (h : r.Effect registry stores action t stores') :
    stores'.Coherent registry ∧ t.Coheres stores'.tables ∧
      ∀ X, stores.tables.committed X ≤ stores'.tables.committed X := by
  cases h with
  | kept _ numbering =>
    exact ⟨⟨hs.sound, hs.gapless, hs.queue, hs.shelved⟩, ht, fun X ↦ le_rfl⟩
  | constructed hnew =>
    refine ⟨hs, ht.put_unknown hnew (LawfulEntity.entityId_construct _) ?_, fun X ↦ le_rfl⟩
    rw [LawfulEntity.version_construct]
    exact Nat.zero_le _
  | loaded hloads =>
    obtain ⟨hid, hstanding⟩ := hloads.standing hs ht
    exact ⟨hs, ht.put rfl (hid ▸ hstanding), fun X ↦ le_rfl⟩
  | appended hknown delta id numbering =>
    exact ⟨⟨hs.sound, hs.gapless, hs.queue, hs.shelved⟩, ht.append hknown delta id, fun X ↦ le_rfl⟩
  | attached hchange => exact ⟨hs, ht.attach hchange, fun X ↦ le_rfl⟩
  | @committed _ tables state hcommit htakes =>
    obtain ⟨hsound, hcontinues⟩ := continues_of_commit hs ht hcommit
    obtain ⟨queued, hqueue, hqueued⟩ := htakes.queue
    have hle : ∀ X, stores.tables.committed X ≤ state.2.tables.committed X := fun X ↦ by
      rw [htakes.tables, (hcontinues X).committed]
      exact Nat.le_add_right _ _
    rw [← htakes.tables] at hsound hcontinues
    refine ⟨⟨hsound, fun X ↦ (hcontinues X).gapless, fun w hw ↦ ?_, ?_⟩, ?_, hle⟩
    · rw [hqueue, List.mem_append] at hw
      rcases hw with hw | hw
      · exact (hs.queue w hw).mono hle
      · obtain ⟨-, X, hknown, hne⟩ := hqueued w hw
        rw [Tables.Covers, ht.entityId X _ hknown]
        exact ((hcontinues X).known _ hknown hne).le
    · exact (hs.shelved.mono fun e he ↦ he.mono hle).of_shelves htakes.shelves
    · rw [htakes.transaction]
      exact Continues.coheres ht hcontinues

end Repository

/-! ### Coherent systems -/

namespace System

variable [Snapshot E D] [LawfulEntity E] [Resolves R E] [Payload D] [Resolves R D] [Packable A]
variable {registry : R}

/-- The stores are coherent, and so is the transaction of every session. -/
structure Coherent (registry : R) (s : System E D A) : Prop where
  stores : s.stores.Coherent registry
  sessions : ∀ r ∈ s.sessions, r.transaction.Coheres s.stores.tables

omit [LawfulEntity E] [Payload D] [Resolves R D] [Packable A] in
theorem Coherent.empty : Coherent registry ({} : System E D A) where
  stores :=
    { sound := Tables.Sound.empty
      gapless := Tables.Gapless.empty
      queue := fun _ hw ↦ absurd hw List.not_mem_nil
      shelved := Stores.Shelved.empty }
  sessions _ hr := absurd hr List.not_mem_nil

omit [LawfulEntity E] [Payload D] [Resolves R D] [Packable A] in
/-- What happens to shelves and to waiting snapshots is no business of the sessions. -/
theorem Coherent.of_stores {s : System E D A} (h : s.Coherent registry) {stores : Stores E}
    (htables : stores.tables = s.stores.tables) (hqueue : stores.queue ⊆ s.stores.queue)
    (hshelved : stores.Shelved registry s.stores.tables.Covers) :
    Coherent registry { s with stores } where
  stores := h.stores.of_tables htables hqueue hshelved
  sessions := htables ▸ h.sessions

/-- One event keeps a system coherent. A session that acts keeps its own transaction coherent; for
those of the others it is enough that no log gets shorter. -/
theorem Coherent.step {s : System E D A} (h : s.Coherent registry)
    (hback : ∀ w ∈ s.stores.queue, ReadsBack registry w.snapshot) (event : Event D A) :
    (s.step registry event).Coherent registry := by
  have hshelved := h.stores.shelved
  cases event with
  | openShelf => exact h.of_stores rfl (List.Subset.refl _) hshelved.openShelf
  | openSession options shelf agent =>
    refine ⟨h.stores, fun r hr ↦ ?_⟩
    rcases List.mem_append.1 hr with hr | hr
    · exact h.sessions r hr
    · rw [List.mem_singleton.1 hr]
      exact .empty _
  | act session action =>
    rw [System.step]
    cases hsession : s.sessions[session]? with
    | none => exact h
    | some r =>
      obtain ⟨hstores, htransaction, hle⟩ := (r.act_effect registry s.stores action).coherent
        h.stores (h.sessions r (List.mem_of_getElem? hsession))
      refine ⟨hstores, fun r' hr' ↦ ?_⟩
      rcases List.mem_or_eq_of_mem_set hr' with hr' | rfl
      · exact (h.sessions r' hr').mono hle
      · exact htransaction
  | writeSnapshot place =>
    rw [System.step]
    cases hplace : s.stores.queue[place]? with
    | none => exact h
    | some w =>
      have hw := List.mem_of_getElem? hplace
      have hrest : Stores.Shelved registry s.stores.tables.Covers
          { s.stores with queue := s.stores.queue.eraseIdx place } := hshelved
      refine h.of_stores (Stores.tables_runWrite registry _ w) ?_
        (hrest.runWrite (hback w hw) (h.stores.queue w hw))
      rw [Stores.queue_runWrite]
      exact List.eraseIdx_subset
  | deleteSnapshots target ids =>
    rw [System.step]
    cases hremove : (s.stores.shelf target.shelf).remove target.options ids with
    | error fault => exact h
    | ok shelf =>
      exact h.of_stores rfl (List.Subset.refl _) (hshelved.remove hremove)
  | renumber numbering => exact h.of_stores rfl (List.Subset.refl _) hshelved

/-- Every run keeps the system coherent. -/
theorem coherent_run {events : List (Event D A)} (h : Faithful E registry events) :
    (run registry events : System E D A).Coherent registry :=
  run_induction registry _ .empty (fun _ event _ hback hs ↦ hs.step hback event) h

/-- **No gaps.** However sessions interleave, and whatever comes of their commits, the messages of
an entity are written with the versions one, two, three and so on: the committed versions are those
from one to the number of messages, each once. -/
theorem versions_without_gaps {events : List (Event D A)} (h : Faithful E registry events)
    (X : Identifier) :
    let log := (run (E := E) registry events).stores.tables.log X
    (∀ (i : Nat) (record : EntityRecord Envelope), log[i]? = some record →
      record.entityVersion.toNat = i + 1) ∧
    ∀ v : Version, (∃ record ∈ log, record.entityVersion = v) ↔
      1 ≤ v.toNat ∧ v.toNat ≤ log.length := by
  have hgapless := (coherent_run h).stores.gapless X
  refine ⟨fun i record hrecord ↦ ?_, fun v ↦ ?_⟩
  · have hi : ((run (E := E) registry events).stores.tables.log X)[i]?.map
        (·.entityVersion.toNat) = some record.entityVersion.toNat := by
      rw [hrecord]
      rfl
    rw [← List.getElem?_map, hgapless, List.getElem?_eq_some_iff] at hi
    obtain ⟨hlt, hversion⟩ := hi
    rw [List.getElem_range'] at hversion
    omega
  · have hmem := hgapless.mem_iff (n := v.toNat)
    rw [List.mem_map] at hmem
    simp only [Version.toNat_inj] at hmem
    exact hmem

section Contested

open Inventory

/-- Two sessions create entity 7 and change it, and both commit, of which the first succeeds. Its
snapshot is written, it commits once more, and makes another change. -/
def contested : List (Event Delta Signature) := [
  .openShelf,
  .openSession {} (some ⟨0, {}⟩) ⟨default, .system⟩,
  .openSession {} none ⟨default, .user "b"⟩,
  .act 0 (.create (.ofNat 7)),
  .act 1 (.create (.ofNat 7)),
  .act 0 (.append (.ofNat 7) (.count 5)),
  .act 1 (.append (.ofNat 7) .doNothing),
  .act 0 (.commit false),
  .act 1 (.commit false),
  .writeSnapshot 0,
  .act 0 (.append (.ofNat 7) .doNothing),
  .act 0 (.commit false),
  .act 0 (.append (.ofNat 7) .doNothing)]

/-- The state that is kept as a snapshot. -/
def counted : Item := ⟨.ofNat 7, ⟨1⟩, 5, none, [], []⟩

set_option maxRecDepth 10000 in
theorem readsBack_counted : ReadsBack ({} : Registry) counted :=
  readsBack_of_bind (by decide +kernel)

theorem faithful_contested : Faithful Item ({} : Registry) contested :=
  faithful_of_inits readsBack_counted (by decide +kernel)

theorem versions_without_gaps_contested :
    Faithful Item ({} : Registry) contested ∧
      let log := (run (E := Item) ({} : Registry) contested).stores.tables.log (.ofNat 7)
      log.length = 2 ∧
      (∀ (i : Nat) (record : EntityRecord Envelope), log[i]? = some record →
        record.entityVersion.toNat = i + 1) ∧
      ∀ v : Version, (∃ record ∈ log, record.entityVersion = v) ↔
        1 ≤ v.toNat ∧ v.toNat ≤ log.length :=
  ⟨faithful_contested, by decide +kernel, versions_without_gaps faithful_contested (.ofNat 7)⟩

end Contested

end System

end Chronicle
