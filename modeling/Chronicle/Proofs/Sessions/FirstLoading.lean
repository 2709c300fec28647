import Chronicle.Proofs.Sessions.Snapshots

/-!
# Loading what is not known yet

A session that does not know an entity reads it as any reader does, from a snapshot that is not too
new or from the constructed entity. The replay arrives at the version that the pointer asks for or,
if fewer are committed, at the last of them; so the pointer is satisfied exactly if as many versions
are committed as it asks for, and at least one (`tryLoad_of_unknown`). Then the state is known, and
remembered as the last one loaded; nothing else that the session holds is touched, and the next
message of the entity follows the version that was loaded.
-/

namespace Chronicle

variable {R E D A : Type}

/-- How many deltas lead to the state that a pointer asks for, if so many are committed. -/
def Pointer.due (pointer : Pointer) (committed : Nat) : Nat :=
  if pointer.version.toNat = 0 then committed else pointer.version.toNat

namespace Repository

/-- One entity becomes known in a state, which is remembered as the last one loaded, and all else
that the session knows, remembers and has pending is as it was. -/
structure Learns (r r' : Repository E D A) (X : Identifier) (e : E) : Prop where
  known : ∀ Y, r'.transaction.get? Y = if Y = X then some e else r.transaction.get? Y
  baselines : ∀ Y, r'.baselines.get? Y = if Y = X then some e else r.baselines.get? Y
  pending : r'.transaction.pending = r.transaction.pending

/-- The next message of an entity follows the version that is known. -/
theorem append_of_known [Entity E D] {r : Repository E D A} {X : Identifier} {e : E}
    (h : r.transaction.get? X = some e) (delta : D) (id : Identifier) :
    ∃ (r' : Repository E D A) (m : Message D), r.append X delta id = .ok r' ∧
      r'.transaction.pending = r.transaction.pending ++ [m] ∧ m.entityId = X ∧ m.delta = delta ∧
        m.expectedPrevious = Entity.version e := by
  have happend : r.transaction.append X delta id = .ok (r.transaction.appended X e delta id) :=
    Transaction.append_eq_ok_iff.2 ⟨e, h, rfl⟩
  refine ⟨{ r with transaction := r.transaction.appended X e delta id }, _, ?_, rfl, rfl, rfl, rfl⟩
  rw [append, happend]
  rfl

variable [Snapshot E D]

theorem learns_know (r : Repository E D A) {X : Identifier} {e : E}
    (hid : Entity.entityId e = X) : r.Learns (r.know X e) X e where
  known Y := by
    subst hid
    exact Catalog.get?_put ..
  baselines _ := Catalog.get?_put ..
  pending := rfl

/-- The pointer bounds a replay by the version that is due. -/
theorem readTo_bound (t : Tables) (pointer : Pointer) :
    t.readTo pointer.id (bound pointer) = pointer.due (t.committed pointer.id) := by
  have hzero : pointer.version.isZero = true ↔ pointer.version.toNat = 0 := by
    rw [Version.isZero_iff, Version.eq_zero_iff]
  simp only [Pointer.due, bound, hzero]
  split <;> rfl

variable [LawfulEntity E] [Resolves R E] [Payload D] [Resolves R D]
variable {registry : R} {r : Repository E D A} {stores : Stores E}

/-- **What a first load does.** If the state that is due is committed, it becomes known. Otherwise
the session is left as it is. -/
theorem tryLoad_of_unknown (hs : stores.Coherent registry) (hg : stores.Grounded registry)
    {pointer : Pointer} (hroom : stores.tables.committed pointer.id + 1 < 2 ^ 64)
    (hread : r.mishaps.read = none) (hunknown : r.transaction.get? pointer.id = none) :
    let committed := stores.tables.committed pointer.id
    let due := pointer.due committed
    (r.tryLoad registry stores false pointer).value =
      if 1 ≤ due ∧ due ≤ committed then
        ⟨.ok true, r.know pointer.id (stores.tables.stateAt E registry pointer.id due)⟩
      else ⟨.ok false, r⟩ := by
  intro committed due
  obtain ⟨start, hstart, harrived⟩ := exists_arrival hs hg hroom hread (bound pointer)
  rw [readTo_bound] at harrived
  have hle : min due committed ≤ committed := Nat.min_le_right ..
  have hzero := isZero_version_stateAt (E := E) hg.legible (hs.gapless pointer.id) hle
  have hversion := Tables.toNat_version_stateAt (E := E) hg.legible (hs.gapless pointer.id) hle
  have hid := Tables.entityId_stateAt (E := E) stores.tables registry pointer.id (min due committed)
  rw [tryLoad, hunknown]
  dsimp only
  rw [if_neg Bool.false_ne_true, Logged.bind_value, Attempt.run_value, hstart]
  dsimp only
  rw [loadFrom, if_neg Bool.false_ne_true, Logged.bind_value, harrived]
  dsimp only
  -- The state that was reached is the one that is due if so many versions are committed, and else
  -- falls short of the pointer or was never committed.
  have hsatisfied : pointer.isSatisfiedBy (Entity.pointer
      (stores.tables.stateAt E registry pointer.id (min due committed))) = true ↔
        due ≤ committed := by
    rw [Pointer.isSatisfiedBy_iff, Entity.pointer, hid, ← Version.toNat_inj, ← Version.toNat_inj,
      hversion, Version.toNat_zero]
    simp only [true_and, due, Pointer.due]
    split <;> omega
  by_cases hreach : 1 ≤ due ∧ due ≤ committed
  · have hdue : min due committed = due := Nat.min_eq_left hreach.2
    rw [if_pos hreach, hsatisfied.2 hreach.2, Bool.eq_false_iff.2 (mt hzero.1 (by omega)), hdue]
    rfl
  · rw [if_neg hreach, if_pos]
    · rfl
    · rw [Bool.or_eq_true, hzero, Bool.not_eq_true', ← Bool.not_eq_true, hsatisfied]
      omega

end Repository

/-! ### First loads in a run -/

namespace System

variable [Snapshot E D] [LawfulEntity E] [Resolves R E] [Payload D] [Resolves R D] [Packable A]
variable {registry : R}

/-- **First loads.** However sessions have interleaved, and whatever snapshots there are, a session
that does not know an entity loads it exactly if the version that it asks for is committed, or if it
asks for the latest and any is. It then knows the state after as many committed deltas, and its next
message of the entity follows the version of that; all else stays as it was. Otherwise the answer is
that there is no such state, and nothing changes at all. -/
theorem first_load_exact {events : List (Event D A)} (h : Faithful E registry events)
    (hdeltas : Readable registry events)
    (hroom : (run (E := E) registry events).stores.tables.nextSequence < 2 ^ 64)
    (r : Repository E D A) (hread : r.mishaps.read = none) (pointer : Pointer)
    (hunknown : r.transaction.get? pointer.id = none) :
    let stores := (run (E := E) registry events).stores
    let n := stores.tables.committed pointer.id
    let v := pointer.version.toNat
    let load := (r.tryLoad registry stores false pointer).value
    (load.result = .ok true ↔ (v = 0 ∧ 1 ≤ n) ∨ (1 ≤ v ∧ v ≤ n)) ∧
    (load.result = .ok true →
      r.Learns load.state pointer.id
        (stores.tables.stateAt E registry pointer.id (if v = 0 then n else v)) ∧
      (v = 0 → ∀ later : Repository E D A,
        later.transaction.get? pointer.id = load.state.transaction.get? pointer.id →
        ∀ delta id, ∃ (r' : Repository E D A) (m : Message D),
          later.append pointer.id delta id = .ok r' ∧
          r'.transaction.pending = later.transaction.pending ++ [m] ∧ m.entityId = pointer.id ∧
          m.delta = delta ∧ m.expectedPrevious.toNat = n)) ∧
    (load.result ≠ .ok true → load.result = .ok false ∧ load.state = r) := by
  intro stores n v load
  have hs : stores.Coherent registry := (coherent_run (A := A) h).stores
  have hg : stores.Grounded registry := (hdeltas.grounded (E := E) h).stores
  have hload : load = _ := Repository.tryLoad_of_unknown hs hg
    (committed_lt_of_nextSequence hroom pointer.id) hread hunknown
  have hreach : (1 ≤ pointer.due n ∧ pointer.due n ≤ n) ↔
      (v = 0 ∧ 1 ≤ n) ∨ (1 ≤ v ∧ v ≤ n) := by
    simp only [Pointer.due, v]
    split <;> omega
  by_cases hdue : 1 ≤ pointer.due n ∧ pointer.due n ≤ n
  · rw [if_pos hdue] at hload
    rw [hload]
    have hlearns := r.learns_know
      (Tables.entityId_stateAt (E := E) stores.tables registry pointer.id (pointer.due n))
    refine ⟨iff_of_true rfl (hreach.1 hdue),
      fun _ ↦ ⟨hlearns, fun hlatest later hlater delta id ↦ ?_⟩, absurd rfl⟩
    have hknown := hlater.trans ((hlearns.known pointer.id).trans (if_pos rfl))
    obtain ⟨r', m, happend, hpending, hentity, hdelta, hexpected⟩ :=
      Repository.append_of_known hknown delta id
    refine ⟨r', m, happend, hpending, hentity, hdelta, ?_⟩
    have hn : pointer.due n = n := if_pos hlatest
    rw [hexpected, Tables.toNat_version_stateAt hg.legible (hs.gapless pointer.id) hdue.2, hn]
  · rw [if_neg hdue] at hload
    rw [hload]
    exact ⟨iff_of_false nofun (mt hreach.2 hdue), nofun, fun _ ↦ ⟨rfl, rfl⟩⟩

section Latecomer

open Inventory

/-- A session with the shelf of the contested run, which knows nothing yet. -/
def latecomer : Repository Item Delta Signature where
  options := {}
  shelf := some ⟨0, {}⟩
  agent := ⟨default, .user "c"⟩

/-- From the snapshot of version one it loads entity 7 at version two, and there is no third. -/
theorem first_load_exact_latecomer :
    let stores := (run (E := Item) ({} : Registry) contested).stores
    let second := (latecomer.tryLoad ({} : Registry) stores false ⟨.ofNat 7, .zero⟩).value
    let third := (latecomer.tryLoad ({} : Registry) stores false ⟨.ofNat 7, ⟨3⟩⟩).value
    (Faithful Item ({} : Registry) contested ∧ Readable ({} : Registry) contested ∧
      stores.tables.nextSequence < 2 ^ 64) ∧
    (latecomer.mishaps.read = none ∧ latecomer.transaction.get? (.ofNat 7) = none) ∧
    ((stores.shelf 0).get? (.ofNat 7) ≠ none ∧ stores.tables.committed (.ofNat 7) = 2) ∧
    (second.result = .ok true ∧
      latecomer.Learns second.state (.ofNat 7)
        (stores.tables.stateAt Item ({} : Registry) (.ofNat 7) 2)) ∧
    third.result = .ok false ∧ third.state = latecomer := by
  intro stores second third
  have hroom : stores.tables.nextSequence < 2 ^ 64 := by decide +kernel
  have hcommitted : stores.tables.committed (.ofNat 7) = 2 := by decide +kernel
  obtain ⟨hlatest, hlearns, -⟩ := first_load_exact faithful_contested readable_contested hroom
    latecomer rfl ⟨.ofNat 7, .zero⟩ rfl
  obtain ⟨hthird, -, hsame⟩ := first_load_exact faithful_contested readable_contested hroom
    latecomer rfl ⟨.ofNat 7, ⟨3⟩⟩ rfl
  rw [hcommitted] at hlatest hthird hlearns
  have hloaded := hlatest.2 (.inl ⟨Version.toNat_zero, by decide⟩)
  have hmissing := mt hthird.1 (by decide +kernel)
  rw [if_pos Version.toNat_zero] at hlearns
  refine ⟨⟨faithful_contested, readable_contested, hroom⟩, ⟨rfl, rfl⟩,
    ⟨by decide +kernel, hcommitted⟩, ?_⟩
  -- The run itself is not to be evaluated.
  with_reducible exact ⟨⟨hloaded, (hlearns hloaded).1⟩, hsame hmissing⟩

end Latecomer

end System

end Chronicle
