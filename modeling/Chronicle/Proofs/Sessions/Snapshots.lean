import Chronicle.Proofs.Sessions.Grounding
import Chronicle.Proofs.Store.Sequence

/-!
# Snapshots change no answer

A read of an entity starts from a snapshot if its session has a shelf and finds one there that is
not too new, and from the constructed entity otherwise. Either is a state on record at a version
that may be read (`exists_startingPoint`), and so the replay arrives where a replay of the whole
history does (`reconstruct_eq`). What a read answers is therefore decided by the log alone:
`snapshots_transparent` says so of all that a system of sessions can come to, however late and in
whatever order snapshots were written, and whichever were deleted.

There is one number that nothing is promised of: an entity of which all versions there are have been
committed. As every record takes a number from one counter, no store whose counter has not run over
gets there.
-/

namespace Chronicle

variable {R E D A : Type}

/-! ### Answers -/

/-- What a read ought to answer that reads some of the committed deltas of an entity: the state
after these, or that the entity was never constructed. -/
def Tables.answer (E : Type) {D : Type} [Entity E D] [Payload D] [Resolves R D] (t : Tables)
    (registry : R) (X : Identifier) (n : Nat) : Except Fault E :=
  if n = 0 then .error (.notConstructed X) else .ok (t.stateAt E registry X n)

/-- What is committed later changes no answer about what is committed now. -/
theorem Tables.answer_of_grows [Entity E D] [Payload D] [Resolves R D] {registry : R}
    {t t' : Tables} (h : t.Legible D registry) (hgrow : t.messages <+: t'.messages)
    {X : Identifier} {n : Nat} (hn : n ≤ t.committed X) :
    t'.answer E registry X n = t.answer E registry X n := by
  rw [answer, answer, stateAt_of_grows h hgrow hn]

namespace Repository

variable [Snapshot E D] [LawfulEntity E] [Resolves R E] [Payload D] [Resolves R D]
variable {registry : R} {r : Repository E D A} {stores : Stores E}

omit [LawfulEntity E] in
/-- Where a replay starts: a state on record that is not beyond what the replay may read. -/
theorem exists_startingPoint (hg : stores.Grounded registry) (r : Repository E D A)
    (X : Identifier) (upTo : Option Version) :
    ∃ n, n ≤ stores.tables.committed X ∧ n ≤ stores.tables.readTo X upTo ∧
      (r.startingPoint registry stores X upTo).outcome =
        .ok (stores.tables.stateAt E registry X n) := by
  have hconstructed : Entity.construct X = stores.tables.stateAt E registry X 0 := rfl
  rw [startingPoint]
  cases r.shelf with
  | none => exact ⟨0, Nat.zero_le _, Nat.zero_le _, rfl⟩
  | some session =>
    dsimp only
    cases hget : (stores.shelf session.shelf).get? X with
    | none =>
      rw [Shelf.read, hget]
      exact ⟨0, Nat.zero_le _, Nat.zero_le _, rfl⟩
    | some text =>
      obtain ⟨e, hread, rfl, hattained⟩ := hg.shelves session.shelf X text hget
      have hkept := Shelf.read_eq_some_iff.2 ⟨text, hget, hread⟩
      rw [Attempt.outcome_bind, hkept, Except.ok_bind, Attempt.outcome_pure]
      -- A snapshot that is too new is passed over.
      by_cases hbound : upTo.all (Entity.version e ≤ ·) = true
      · refine ⟨_, hattained.covered, ?_, ?_⟩
        · cases upTo with
          | none => exact hattained.covered
          | some v => exact Version.le_iff.1 (by simpa using hbound)
        · rw [Option.filter_some, if_pos hbound, ← hattained.eq]
          rfl
      · rw [Option.filter_some, if_neg hbound]
        exact ⟨0, Nat.zero_le _, Nat.zero_le _, rfl⟩

omit [Resolves R E] [LawfulEntity E] in
/-- A replay that meets no mishap arrives where the deltas lead that it reads. -/
theorem replay_eq (hread : r.mishaps.read = none) {X : Identifier} {start : E}
    (hid : Entity.entityId start = X) {upTo : Option Version} {deltas : List D}
    (h : (stores.tables.deltas D registry
      (Query.deltas X (Entity.version start) upTo)).outcome = .ok deltas) :
    (r.replay registry stores start upTo).value = ⟨.ok (Entity.replay start deltas), r⟩ := by
  subst hid
  rw [replay, hread]
  dsimp only
  rw [Logged.bind_value, Attempt.run_value, h]
  rfl

/-- A replay of an entity that is read anew starts somewhere and arrives at the state after all
deltas that it may read, wherever it starts. -/
theorem exists_arrival (hs : stores.Coherent registry) (hg : stores.Grounded registry)
    {X : Identifier} (hroom : stores.tables.committed X + 1 < 2 ^ 64)
    (hread : r.mishaps.read = none) (upTo : Option Version) :
    ∃ start, (r.startingPoint registry stores X upTo).outcome = .ok start ∧
      (r.replay registry stores start upTo).value =
        ⟨.ok (stores.tables.stateAt E registry X
          (min (stores.tables.readTo X upTo) (stores.tables.committed X))), r⟩ := by
  obtain ⟨n, hn, hto, hstart⟩ := exists_startingPoint hg r X upTo
  obtain ⟨deltas, hdeltas, hreplay⟩ := Tables.outcome_deltas_stateAt (E := E) hg.legible
    (hs.gapless X) hroom hn upTo
  have harrived := replay_eq hread (Tables.entityId_stateAt stores.tables registry X n) hdeltas
  rw [hreplay, Nat.max_eq_right (Nat.le_min.2 ⟨hto, hn⟩)] at harrived
  exact ⟨_, hstart, harrived⟩

omit [Resolves R E] in
/-- Of the committed states only the constructed one has version zero. -/
theorem isZero_version_stateAt (hg : stores.tables.Legible D registry) {X : Identifier}
    (hgapless : stores.tables.Gapless X) {n : Nat} (hn : n ≤ stores.tables.committed X) :
    (Entity.version (stores.tables.stateAt E registry X n)).isZero = true ↔ n = 0 := by
  rw [Version.isZero_iff, Version.eq_zero_iff, Tables.toNat_version_stateAt hg hgapless hn]

/-- **What a read answers.** The state after all deltas that it may read, wherever it starts. -/
theorem reconstruct_eq (hs : stores.Coherent registry) (hg : stores.Grounded registry)
    {X : Identifier} (hroom : stores.tables.committed X + 1 < 2 ^ 64)
    (hread : r.mishaps.read = none) (upTo : Option Version) :
    (r.reconstruct registry stores false X upTo).value.result = stores.tables.answer E registry X
      (min (stores.tables.readTo X upTo) (stores.tables.committed X)) := by
  obtain ⟨start, hstart, harrived⟩ := exists_arrival hs hg hroom hread upTo
  rw [reconstruct, if_neg Bool.false_ne_true, Logged.bind_value, Attempt.run_value, hstart]
  dsimp only
  rw [Logged.bind_value, harrived, Tables.answer]
  dsimp only
  have hzero := isZero_version_stateAt (E := E) hg.legible (hs.gapless X)
    (Nat.min_le_right (stores.tables.readTo X upTo) (stores.tables.committed X))
  generalize min (stores.tables.readTo X upTo) (stores.tables.committed X) = m at hzero ⊢
  by_cases hm : m = 0
  · rw [if_pos (hzero.2 hm), if_pos hm]
    rfl
  · rw [if_neg (mt hzero.1 hm), if_neg hm]
    rfl

end Repository

/-! ### Transparency -/

namespace System

variable [Snapshot E D] [LawfulEntity E] [Resolves R E] [Payload D] [Resolves R D] [Packable A]
variable {registry : R}

/-- The delta that a session appends. -/
def Event.appended? : Event D A → Option D
  | .act _ (.append _ delta) => some delta
  | _ => none

/-- All deltas that sessions append in a run read back. -/
def Readable (registry : R) (events : List (Event D A)) : Prop :=
  ∀ i X delta, Event.act i (.append X delta) ∈ events → UnpacksBack registry delta

omit [Packable A] in
/-- That can be found out by packing and unpacking each of them. -/
theorem readable_of_forall {events : List (Event D A)}
    (h : ∀ delta ∈ events.filterMap Event.appended?,
      (Envelope.pack delta >>= fun e ↦ e.unpack D registry).outcome = .ok delta) :
    Readable registry events := fun _ _ delta hevent ↦
  unpacksBack_of_bind (h delta (List.mem_filterMap.2 ⟨_, hevent, rfl⟩))

omit [LawfulEntity E] [Resolves R E] [Packable A] in
/-- Each message that is recorded then has a delta that reads back. -/
theorem Readable.keeps {events : List (Event D A)} (h : Readable registry events) :
    ∀ event ∈ events, event.Keeps fun (_ : E) (c : Change D) ↦ UnpacksBack registry c.delta := by
  intro event hevent
  cases event with
  | act i action =>
    cases action with
    | append X delta => exact fun _ ↦ h i X delta hevent
    | attach X attachment =>
      intro e d hd
      rwa [(attachment.toChange_apply d).2]
    | _ => exact trivial
  | _ => exact trivial

theorem Readable.grounded {events : List (Event D A)} (hdeltas : Readable registry events)
    (h : Faithful E registry events) :
    (run registry events : System E D A).Grounded registry
      fun _ c ↦ UnpacksBack registry c.delta :=
  grounded_run (fun _ _ hc ↦ hc) h hdeltas.keeps

omit [LawfulEntity E] in
/-- As long as the counter of records has not run over, no entity has all versions. -/
theorem committed_lt_of_nextSequence {events : List (Event D A)}
    (h : (run (E := E) registry events).stores.tables.nextSequence < 2 ^ 64) (X : Identifier) :
    (run (E := E) registry events).stores.tables.committed X + 1 < 2 ^ 64 := by
  have hcommitted := (run (E := E) registry events).stores.tables.committed_le X
  have hmessages := (reachable_run (E := E) registry events).length_messages_le
  omega

/-- Snapshots make no difference to what sessions signed by `A` read of an entity. -/
structure Transparent (A : Type) (registry : R) (stores : Stores E) (X : Identifier) : Prop where
  /-- The log of the entity reads as its history. -/
  history : (stores.tables.log X).map (fun record ↦ (record.data.unpack D registry).outcome) =
    (stores.tables.history D registry X).map .ok
  /-- Every snapshot of the entity is its state after as many deltas as its version says. -/
  shelves : ∀ n text, (stores.shelf n).get? X = some text →
    ∃ e : E, (Envelope.unpackWire E registry (Wire.ofString text)).outcome = .ok e ∧
      1 ≤ (Entity.version e).toNat ∧ (Entity.version e).toNat ≤ stores.tables.committed X ∧
      e = Entity.replay (Entity.construct X)
        ((stores.tables.history D registry X).take (Entity.version e).toNat)
  /-- The current state is that after all deltas. -/
  current : ∀ r : Repository E D A, r.mishaps.read = none →
    (r.getCurrent registry stores false X).value.result =
      stores.tables.answer E registry X (stores.tables.committed X)
  /-- The state at a version is that after as many deltas, or all if there are fewer. -/
  atVersion : ∀ r : Repository E D A, r.mishaps.read = none → ∀ w,
    (r.getAtVersion registry stores false X w).value.result =
      stores.tables.answer E registry X (min w.toNat (stores.tables.committed X))
  /-- A session without a shelf reads the same. -/
  unshelved : ∀ r : Repository E D A, r.mishaps.read = none →
    (r.getCurrent registry stores false X).value.result =
      ({ r with shelf := none }.getCurrent registry stores false X).value.result ∧
    ∀ w, (r.getAtVersion registry stores false X w).value.result =
      ({ r with shelf := none }.getAtVersion registry stores false X w).value.result

/-- **Snapshots are transparent.** However sessions have interleaved, and whenever snapshots were
written or deleted, every snapshot of an entity is one of its committed states, and what a session
reads is decided by the committed deltas alone: the current state is that after all of them, and the
state at a version that after as many. The latter never changes once it is committed. -/
theorem snapshots_transparent {events : List (Event D A)} (h : Faithful E registry events)
    (hdeltas : Readable registry events)
    (hroom : (run (E := E) registry events).stores.tables.nextSequence < 2 ^ 64) (X : Identifier) :
    Transparent A registry (run (E := E) registry events).stores X ∧
      ∀ future, Faithful E registry (events ++ future) → Readable registry (events ++ future) →
        (run (E := E) registry (events ++ future)).stores.tables.nextSequence < 2 ^ 64 →
        ∀ w : Version, w.toNat ≤ (run (E := E) registry events).stores.tables.committed X →
        ∀ r r' : Repository E D A, r.mishaps.read = none → r'.mishaps.read = none →
          (r'.getAtVersion registry (run registry (events ++ future)).stores false X w).value.result =
            (r.getAtVersion registry (run registry events).stores false X w).value.result := by
  -- A state at a version is what the history says, in any run.
  have hatVersion : ∀ {events : List (Event D A)}, Faithful E registry events →
      Readable registry events →
      (run (E := E) registry events).stores.tables.nextSequence < 2 ^ 64 →
      ∀ r : Repository E D A, r.mishaps.read = none → ∀ w,
        (r.getAtVersion registry (run registry events).stores false X w).value.result =
          (run (E := E) registry events).stores.tables.answer E registry X
            (min w.toNat ((run (E := E) registry events).stores.tables.committed X)) :=
    fun h hdeltas hroom r hread w ↦ Repository.reconstruct_eq (coherent_run h).stores
      (hdeltas.grounded h).stores (committed_lt_of_nextSequence hroom X) hread (some w)
  have hg := (hdeltas.grounded (E := E) h).stores
  have hcurrent : ∀ r : Repository E D A, r.mishaps.read = none →
      (r.getCurrent registry (run registry events).stores false X).value.result =
        (run (E := E) registry events).stores.tables.answer E registry X
          ((run (E := E) registry events).stores.tables.committed X) := fun r hread ↦ by
    have hall := Repository.reconstruct_eq (coherent_run h).stores hg
      (committed_lt_of_nextSequence hroom X) hread none
    rwa [Tables.readTo, Option.map_none, Option.getD_none, Nat.min_self] at hall
  refine ⟨⟨hg.legible.map_log X, fun n text htext ↦ ?_, hcurrent, hatVersion h hdeltas hroom,
    fun r hread ↦ ⟨?_, fun w ↦ ?_⟩⟩, fun future h' hdeltas' hroom' w hw r r' hread hread' ↦ ?_⟩
  · obtain ⟨e, he, rfl, hattained⟩ := hg.shelves n X text htext
    exact ⟨e, he, hattained.positive, hattained.covered, hattained.eq⟩
  · rw [hcurrent r hread, hcurrent { r with shelf := none } hread]
  · rw [hatVersion h hdeltas hroom r hread,
      hatVersion h hdeltas hroom { r with shelf := none } hread]
  · have hgrow := messages_grow_run (E := E) registry events future
    have hle := Tables.committed_mono hgrow X
    rw [hatVersion h hdeltas hroom r hread, hatVersion h' hdeltas' hroom' r' hread',
      Nat.min_eq_left hw, Nat.min_eq_left (hw.trans hle),
      Tables.answer_of_grows hg.legible hgrow hw]

section Contested

open Inventory

theorem readable_contested : Readable ({} : Registry) contested :=
  readable_of_forall (by decide +kernel)

/-- The snapshot of version one is still on its shelf when version two is committed. -/
theorem snapshots_transparent_contested :
    let stores := (run (E := Item) ({} : Registry) contested).stores
    (Faithful Item ({} : Registry) contested ∧ Readable ({} : Registry) contested ∧
      stores.tables.nextSequence < 2 ^ 64) ∧
    ((stores.shelf 0).get? (.ofNat 7) ≠ none ∧ stores.tables.committed (.ofNat 7) = 2) ∧
    Transparent Signature ({} : Registry) stores (.ofNat 7) := by
  intro stores
  have hroom : stores.tables.nextSequence < 2 ^ 64 := by decide +kernel
  exact ⟨⟨faithful_contested, readable_contested, hroom⟩, ⟨by decide +kernel, by decide +kernel⟩,
    (snapshots_transparent faithful_contested readable_contested hroom (.ofNat 7)).1⟩

end Contested

end System

end Chronicle
