import Chronicle.Proofs.Sessions.Snapshots
import Chronicle.Proofs.Sessions.Telescoping

/-!
# Leases and tags are projections

A session says with each message which leases and tags its entity loses and gains, going by the
states that it knows, and a store goes by the messages alone. What it keeps for an entity is
nevertheless what the entity has in its last committed state (`projections_exact`). For the messages
that a store takes have followed that state (`Repository.leads_of_commit`), however long ago and on
whatever grounds they were drafted, and a message that followed it turns what is kept of it into
what is to be kept of the next (`Leads.mem_revise`). A message that was drafted from a state which
is no longer the last is not taken, and neither is one that takes a lease which another entity
holds; so two entities never have a lease in common in their current states.

This is of no use to what is attached to messages by hand, which need not come from any state.
-/

namespace Chronicle

variable {R E D A α : Type}

/-! ### Messages as they were drafted -/

/-- A change says of the state that it is recorded in what was drafted, and its delta reads back. -/
structure Change.AsDrafted [Entity E D] [Payload D] [Resolves R D] (registry : R) (e : E)
    (c : Change D) : Prop where
  unpacksBack : UnpacksBack registry c.delta
  eq_draft : Transaction.draft c.entityId e (Entity.reduce e c.delta) c.delta = c

/-- Changes as they were drafted turn what is kept of one state into what is to be kept of the state
that they lead to. -/
theorem Leads.mem_revise [Entity E D] [Payload D] [Resolves R D] [DecidableEq α]
    (p : Projection α) {registry : R} {start e : E} {cs : List (Change D)}
    (h : Leads (Change.AsDrafted registry) start cs e) {held : List α}
    (hheld : ∀ a, a ∈ held ↔ a ∈ p.state start) (a : α) :
    a ∈ cs.foldl p.revise held ↔ a ∈ p.state e := by
  have hstart : held.toFinset = (p.state start).toFinset := by
    ext b
    rw [List.mem_toFinset, List.mem_toFinset, hheld]
  have hdrafted : Leads Change.Drafted start cs e := h.mono fun _ _ hc ↦ hc.eq_draft
  rw [← List.mem_toFinset, p.toFinset_foldl_revise, hstart, hdrafted.foldl_turn p,
    List.mem_toFinset]

/-! ### Exact projections -/

/-- What is kept for each entity is what it has in its last committed state. -/
def Projection.Exact [DecidableEq α] (p : Projection α) (E : Type) {D : Type} [Entity E D]
    [Payload D] [Resolves R D] (registry : R) (t : Tables) : Prop :=
  ∀ X a, a ∈ p.heldBy t X ↔ a ∈ p.state (t.stateAt E registry X (t.committed X))

namespace Projection.Exact

variable [Snapshot E D] [LawfulEntity E] [Resolves R E] [Payload D] [Resolves R D] [Packable A]
variable [DecidableEq α] {p : Projection α} {registry : R}

omit [LawfulEntity E] [Resolves R E] in
theorem empty (hbare : ∀ X, p.state (Entity.construct X : E) = []) :
    p.Exact E registry .empty := fun X a ↦ by
  have hstate : Tables.empty.stateAt E registry X (Tables.empty.committed X) =
      Entity.construct X := rfl
  rw [heldBy, p.records_empty, hstate, hbare X]
  rfl

/-- A commit of what a session has pending keeps the projection exact. -/
theorem commit {r : Repository E D A} {stores : Stores E} (h : p.Exact E registry stores.tables)
    (hs : stores.Coherent registry) (ht : r.transaction.Coheres stores.tables)
    (hsg : stores.Grounded registry)
    (htg : r.transaction.Grounded registry (Change.AsDrafted registry) stores.tables)
    {tables : Tables}
    (hcommit : (stores.tables.commit r.options (r.offered stores)).outcome = .ok tables) :
    p.Exact E registry tables := fun X a ↦ by
  have hback := Repository.unpacksBack_of_commit (fun _ _ hc ↦ hc.unpacksBack) hs ht hsg htg hcommit
  -- The messages of the entity have followed its last state, however long ago they were drafted.
  obtain ⟨e, hleads, -⟩ := Repository.leads_of_commit hs ht hsg htg hcommit X
  obtain ⟨-, packed, hpack, -, rfl⟩ := Tables.commit_eq_ok_iff.1 hcommit
  have hreplay := hleads.eq_replay
  rw [Transaction.pendingOf] at hleads hreplay
  rw [p.heldBy_write _ hpack, Tables.stateAt_write hsg.legible hpack hback X,
    Repository.changes_offered, hreplay]
  exact hleads.mem_revise p (h X) a

/-- So does every event. -/
theorem step {s : System E D A} (h : p.Exact E registry s.stores.tables)
    (hs : s.Coherent registry) (hg : s.Grounded registry (Change.AsDrafted registry))
    (event : System.Event D A) : p.Exact E registry (s.step registry event).stores.tables := by
  obtain heq | ⟨r, hr, hcommit⟩ := s.tables_step_cases registry event
  · rw [heq]
    exact h
  · exact h.commit hs.stores (hs.sessions r hr) hg.stores (hg.sessions r hr) hcommit

end Projection.Exact

/-! ### Projections in a run -/

/-- The state of an entity after all of its committed deltas. -/
def Tables.current (E : Type) {D : Type} [Entity E D] [Payload D] [Resolves R D] (t : Tables)
    (registry : R) (X : Identifier) : E :=
  Entity.replay (Entity.construct X) (t.history D registry X)

theorem Tables.stateAt_committed [Entity E D] [Payload D] [Resolves R D] {registry : R} {t : Tables}
    (h : t.Legible D registry) (X : Identifier) :
    t.stateAt E registry X (t.committed X) = t.current E registry X := by
  rw [stateAt, current, ← h.length_history X, List.take_length]

namespace System

variable [Snapshot E D] [LawfulEntity E] [Resolves R E] [Payload D] [Resolves R D] [Packable A]
variable {registry : R}

omit [LawfulEntity E] [Resolves R E] [Packable A] in
/-- Where nothing is attached, all messages are recorded as they were drafted. -/
theorem Readable.keeps_asDrafted {events : List (Event D A)} (hdeltas : Readable registry events)
    (hplain : ∀ i X attachment, .act i (.attach X attachment) ∉ events) :
    ∀ event ∈ events, event.Keeps (Change.AsDrafted registry : E → Change D → Prop) := by
  intro event hevent
  cases event with
  | act i action =>
    cases action with
    | append X delta => exact fun _ ↦ ⟨hdeltas i X delta hevent, rfl⟩
    | attach X attachment => exact absurd hevent (hplain i X attachment)
    | _ => exact trivial
  | _ => exact trivial

/-- Every run keeps a projection exact in which nothing is attached. -/
theorem exact_run [DecidableEq α] (p : Projection α)
    (hbare : ∀ X, p.state (Entity.construct X : E) = []) {events : List (Event D A)}
    (h : Faithful E registry events) (hdeltas : Readable registry events)
    (hplain : ∀ i X attachment, .act i (.attach X attachment) ∉ events) :
    p.Exact E registry (run (E := E) registry events).stores.tables := by
  have hkeeps := hdeltas.keeps_asDrafted (E := E) hplain
  have hall : (run registry events : System E D A).Coherent registry ∧
      (run registry events : System E D A).Grounded registry (Change.AsDrafted registry) ∧
      p.Exact E registry (run (E := E) registry events).stores.tables :=
    run_induction registry
      (fun s ↦ s.Coherent registry ∧ s.Grounded registry (Change.AsDrafted registry) ∧
        p.Exact E registry s.stores.tables)
      ⟨.empty, .empty, .empty hbare⟩
      (fun s event hevent hback hs ↦ ⟨hs.1.step hback event,
        hs.2.1.step (fun _ _ hc ↦ hc.unpacksBack) hs.1 hback (hkeeps event hevent),
        hs.2.2.step hs.1 hs.2.1 event⟩) h
  exact hall.2.2

/-- The leases and tags that a store keeps for an entity are those of its current state. -/
structure Projected (E : Type) {D : Type} [Entity E D] [Payload D] [Resolves R D] (registry : R)
    (t : Tables) (X : Identifier) : Prop where
  /-- The log of the entity reads as its history, which the current state comes from. -/
  history : (t.log X).map (fun record ↦ (record.data.unpack D registry).outcome) =
    (t.history D registry X).map .ok
  leases : ∀ lease, (∃ record ∈ t.leases, record.entityId = X ∧ record.data = lease) ↔
    lease ∈ Entity.leases (t.current E registry X)
  /-- Each of the leases is in one record and no other, of whatever entity. -/
  once : ∀ lease ∈ Entity.leases (t.current E registry X),
    (t.leases.map (·.data)).count lease = 1
  tags : ∀ tag, (∃ record ∈ t.tags, record.entityId = X ∧ record.data = tag) ↔
    tag ∈ Entity.tags (t.current E registry X)
  /-- No other entity has any of the leases. -/
  alone : ∀ Y, Y ≠ X → ∀ lease ∈ Entity.leases (t.current E registry X),
    lease ∉ Entity.leases (t.current E registry Y)

/-- **Leases and tags are projections.** However sessions have interleaved, as long as they attached
nothing to messages by hand, the leases and tags that are kept for an entity are those of its
current state: the leases each in one record, so that no two entities have one in common. -/
theorem projections_exact {events : List (Event D A)} (h : Faithful E registry events)
    (hdeltas : Readable registry events)
    (hplain : ∀ i X attachment, .act i (.attach X attachment) ∉ events)
    (hleases : ∀ X, Entity.leases (Entity.construct X : E) = [])
    (htags : ∀ X, Entity.tags (Entity.construct X : E) = []) (X : Identifier) :
    Projected E registry (run (E := E) registry events).stores.tables X := by
  have hlegible := (hdeltas.grounded (E := E) h).stores.legible
  have hnodup := (reachable_run (E := E) registry events).sound.data_nodup
  -- What is kept for an entity is what its current state has.
  have hkept : ∀ Y lease, (∃ record ∈ (run (E := E) registry events).stores.tables.leases,
      record.entityId = Y ∧ record.data = lease) ↔ lease ∈ Entity.leases
        ((run (E := E) registry events).stores.tables.current E registry Y) := fun Y lease ↦ by
    have hexact := exact_run .leases hleases h hdeltas hplain Y lease
    rwa [Projection.mem_heldBy, Tables.stateAt_committed hlegible] at hexact
  refine ⟨hlegible.map_log X, hkept X, fun lease hlease ↦ ?_, fun tag ↦ ?_,
    fun Y hY lease hX hlease ↦ ?_⟩
  · obtain ⟨record, hrecord, -, hdata⟩ := (hkept X lease).2 hlease
    exact List.count_eq_one_of_mem hnodup (List.mem_map.2 ⟨record, hrecord, hdata⟩)
  · have hexact := exact_run .tags htags h hdeltas hplain X tag
    rwa [Projection.mem_heldBy, Tables.stateAt_committed hlegible] at hexact
  · obtain ⟨record, hrecord, hid, hdata⟩ := (hkept X lease).2 hX
    obtain ⟨record', hrecord', hid', hdata'⟩ := (hkept Y lease).2 hlease
    obtain rfl : record' = record :=
      List.inj_on_of_nodup_map hnodup hrecord' hrecord (hdata'.trans hdata.symm)
    exact hY (hid'.symm.trans hid)

section HandingOn

open Inventory

/-- The tag that entity 7 is found by. -/
def onDisplay : Tag := ⟨"place", "window"⟩

/-- Two sessions create entity 7 with the same lease, one of them with a tag as well, and this one
commits. It then hands the lease on to entity 8, which it reserves too, all in one source. The other
session tries to commit after each of the two sources. -/
def handingOn : List (Event Delta Signature) := [
  .openSession {} none ⟨default, .system⟩,
  .openSession {} none ⟨default, .user "b"⟩,
  .act 0 (.create (.ofNat 7)),
  .act 0 (.append (.ofNat 7) (.setLeases [Tables.spot])),
  .act 0 (.append (.ofNat 7) (.setTags [onDisplay])),
  .act 1 (.create (.ofNat 7)),
  .act 1 (.append (.ofNat 7) (.setLeases [Tables.spot])),
  .act 0 (.commit false),
  .act 1 (.commit false),
  .act 0 (.create (.ofNat 8)),
  .act 0 (.append (.ofNat 7) (.setLeases [])),
  .act 0 (.append (.ofNat 8) (.setLeases [Tables.spot])),
  .act 0 (.append (.ofNat 8) (.reserve "c")),
  .act 0 (.commit false),
  .act 1 (.commit false)]

theorem projections_exact_handingOn :
    let tables := (run (E := Item) ({} : Registry) handingOn).stores.tables
    (Faithful Item ({} : Registry) handingOn ∧ Readable ({} : Registry) handingOn) ∧
    tables.leases.map (fun record ↦ (record.data, record.entityId)) =
      [(Tables.spot, .ofNat 8), (⟨"test", "reservation", "c"⟩, .ofNat 8)] ∧
    tables.tags.map (fun record ↦ (record.data, record.entityId)) = [(onDisplay, .ofNat 7)] ∧
    Projected Item ({} : Registry) tables (.ofNat 7) ∧
    Projected Item ({} : Registry) tables (.ofNat 8) := by
  have hfaithful : Faithful Item ({} : Registry) handingOn :=
    faithful_of_unshelved _ fun options shelf agent hevent ↦ by
      simp only [handingOn, List.mem_cons, Event.openSession.injEq, List.not_mem_nil, reduceCtorEq,
        or_false] at hevent
      obtain ⟨-, rfl, -⟩ | ⟨-, rfl, -⟩ := hevent
      · rfl
      · rfl
  have hdeltas : Readable ({} : Registry) handingOn := readable_of_forall (by decide +kernel)
  have hexact := projections_exact hfaithful hdeltas (by simp [handingOn]) (fun _ ↦ rfl)
    (fun _ ↦ rfl)
  exact ⟨⟨hfaithful, hdeltas⟩, by decide +kernel, by decide +kernel, hexact _, hexact _⟩

end HandingOn

end System

end Chronicle
