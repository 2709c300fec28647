import Chronicle.Proofs.Sessions.Concurrency
import Chronicle.Proofs.Sessions.Provenance

/-!
# Only committed states are kept

When the store takes the messages of a session, they have followed the last committed state of each
entity, and what the session knows of it is what the log then amounts to (`leads_of_commit`,
`known_of_commit`). That is why each snapshot which waits or is on a shelf reads as a committed
state (`Stores.Grounded`), although it was taken from the memory of a session, and why a session
without pending messages of an entity that loads it knows a committed state (`Loads.onRecord`).
Every action of a session keeps all of this (`Effect.grounded`), every other event does
(`Grounded.step`), and so does every run in which each message is recorded as it should be
(`Event.Keeps`).
-/

namespace Chronicle

variable {R E D A : Type}

/-! ### Grounded stores -/

section Stores

variable [Snapshot E D] [Resolves R E] [Payload D] [Resolves R D]

/-- A text reads as a committed state of an entity. -/
def Tables.SnapshotOf (E : Type) {D : Type} [Snapshot E D] [Resolves R E] [Payload D] [Resolves R D]
    (t : Tables) (registry : R) (X : Identifier) (text : String) : Prop :=
  ∃ e : E, (Envelope.unpackWire E registry (Wire.ofString text)).outcome = .ok e ∧
    Entity.entityId e = X ∧ t.Attained registry e

theorem Tables.SnapshotOf.mono {registry : R} {t t' : Tables} {X : Identifier} {text : String}
    (h : t.SnapshotOf E registry X text) (hlegible : t.Legible D registry)
    (hgrow : t.messages <+: t'.messages) : t'.SnapshotOf E registry X text := by
  obtain ⟨e, hread, hid, hattained⟩ := h
  exact ⟨e, hread, hid, hattained.mono hlegible hgrow⟩

/-- All committed deltas read, and all snapshots are committed states, whether they wait or are on a
shelf. -/
structure Stores.Grounded (registry : R) (s : Stores E) : Prop where
  legible : s.tables.Legible D registry
  queue : ∀ w ∈ s.queue, s.tables.Attained registry w.snapshot
  shelves : s.Each (s.tables.SnapshotOf E registry)

/-- Shelves may change as long as what is on them are committed states, and snapshots may stop
waiting. -/
theorem Stores.Grounded.of_tables {registry : R} {s s' : Stores E} (h : s.Grounded registry)
    (htables : s'.tables = s.tables) (hqueue : s'.queue ⊆ s.queue)
    (hshelves : s'.Each (s.tables.SnapshotOf E registry)) : s'.Grounded registry where
  legible := htables ▸ h.legible
  queue := htables ▸ fun w hw ↦ h.queue w (hqueue hw)
  shelves := htables ▸ hshelves

end Stores

/-! ### What is recorded -/

/-- The messages that an action appends or attaches to are related to the state that the session
then knows. -/
def Repository.Action.Keeps [Entity E D] (P : E → Change D → Prop) :
    Repository.Action D A → Prop
  | .append X delta => ∀ e, P e (Transaction.draft X e (Entity.reduce e delta) delta)
  | .attach _ attachment =>
    ∀ e (m : Message D), P e m.toChange → P e (attachment.apply m).toChange
  | _ => True

/-- Whatever happens, messages are related to the state that they are recorded in. -/
def System.Event.Keeps [Entity E D] (P : E → Change D → Prop) : System.Event D A → Prop
  | .act _ action => action.Keeps P
  | _ => True

namespace Repository

variable [Snapshot E D] [LawfulEntity E] [Resolves R E] [Payload D] [Resolves R D] [Packable A]
variable {registry : R} {P : E → Change D → Prop} {r : Repository E D A} {stores stores' : Stores E}

/-! ### Loading -/

omit [LawfulEntity E] [Packable A] in
/-- A replay starts from a state on record. -/
theorem onRecord_startingPoint (hg : stores.Grounded registry) {X : Identifier}
    {upTo : Option Version} {start : E}
    (h : (r.startingPoint registry stores X upTo).outcome = .ok start) :
    stores.tables.OnRecord registry X start := by
  obtain rfl | ⟨session, -, hread⟩ := r.startingPoint_cases registry stores h
  · exact Tables.onRecord_construct registry stores.tables X
  · obtain ⟨text, htext, hstart⟩ := Shelf.read_eq_some_iff.1 hread
    obtain ⟨e, he, rfl, hattained⟩ := hg.shelves session.shelf X text htext
    obtain rfl : e = start := Except.ok.inj (he.symm.trans hstart)
    exact hattained.onRecord

omit [Packable A] in
/-- **What is loaded with nothing pending.** A state on record of the entity asked for. -/
theorem Loads.onRecord (hs : stores.Coherent registry) (hg : stores.Grounded registry)
    (ht : r.transaction.Grounded registry P stores.tables) {pointer : Pointer} {e : E}
    (h : r.Loads registry stores pointer e)
    (hroom : stores.tables.committed pointer.id + 1 < 2 ^ 64)
    (hnone : r.transaction.claims pointer.id = []) :
    stores.tables.OnRecord registry pointer.id e := by
  obtain ⟨⟨start, deltas, hstart, hdeltas, rfl⟩, -, -⟩ := h
  -- What is known was not moved by anything pending, and so the replay starts from a state on
  -- record.
  have hrecord : stores.tables.OnRecord registry pointer.id start := by
    cases hstart with
    | known hknown _ _ =>
      obtain ⟨base, hbase, hleads⟩ := ht pointer.id start hknown hroom
        (hnone ▸ not_barred_nil _)
      rw [Transaction.claims_eq_nil_iff.1 hnone] at hleads
      cases hleads
      exact hbase
    | unknown _ hstart => exact onRecord_startingPoint hg hstart
  obtain ⟨n, hn, rfl⟩ := hrecord
  rw [Tables.entityId_stateAt] at hdeltas
  obtain ⟨deltas', hdeltas', hreplay⟩ := Tables.outcome_deltas_stateAt (E := E) hg.legible
    (hs.gapless pointer.id) hroom hn (bound pointer)
  obtain rfl : deltas' = deltas := Except.ok.inj (hdeltas'.symm.trans hdeltas)
  rw [hreplay]
  exact ⟨_, by omega, rfl⟩

/-! ### Committing -/

omit [Resolves R E] [LawfulEntity E] [Payload D] [Resolves R D] [Packable A] in
/-- No message of an accepted source was barred. -/
theorem Continues.not_barred {before after : Tables} {X : Identifier}
    (h : r.Continues before after X) :
    ¬ Barred (before.committed X) (r.transaction.claims X) := by
  rintro ⟨claim, hmem, hbar⟩
  have hlt := h.gapless.committed_lt
  rw [h.committed] at hlt
  rw [h.claims, List.mem_range'_1] at hmem
  omega

omit [Resolves R E] [LawfulEntity E] [Payload D] [Resolves R D] [Packable A] in
/-- An entity of which messages were accepted is known in a committed version. -/
theorem Continues.version_ne_zero {before after : Tables} {X : Identifier}
    (h : r.Continues before after X) {e : E} (he : r.transaction.get? X = some e)
    (hne : r.transaction.claims X ≠ []) : Entity.version e ≠ .zero := fun hzero ↦ by
  have hversion := h.known e he hne
  have hlength := List.length_pos_iff.2 hne
  rw [hzero, Version.toNat_zero, h.committed] at hversion
  omega

omit [Resolves R E] [Packable A] in
/-- The messages of an accepted source have followed the last committed state of each entity. -/
theorem Continues.leads {before after : Tables} {X : Identifier} (h : r.Continues before after X)
    (hlegible : before.Legible D registry) (hg : before.Gapless X)
    (ht : r.transaction.Grounded registry P before) (hne : r.transaction.claims X ≠ []) {e : E}
    (he : r.transaction.get? X = some e) :
    Leads P (before.stateAt E registry X (before.committed X)) (r.transaction.pendingOf X) e := by
  have hlength := List.length_pos_iff.2 hne
  have hlt := h.gapless.committed_lt
  have hcommitted := h.committed
  have hknown := h.known e he hne
  obtain ⟨_, ⟨n, hn, rfl⟩, hleads⟩ := ht X e he (by omega) h.not_barred
  -- The known version tells how far the state on record is behind, which is not at all.
  have hversion := Entity.toNat_version_replay (before.stateAt E registry X n)
    ((r.transaction.pendingOf X).map (·.delta))
  rw [hleads.eq_replay, Tables.toNat_version_stateAt hlegible hg hn, List.length_map,
    ← Transaction.length_claims, hknown, hcommitted] at hversion
  obtain rfl : n = before.committed X := by omega
  exact hleads

/-- So the messages of every entity lead somewhere, and to what the session knows if there are any.
-/
theorem leads_of_commit (hs : stores.Coherent registry)
    (ht : r.transaction.Coheres stores.tables) (hsg : stores.Grounded registry)
    (htg : r.transaction.Grounded registry P stores.tables) {tables : Tables}
    (hcommit : (stores.tables.commit r.options (r.offered stores)).outcome = .ok tables)
    (X : Identifier) :
    ∃ e, Leads P (stores.tables.stateAt E registry X (stores.tables.committed X))
        (r.transaction.pendingOf X) e ∧
      (r.transaction.claims X ≠ [] → r.transaction.get? X = some e) := by
  by_cases hne : r.transaction.claims X = []
  · rw [Transaction.claims_eq_nil_iff.1 hne]
    exact ⟨_, .nil _, absurd hne⟩
  · obtain ⟨-, hcontinues⟩ := continues_of_commit hs ht hcommit
    obtain ⟨e, he⟩ := Option.ne_none_iff_exists'.1 (mt (ht.unknown X) hne)
    exact ⟨e, (hcontinues X).leads hsg.legible (hs.gapless X) htg hne he, fun _ ↦ he⟩

/-- All deltas of an accepted source read back. -/
theorem unpacksBack_of_commit (hP : ∀ e c, P e c → UnpacksBack registry c.delta)
    (hs : stores.Coherent registry) (ht : r.transaction.Coheres stores.tables)
    (hsg : stores.Grounded registry) (htg : r.transaction.Grounded registry P stores.tables)
    {tables : Tables}
    (hcommit : (stores.tables.commit r.options (r.offered stores)).outcome = .ok tables) :
    ∀ c ∈ (r.offered stores).changes, UnpacksBack registry c.delta := fun c hc ↦ by
  rw [changes_offered] at hc
  obtain ⟨e, hleads, -⟩ := leads_of_commit hs ht hsg htg hcommit c.entityId
  exact hleads.forall_mem hP c (Transaction.mem_pendingOf hc)

/-- **What is known of committed entities.** When the store takes the messages of a session, all of
them read, and the session knows each of their entities in the state that is then the last. -/
theorem known_of_commit (hP : ∀ e c, P e c → UnpacksBack registry c.delta)
    (hs : stores.Coherent registry) (ht : r.transaction.Coheres stores.tables)
    (hsg : stores.Grounded registry) (htg : r.transaction.Grounded registry P stores.tables)
    {tables : Tables}
    (hcommit : (stores.tables.commit r.options (r.offered stores)).outcome = .ok tables) :
    tables.Legible D registry ∧ ∀ X e, r.transaction.get? X = some e →
      r.transaction.claims X ≠ [] →
        tables.stateAt E registry X (tables.committed X) = e := by
  have hback := unpacksBack_of_commit hP hs ht hsg htg hcommit
  have hleads := leads_of_commit hs ht hsg htg hcommit
  obtain ⟨-, packed, hpack, -, rfl⟩ := Tables.commit_eq_ok_iff.1 hcommit
  refine ⟨hsg.legible.write hpack hback, fun X e he hne ↦ ?_⟩
  obtain ⟨e', hlead, hget⟩ := hleads X
  obtain rfl : e' = e := Option.some.inj ((hget hne).symm.trans he)
  rw [Tables.stateAt_write hsg.legible hpack hback X, changes_offered]
  exact hlead.eq_replay

/-! ### All actions -/

/-- Whatever a session does, all that is kept are committed states, and the states that the session
knows keep their origin. -/
theorem Effect.grounded (hP : ∀ e c, P e c → UnpacksBack registry c.delta)
    (hs : stores.Coherent registry) (ht : r.transaction.Coheres stores.tables)
    (hsg : stores.Grounded registry) (htg : r.transaction.Grounded registry P stores.tables)
    {action : Action D A} (hkeeps : action.Keeps P) {t : Transaction E D}
    (h : r.Effect registry stores action t stores') :
    stores'.Grounded registry ∧ t.Grounded registry P stores'.tables := by
  have hgrow := h.messages_grow
  cases h with
  | kept _ numbering => exact ⟨⟨hsg.legible, hsg.queue, hsg.shelves⟩, htg⟩
  | @constructed X hnew =>
    exact ⟨hsg, htg.put fun _ _ ↦ ⟨ht.unknown X hnew, Tables.onRecord_construct _ _ X⟩⟩
  | @loaded pointer _ e hloads =>
    obtain ⟨hid, hcovers, -⟩ := hloads.reached hs
    obtain ⟨-, hstanding⟩ := hloads.standing hs ht
    rw [Tables.Covers, hid] at hcovers
    refine ⟨hsg, htg.put fun hroom hbarred ↦ ?_⟩
    rw [hid] at hroom hbarred ⊢
    have hnone := hstanding.eq_nil hcovers hbarred
    exact ⟨hnone, hloads.onRecord hs hsg htg hroom hnone⟩
  | appended hknown delta id numbering =>
    exact ⟨⟨hsg.legible, hsg.queue, hsg.shelves⟩, htg.append hknown (hkeeps _) id⟩
  | attached hchange => exact ⟨hsg, htg.attach hkeeps hchange⟩
  | @committed _ tables state hcommit htakes =>
    obtain ⟨-, hcontinues⟩ := continues_of_commit hs ht hcommit
    obtain ⟨hlegible, hknown⟩ := known_of_commit hP hs ht hsg htg hcommit
    obtain ⟨queued, hqueue, hqueued⟩ := htakes.queue
    rw [← htakes.tables] at hcontinues hlegible hknown
    have hrecord : ∀ X e, r.transaction.get? X = some e → r.transaction.claims X ≠ [] →
        state.2.tables.OnRecord registry X e := fun X e he hne ↦ ⟨_, le_rfl, hknown X e he hne⟩
    refine ⟨⟨hlegible, fun w hw ↦ ?_, ?_⟩, ?_⟩
    · rw [hqueue, List.mem_append] at hw
      rcases hw with hw | hw
      · exact (hsg.queue w hw).mono hsg.legible hgrow
      · obtain ⟨-, X, hget, hne⟩ := hqueued w hw
        exact (hrecord X _ hget hne).attained hlegible (hcontinues X).gapless
          ((hcontinues X).version_ne_zero hget hne)
    · exact (hsg.shelves.mono fun X text htext ↦ htext.mono hsg.legible hgrow).of_shelves
        htakes.shelves
    · rw [htakes.transaction]
      exact htg.clear hsg.legible hgrow hrecord

end Repository

/-! ### Grounded systems -/

namespace System

variable [Snapshot E D] [LawfulEntity E] [Resolves R E] [Payload D] [Resolves R D] [Packable A]
variable {registry : R} {P : E → Change D → Prop}

/-- All that is kept are committed states, and the states that sessions know have an origin. -/
structure Grounded (registry : R) (P : E → Change D → Prop) (s : System E D A) : Prop where
  stores : s.stores.Grounded registry
  sessions : ∀ r ∈ s.sessions, r.transaction.Grounded registry P s.stores.tables

omit [LawfulEntity E] [Packable A] in
theorem Grounded.empty : Grounded registry P ({} : System E D A) where
  stores :=
    { legible := Tables.Legible.empty
      queue := fun _ hw ↦ absurd hw List.not_mem_nil
      shelves := Stores.Each.empty }
  sessions _ hr := absurd hr List.not_mem_nil

omit [LawfulEntity E] [Packable A] in
/-- What happens to shelves and to waiting snapshots is no business of the sessions. -/
theorem Grounded.of_stores {s : System E D A} (h : s.Grounded registry P) {stores : Stores E}
    (htables : stores.tables = s.stores.tables) (hqueue : stores.queue ⊆ s.stores.queue)
    (hshelves : stores.Each (s.stores.tables.SnapshotOf E registry)) :
    Grounded registry P { s with stores } where
  stores := h.stores.of_tables htables hqueue hshelves
  sessions := htables ▸ h.sessions

/-- One event keeps a coherent system grounded. -/
theorem Grounded.step (hP : ∀ e c, P e c → UnpacksBack registry c.delta) {s : System E D A}
    (hs : s.Coherent registry) (h : s.Grounded registry P)
    (hback : ∀ w ∈ s.stores.queue, ReadsBack registry w.snapshot) {event : Event D A}
    (hkeeps : event.Keeps P) : (s.step registry event).Grounded registry P := by
  have hshelves := h.stores.shelves
  cases event with
  | openShelf => exact h.of_stores rfl (List.Subset.refl _) hshelves.openShelf
  | openSession options shelf agent =>
    refine ⟨h.stores, fun r hr ↦ ?_⟩
    rcases List.mem_append.1 hr with hr | hr
    · exact h.sessions r hr
    · rw [List.mem_singleton.1 hr]
      exact .empty _ _ _
  | act session action =>
    rw [System.step]
    cases hsession : s.sessions[session]? with
    | none => exact h
    | some r =>
      have hr := List.mem_of_getElem? hsession
      have heffect := r.act_effect registry s.stores action
      obtain ⟨hstores, htransaction⟩ := heffect.grounded hP hs.stores (hs.sessions r hr) h.stores
        (h.sessions r hr) hkeeps
      refine ⟨hstores, fun r' hr' ↦ ?_⟩
      rcases List.mem_or_eq_of_mem_set hr' with hr' | rfl
      · exact (h.sessions r' hr').mono h.stores.legible heffect.messages_grow
      · exact htransaction
  | writeSnapshot place =>
    rw [System.step]
    cases hplace : s.stores.queue[place]? with
    | none => exact h
    | some w =>
      have hw := List.mem_of_getElem? hplace
      have hrest : Stores.Each (s.stores.tables.SnapshotOf E registry)
          { s.stores with queue := s.stores.queue.eraseIdx place } := hshelves
      refine h.of_stores (Stores.tables_runWrite registry _ w) ?_
        (hrest.runWrite registry fun text hpack ↦ ?_)
      · rw [Stores.queue_runWrite]
        exact List.eraseIdx_subset
      · exact ⟨w.snapshot, hback w hw text hpack, rfl, h.stores.queue w hw⟩
  | deleteSnapshots target ids =>
    rw [System.step]
    cases hremove : (s.stores.shelf target.shelf).remove target.options ids with
    | error fault => exact h
    | ok shelf =>
      exact h.of_stores rfl (List.Subset.refl _)
        (hshelves.setShelf target.shelf ((hshelves target.shelf).remove hremove))
  | renumber numbering => exact h.of_stores rfl (List.Subset.refl _) hshelves

/-- Every run keeps the system grounded in which each message is recorded as it should be. -/
theorem grounded_run (hP : ∀ e c, P e c → UnpacksBack registry c.delta)
    {events : List (Event D A)} (h : Faithful E registry events)
    (hkeeps : ∀ event ∈ events, event.Keeps P) :
    (run registry events : System E D A).Grounded registry P := by
  have hboth : (run registry events : System E D A).Coherent registry ∧
      (run registry events : System E D A).Grounded registry P :=
    run_induction registry (fun s ↦ s.Coherent registry ∧ s.Grounded registry P)
      ⟨.empty, .empty⟩
      (fun s event hevent hback hs ↦
        ⟨hs.1.step hback event, hs.2.step hP hs.1 hback (hkeeps event hevent)⟩) h
  exact hboth.2

end System

end Chronicle
