import Chronicle.Proofs.Sessions.Coherence

/-!
# Optimistic concurrency

Sessions do not lock what they work on. Whether a commit succeeds is decided when it gets to the
store, and exactly by what has been committed until then (`Admissible`): the pending messages of
each entity must follow the end of its log, one after the other, and their leases must fit what is
held. A commit that succeeds appends all of its messages to the logs and removes nothing, and one
that does not leaves the tables as they are and the messages pending (`commit_exact`). What is
committed stays committed (`messages_grow_run`), and so no session ever overwrites what it has not
seen.
-/

namespace Chronicle

variable {R E D A : Type}

namespace Repository

section Admissible

variable [Snapshot E D] [Packable D] [Packable A]

/-- What it takes for a commit of pending messages to succeed. -/
structure Admissible (r : Repository E D A) (stores : Stores E) (cancelled : Bool) : Prop where
  /-- The session writes. -/
  writable : r.options.readOnly = false
  /-- The agent is obtained, nothing is cancelled and the store is reached. -/
  offers : r.Offers cancelled
  signature : Storable r.agent.signature
  deltas : ∀ c ∈ r.transaction.changes, Storable c.delta
  /-- The messages of each entity follow the end of its log, and then each other. -/
  versions : ∀ X, r.transaction.claims X =
    List.range' (stores.tables.committed X) (r.transaction.claims X).length
  /-- No message takes a lease that is held once the deletions so far are done. -/
  leases : Fits stores.tables.holdings r.transaction.changes

/-- What a commit that succeeds does: each pending message is appended to the table of messages, in
order and after all that was there, and the session, which has nothing pending any more, knows the
last version of each entity that it committed. -/
structure Appends (r : Repository E D A) (stores : Stores E) (state : Repository E D A × Stores E) :
    Prop where
  messages : ∃ records, state.2.tables.messages = stores.tables.messages ++ records ∧
    List.Forall₂ Change.StoredAs r.transaction.changes records
  pending : state.1.transaction.pending = []
  known : ∀ X, state.1.transaction.get? X = r.transaction.get? X
  last : ∀ X e, r.transaction.get? X = some e → r.transaction.claims X ≠ [] →
    (Entity.version e).toNat = state.2.tables.committed X

end Admissible

section Exact

variable [Snapshot E D] [Resolves R E] [Payload D] [Packable A]
variable {registry : R} {r : Repository E D A} {stores : Stores E}

/-- The store accepts what a session offers when it continues the logs and its leases fit. -/
theorem exists_commit_iff (hs : stores.Coherent registry)
    (ht : r.transaction.Coheres stores.tables)
    (hfresh : stores.numbering.nextSource.1 ∉ stores.tables.sourceIds)
    (hroom : ∀ X, stores.tables.committed X + (r.transaction.claims X).length < 2 ^ 64)
    {cancelled : Bool} (hoffers : r.Offers cancelled) :
    (∃ tables, (stores.tables.commit r.options (r.offered stores)).outcome = .ok tables) ↔
      r.Admissible stores cancelled := by
  constructor
  · rintro ⟨tables, hcommit⟩
    obtain ⟨hwritable, packed, hpack, hcheck, -⟩ := Tables.commit_eq_ok_iff.1 hcommit
    obtain ⟨hsignature, hdeltas⟩ := Source.exists_pack_iff.1 ⟨packed, hpack⟩
    obtain ⟨-, hcontinues⟩ := continues_of_commit hs ht hcommit
    obtain ⟨-, -, -, hfits⟩ := (Tables.check_eq_ok_iff hs.sound.data_nodup packed).1 hcheck
    refine ⟨hwritable, hoffers, hsignature, ?_, fun X ↦ (hcontinues X).claims, ?_⟩
    · rw [← r.changes_offered stores]
      exact hdeltas
    · rw [← r.changes_offered stores]
      exact (Source.fits_pack_iff hpack _).1 hfits
  · intro h
    have hdeltas := h.deltas
    rw [← r.changes_offered stores] at hdeltas
    obtain ⟨packed, hpack⟩ := Source.exists_pack_iff.2 ⟨h.signature, hdeltas⟩
    have hid : packed.id = stores.numbering.nextSource.1 := (Source.pack_eq_ok_iff.1 hpack).1
    have hclaims : ∀ X, claimsOf X packed.changes = r.transaction.claims X := fun X ↦ by
      rw [Source.claimsOf_pack hpack, changes_offered]
      rfl
    have hcheck : stores.tables.check packed = .ok () := by
      refine Tables.check_of_claims hs.sound hs.gapless (hid ▸ hfresh) (fun X ↦ ?_) (fun X ↦ ?_) ?_
      · rw [hclaims]
        exact h.versions X
      · rw [hclaims]
        exact hroom X
      · rw [Source.fits_pack_iff hpack, changes_offered]
        exact h.leases
    exact ⟨_, Tables.commit_eq_ok_iff.2 ⟨h.writable, packed, hpack, hcheck, rfl⟩⟩

/-- A commit that the store takes appends all that was pending. -/
theorem Takes.appends (hs : stores.Coherent registry) (ht : r.transaction.Coheres stores.tables)
    {tables : Tables} {state : Repository E D A × Stores E}
    (hcommit : (stores.tables.commit r.options (r.offered stores)).outcome = .ok tables)
    (htakes : r.Takes stores tables state) : r.Appends stores state := by
  obtain ⟨-, packed, hpack, -, hwrite⟩ := Tables.commit_eq_ok_iff.1 hcommit
  obtain ⟨records, hmessages, hrecords⟩ := stores.tables.exists_records_write hpack
  obtain ⟨-, hcontinues⟩ := continues_of_commit hs ht hcommit
  rw [changes_offered] at hrecords
  rw [hwrite, ← htakes.tables] at hmessages
  refine ⟨⟨records, hmessages, hrecords⟩, ?_, fun X ↦ ?_, fun X e he hne ↦ ?_⟩
  · rw [htakes.transaction]
    rfl
  · rw [htakes.transaction]
    rfl
  · rw [htakes.tables]
    exact (hcontinues X).known e he hne

end Exact

end Repository

/-! ### Commits in a run -/

section Growth

variable [Snapshot E D] [Resolves R E] [Payload D] [Resolves R D] [Packable A]

/-- An action leaves the tables as they are, or what the session has pending is committed. -/
theorem Repository.Effect.tables_cases {registry : R} {r : Repository E D A}
    {stores stores' : Stores E} {action : Action D A} {t : Transaction E D}
    (h : r.Effect registry stores action t stores') :
    stores'.tables = stores.tables ∨
      (stores.tables.commit r.options (r.offered stores)).outcome = .ok stores'.tables := by
  cases h with
  | kept _ _ | constructed _ | loaded _ | appended _ _ _ _ | attached _ => exact .inl rfl
  | committed hcommit htakes => exact .inr (htakes.tables ▸ hcommit)

omit [Payload D] in
/-- A commit removes no message. -/
theorem Tables.messages_grow [Packable D] {t t' : Tables} {options : SessionOptions}
    {s : Source D A} (h : (t.commit options s).outcome = .ok t') :
    t.messages <+: t'.messages := by
  obtain ⟨-, packed, -, -, rfl⟩ := Tables.commit_eq_ok_iff.1 h
  obtain ⟨records, hmessages, -⟩ := Tables.exists_messages_write t packed
  rw [hmessages]
  exact List.prefix_append _ _

theorem Repository.Effect.messages_grow {registry : R} {r : Repository E D A}
    {stores stores' : Stores E} {action : Action D A} {t : Transaction E D}
    (h : r.Effect registry stores action t stores') :
    stores.tables.messages <+: stores'.tables.messages := by
  obtain heq | hcommit := h.tables_cases
  · rw [heq]
  · exact Tables.messages_grow hcommit

namespace System

/-- An event leaves the tables as they are, or what one of the sessions has pending is committed. -/
theorem tables_step_cases (registry : R) (s : System E D A) (event : Event D A) :
    (s.step registry event).stores.tables = s.stores.tables ∨
      ∃ r ∈ s.sessions, (s.stores.tables.commit r.options (r.offered s.stores)).outcome =
        .ok (s.step registry event).stores.tables := by
  cases event with
  | openShelf | openSession _ _ _ | renumber _ => exact .inl rfl
  | act session action =>
    rw [System.step]
    cases hsession : s.sessions[session]? with
    | none => exact .inl rfl
    | some r =>
      obtain heq | hcommit := (r.act_effect registry s.stores action).tables_cases
      · exact .inl heq
      · exact .inr ⟨r, List.mem_of_getElem? hsession, hcommit⟩
  | writeSnapshot place =>
    rw [System.step]
    cases s.stores.queue[place]? with
    | none => exact .inl rfl
    | some w => exact .inl (Stores.tables_runWrite registry _ w)
  | deleteSnapshots target ids =>
    unfold System.step
    dsimp only
    cases (s.stores.shelf target.shelf).remove target.options ids with
    | error fault => exact .inl rfl
    | ok shelf => exact .inl rfl

/-- No event removes a committed message. -/
theorem messages_grow_step (registry : R) (s : System E D A) (event : Event D A) :
    s.stores.tables.messages <+: (s.step registry event).stores.tables.messages := by
  obtain heq | ⟨r, -, hcommit⟩ := s.tables_step_cases registry event
  · rw [heq]
  · exact Tables.messages_grow hcommit

/-- Whatever happens, the tables are those that commits lead to. -/
theorem reachable_run (registry : R) (events : List (Event D A)) :
    Tables.Reachable (run (E := E) registry events).stores.tables := by
  induction events using List.reverseRecOn with
  | nil => exact .empty
  | append_singleton past event ih =>
    rw [run_concat]
    obtain heq | ⟨r, -, hcommit⟩ := (run (E := E) registry past).tables_step_cases registry event
    · rw [heq]
      exact ih
    · have hreach := Tables.Reachable.commit r.options (r.offered (run registry past).stores) ih
      rwa [Tables.attempt, hcommit] at hreach

/-- What is committed at some point of a run is committed from then on. -/
theorem messages_grow_run (registry : R) (past future : List (Event D A)) :
    (run (E := E) registry past).stores.tables.messages <+:
      (run (E := E) registry (past ++ future)).stores.tables.messages := by
  induction future using List.reverseRecOn with
  | nil => rw [List.append_nil]
  | append_singleton future event ih =>
    rw [← List.append_assoc, run_concat]
    exact ih.trans (messages_grow_step registry _ event)

end System

end Growth

namespace System

variable [Snapshot E D] [LawfulEntity E] [Resolves R E] [Payload D] [Resolves R D] [Packable A]
variable {registry : R}

/-- **Optimistic concurrency is exact, and no update is lost.** However sessions have interleaved, a
commit of pending messages under a new identifier succeeds exactly when it is admissible. It then
appends these messages to those that are committed, where they stay whatever happens afterwards;
otherwise they stay pending, and the tables and snapshots are as they were. -/
theorem commit_exact {events : List (Event D A)} (h : Faithful E registry events) {i : Nat}
    {r : Repository E D A} (hr : (run registry events).sessions[i]? = some r)
    (hpending : r.transaction.pending ≠ []) (cancelled : Bool)
    (hfresh : (run (E := E) registry events).stores.numbering.nextSource.1 ∉
      (run (E := E) registry events).stores.tables.sourceIds)
    (hroom : ∀ X, (run (E := E) registry events).stores.tables.committed X +
      (r.transaction.claims X).length < 2 ^ 64) :
    let stores := (run (E := E) registry events).stores
    let commit := (r.commit stores cancelled).value
    (commit.result = .ok true ↔ r.Admissible stores cancelled) ∧
      (commit.result = .ok true → r.Appends stores commit.state) ∧
      (commit.result ≠ .ok true → r.Keeps stores commit.state) ∧
      ∀ future, commit.state.2.tables.messages <+:
        (run (E := E) registry
          (events ++ .act i (.commit cancelled) :: future)).stores.tables.messages := by
  intro stores commit
  have hcoherent := coherent_run (A := A) h
  have hs := hcoherent.stores
  have ht := hcoherent.sessions r (List.mem_of_getElem? hr)
  -- The commit is the next step of the run, after which messages are only added.
  have hgrows : ∀ future, commit.state.2.tables.messages <+:
      (run (E := E) registry
        (events ++ .act i (.commit cancelled) :: future)).stores.tables.messages := fun future ↦ by
    have hstep : (run (E := E) registry (events ++ [.act i (.commit cancelled)])).stores =
        commit.state.2 := by
      rw [run_concat, step, hr]
      rfl
    rw [List.append_cons, ← hstep]
    exact messages_grow_run (E := E) registry _ future
  obtain ⟨tables, hoffers, hcommit, hresult, htakes⟩ | ⟨hrefused, hresult, hkeeps⟩ :=
    r.commit_cases stores cancelled hpending
  · have hadmissible : r.Admissible stores cancelled :=
      (Repository.exists_commit_iff hs ht hfresh hroom hoffers).1 ⟨tables, hcommit⟩
    exact ⟨iff_of_true hresult hadmissible, fun _ ↦ htakes.appends hs ht hcommit,
      fun h ↦ absurd hresult h, hgrows⟩
  · have hinadmissible : ¬ r.Admissible stores cancelled := fun hadmissible ↦ by
      obtain ⟨tables, hcommit⟩ :=
        (Repository.exists_commit_iff hs ht hfresh hroom hadmissible.offers).2 hadmissible
      exact hrefused hadmissible.offers tables hcommit
    exact ⟨iff_of_false hresult hinadmissible, fun h ↦ absurd h hresult, fun _ ↦ hkeeps, hgrows⟩

section Contested

open Inventory

/-- Once two versions of entity 7 are committed, session 0 has a message pending that follows the
second and session 1 still the one that follows none. The former succeeds and the latter does not.
-/
theorem commit_exact_contested :
    let s := run (E := Item) ({} : Registry) contested
    ∃ ahead behind, s.sessions[0]? = some ahead ∧ s.sessions[1]? = some behind ∧
      (ahead.Admissible s.stores false ∧
        ahead.Appends s.stores (ahead.commit s.stores false).value.state) ∧
      (¬ behind.Admissible s.stores false ∧
        behind.Keeps s.stores (behind.commit s.stores false).value.state) := by
  intro s
  have hroom : ∀ r ∈ s.sessions, ∀ X,
      s.stores.tables.committed X + (r.transaction.claims X).length < 2 ^ 64 := fun r hr X ↦ by
    have hmessages : s.stores.tables.messages.length = 2 := by decide +kernel
    have hpending : ∀ r ∈ s.sessions, r.transaction.changes.length = 1 := by decide +kernel
    have hcommitted := s.stores.tables.committed_le X
    have hclaims := length_claimsOf_le X r.transaction.changes
    rw [hpending r hr] at hclaims
    rw [Transaction.claims]
    omega
  have hpending : ∀ r ∈ s.sessions, r.transaction.pending ≠ [] := by decide +kernel
  have hfresh : s.stores.numbering.nextSource.1 ∉ s.stores.tables.sourceIds := by decide +kernel
  have hresults : s.sessions.map (fun r ↦ (r.commit s.stores false).value.result) =
      [.ok true, .ok false] := by
    decide +kernel
  obtain ⟨ahead, behind, hsessions⟩ : ∃ ahead behind, s.sessions = [ahead, behind] :=
    List.length_eq_two.1 (by decide +kernel)
  have hahead : s.sessions[0]? = some ahead := by rw [hsessions, List.getElem?_cons_zero]
  have hbehind : s.sessions[1]? = some behind := by
    rw [hsessions, List.getElem?_cons_succ, List.getElem?_cons_zero]
  have hmem₀ := List.mem_of_getElem? hahead
  have hmem₁ := List.mem_of_getElem? hbehind
  rw [hsessions] at hresults
  obtain ⟨hsucceeds, hfails⟩ : (ahead.commit s.stores false).value.result = .ok true ∧
      (behind.commit s.stores false).value.result = .ok false := by
    simpa using hresults
  have hfailed : (behind.commit s.stores false).value.result ≠ .ok true := by
    rw [hfails]
    nofun
  obtain ⟨hiff, happends, -, -⟩ := commit_exact faithful_contested hahead (hpending ahead hmem₀)
    false hfresh (hroom ahead hmem₀)
  obtain ⟨hiff', -, hkeeps, -⟩ := commit_exact faithful_contested hbehind (hpending behind hmem₁)
    false hfresh (hroom behind hmem₁)
  exact ⟨ahead, behind, hahead, hbehind, ⟨hiff.1 hsucceeds, happends hsucceeds⟩,
    mt hiff'.2 hfailed, hkeeps hfailed⟩

end Contested

end System

end Chronicle
