import Chronicle.Proofs.Transaction
import Chronicle.Repository.Basic

/-!
# What committing does

A commit offers all pending messages as one source. If the store takes it nothing is pending any
more, and otherwise all of it is pending again as it was (`commit_cases`). Snapshots are queued of
states that were committed, and of no others.
-/

namespace Chronicle.Repository

variable {E D A : Type}

/-! ### Queued snapshots -/

variable [Snapshot E D]

theorem queueSnapshot_cases (r : Repository E D A) (stores : Stores E) (next : E) :
    ∃ writes queued tickets,
      r.queueSnapshot stores next =
        ({ r with writes }, { stores with queue := stores.queue ++ queued, tickets }) ∧
      ∀ w ∈ queued, r.shelf = some w.target ∧ w.snapshot = next := by
  have hnone : (r, stores) = ({ r with writes := r.writes },
      { stores with queue := stores.queue ++ [], tickets := stores.tickets }) := by
    rw [List.append_nil]
  rw [queueSnapshot]
  split
  · exact ⟨_, [], _, hnone, by simp⟩
  case h_2 target htarget =>
    split
    · exact ⟨_, [⟨stores.tickets, target, next⟩], _, rfl, by simp [htarget]⟩
    · exact ⟨_, [], _, hnone, by simp⟩

/-- Taking note of what was committed queues snapshots of known states for the shelf of the session,
if it has one, and touches nothing else of the stores, nor the transaction. -/
theorem foldl_noteCommitted_cases (ids : List Identifier) (r : Repository E D A)
    (stores : Stores E) :
    ∃ baselines writes queued tickets,
      ids.foldl noteCommitted (r, stores) =
        ({ r with baselines, writes },
          { stores with queue := stores.queue ++ queued, tickets }) ∧
      ∀ w ∈ queued, r.shelf = some w.target ∧
        ∃ X ∈ ids, r.transaction.get? X = some w.snapshot := by
  induction ids generalizing r stores with
  | nil => exact ⟨r.baselines, r.writes, [], stores.tickets, by simp, by simp⟩
  | cons X ids ih =>
    have hnote : ∃ baselines writes queued tickets,
        noteCommitted (r, stores) X =
          ({ r with baselines, writes },
            { stores with queue := stores.queue ++ queued, tickets }) ∧
        ∀ w ∈ queued, r.shelf = some w.target ∧ r.transaction.get? X = some w.snapshot := by
      rw [noteCommitted]
      split
      · exact ⟨r.baselines, r.writes, [], stores.tickets, by simp, by simp⟩
      case h_2 next hnext =>
        obtain ⟨writes, queued, tickets, hqueue, hsnapshot⟩ := r.queueSnapshot_cases stores next
        rw [hqueue]
        refine ⟨_, writes, queued, tickets, rfl, fun w hw ↦ ?_⟩
        obtain ⟨htarget, rfl⟩ := hsnapshot w hw
        exact ⟨htarget, hnext⟩
    obtain ⟨baselines, writes, queued, tickets, hnote, hqueued⟩ := hnote
    obtain ⟨baselines', writes', queued', tickets', hrest, hqueued'⟩ :=
      ih { r with baselines, writes } { stores with queue := stores.queue ++ queued, tickets }
    refine ⟨baselines', writes', queued ++ queued', tickets', ?_, ?_⟩
    · rw [List.foldl_cons, hnote, hrest, List.append_assoc]
    · intro w hw
      rcases List.mem_append.1 hw with hw | hw
      · obtain ⟨htarget, hw⟩ := hqueued w hw
        exact ⟨htarget, X, List.mem_cons_self, hw⟩
      · obtain ⟨htarget, Y, hY, hw⟩ := hqueued' w hw
        exact ⟨htarget, Y, List.mem_cons_of_mem X hY, hw⟩

/-! ### Offers -/

variable [Packable D] [Packable A]

/-- The source that a session offers when it commits. -/
def offered (r : Repository E D A) (stores : Stores E) : Source D A :=
  (r.transaction.build r.agent stores.numbering.nextSource.1).1

omit [Snapshot E D] [Packable D] [Packable A] in
theorem changes_offered (r : Repository E D A) (stores : Stores E) :
    (r.offered stores).changes = r.transaction.changes :=
  r.transaction.changes_build r.agent _

/-- What lets a commit get as far as the store. -/
structure Offers (r : Repository E D A) (cancelled : Bool) : Prop where
  /-- The agent is obtained. -/
  agent : r.mishaps.agent = none
  /-- The operation is not cancelled, at once or while the agent is asked for. -/
  cancelled : cancelled = false ∧ r.mishaps.cancelInAgent = false
  /-- The store can be reached. -/
  store : r.mishaps.commit = none

/-- What a commit leaves that the store takes: nothing is pending, and the tables are those after
the source. Only snapshots of entities with messages in it are queued, for the shelf of the session.
-/
structure Takes (r : Repository E D A) (stores : Stores E) (tables : Tables)
    (state : Repository E D A × Stores E) : Prop where
  transaction : state.1.transaction = r.transaction.clear
  options : state.1.options = r.options
  shelf : state.1.shelf = r.shelf
  tables : state.2.tables = tables
  shelves : state.2.shelves = stores.shelves
  queue : ∃ queued, state.2.queue = stores.queue ++ queued ∧
    ∀ w ∈ queued, r.shelf = some w.target ∧
      ∃ X, r.transaction.get? X = some w.snapshot ∧ r.transaction.claims X ≠ []

/-- What is left when something comes to nothing: the session, of which only the mishaps that it met
are over, with the same messages pending, and the stores, which have at most numbered a source. -/
structure Keeps (r : Repository E D A) (stores : Stores E) (state : Repository E D A × Stores E) :
    Prop where
  session : ∃ mishaps, state.1 = { r with mishaps }
  stores : ∃ numbering, state.2 = { stores with numbering }

omit [Snapshot E D] [Packable D] [Packable A] in
theorem keeps_of_mishaps (r : Repository E D A) (stores : Stores E) (mishaps : Mishaps) :
    r.Keeps stores ({ r with mishaps }, stores) :=
  ⟨⟨mishaps, rfl⟩, stores.numbering, rfl⟩

omit [Snapshot E D] in
/-- The store is reached unless a mishap prevents it. -/
theorem handOver_cases (r : Repository E D A) (stores : Stores E) (s : Source D A) :
    (∃ tables, r.mishaps.commit = none ∧ (stores.tables.commit r.options s).outcome = .ok tables ∧
      (r.handOver stores s).value = ⟨.ok tables, r⟩) ∨
    ((r.mishaps.commit = none → ∀ tables,
        (stores.tables.commit r.options s).outcome ≠ .ok tables) ∧
      ∃ fault mishaps, (r.handOver stores s).value = ⟨.error fault, { r with mishaps }⟩) := by
  rw [handOver]
  cases hmishap : r.mishaps.commit with
  | some fault => exact .inr ⟨nofun, fault, _, rfl⟩
  | none =>
    rw [Logged.bind_value, Attempt.run_value]
    cases hcommit : (stores.tables.commit r.options s).outcome with
    | ok tables => exact .inl ⟨tables, rfl, rfl, rfl⟩
    | error fault => exact .inr ⟨nofun, fault, r.mishaps, rfl⟩

omit [Snapshot E D] [Packable D] [Packable A] in
/-- An entity with a message in the source that is offered has pending messages. -/
theorem claims_ne_nil (r : Repository E D A) (stores : Stores E) {X : Identifier}
    (hX : X ∈ distinct ((r.offered stores).entityPointers.map (·.id))) :
    r.transaction.claims X ≠ [] := by
  rw [mem_distinct, Source.entityPointers, List.map_map, List.mem_map] at hX
  obtain ⟨m, hm, rfl⟩ := hX
  have hclaim : m.expectedPrevious.toNat ∈ claimsOf m.entityId (r.offered stores).changes := by
    rw [claimsOf, Source.changes, List.map_map, mem_versionsOf]
    exact ⟨_, List.mem_map.2 ⟨m, hm, rfl⟩, rfl⟩
  rw [changes_offered] at hclaim
  exact List.ne_nil_of_mem hclaim

theorem offer_cases (r : Repository E D A) (stores : Stores E) :
    (∃ tables, r.mishaps.commit = none ∧
      (stores.tables.commit r.options (r.offered stores)).outcome = .ok tables ∧
      (r.offer stores r.agent).value.result = .ok true ∧
      r.Takes stores tables (r.offer stores r.agent).value.state) ∨
    ((r.mishaps.commit = none → ∀ tables,
        (stores.tables.commit r.options (r.offered stores)).outcome ≠ .ok tables) ∧
      (r.offer stores r.agent).value.result ≠ .ok true ∧
      r.Keeps stores (r.offer stores r.agent).value.state) := by
  have hoffered : (r.transaction.build r.agent stores.numbering.nextSource.1).1 =
      r.offered stores := rfl
  rw [offer]
  dsimp only
  rw [hoffered, Transaction.transaction_build, Logged.bind_value]
  obtain ⟨tables, hmishap, hcommit, hvalue⟩ | ⟨hrefused, fault, mishaps, hvalue⟩ :=
    { r with transaction := r.transaction.clear }.handOver_cases
      { stores with numbering := stores.numbering.nextSource.2 } (r.offered stores)
  · left
    rw [hvalue]
    obtain ⟨baselines, writes, queued, tickets, hstate, hqueued⟩ :=
      foldl_noteCommitted_cases (distinct ((r.offered stores).entityPointers.map (·.id)))
        { r with transaction := r.transaction.clear }
        { stores with tables, numbering := stores.numbering.nextSource.2 }
    refine ⟨tables, hmishap, hcommit, rfl, ?_⟩
    simp only [Logged.bind_value, Logged.pure_value]
    rw [hstate]
    refine ⟨rfl, rfl, rfl, rfl, rfl, queued, rfl, fun w hw ↦ ?_⟩
    obtain ⟨htarget, X, hX, hknown⟩ := hqueued w hw
    exact ⟨htarget, X, hknown, r.claims_ne_nil stores hX⟩
  -- Whether the fault counts as a rejection decides the answer, not what is left.
  · right
    rw [hvalue]
    have hrestored : r.transaction.clear.restore (r.offered stores).messages = r.transaction :=
      r.transaction.restore_build r.agent stores.numbering.nextSource.1
    dsimp only
    rw [hrestored]
    refine ⟨hrefused, ?_⟩
    split
    · exact ⟨nofun, ⟨mishaps, rfl⟩, _, rfl⟩
    · exact ⟨nofun, ⟨mishaps, rfl⟩, _, rfl⟩

/-- With nothing pending a commit is done as it begins. -/
theorem commit_of_pending_eq_nil {r : Repository E D A} (hnone : r.transaction.pending = [])
    (stores : Stores E) (cancelled : Bool) :
    r.commit stores cancelled = pure ⟨.ok true, (r, stores)⟩ := by
  have hhas : r.transaction.hasPending = false :=
    Bool.eq_false_iff.2 fun h ↦ Transaction.hasPending_iff.1 h hnone
  rw [commit, hhas]
  rfl

/-- A commit of pending messages answers that it committed them when they get to the store and the
store takes them. Otherwise it comes to nothing. -/
theorem commit_cases (r : Repository E D A) (stores : Stores E) (cancelled : Bool)
    (hpending : r.transaction.pending ≠ []) :
    (∃ tables, r.Offers cancelled ∧
      (stores.tables.commit r.options (r.offered stores)).outcome = .ok tables ∧
      (r.commit stores cancelled).value.result = .ok true ∧
      r.Takes stores tables (r.commit stores cancelled).value.state) ∨
    ((r.Offers cancelled → ∀ tables,
        (stores.tables.commit r.options (r.offered stores)).outcome ≠ .ok tables) ∧
      (r.commit stores cancelled).value.result ≠ .ok true ∧
      r.Keeps stores (r.commit stores cancelled).value.state) := by
  rw [commit, Transaction.hasPending_iff.2 hpending, Bool.not_true, if_neg Bool.false_ne_true]
  cases hcancelled : cancelled with
  | true =>
    right
    refine ⟨fun h ↦ ?_, nofun, r.keeps_of_mishaps stores r.mishaps⟩
    cases h.cancelled.1
  | false =>
    rw [if_neg Bool.false_ne_true]
    cases hagent : r.mishaps.agent with
    | some fault =>
      right
      simp only [askAgent, hagent]
      exact ⟨fun h ↦ absurd (h.agent.symm.trans hagent) nofun, nofun, r.keeps_of_mishaps stores _⟩
    | none =>
      simp only [askAgent, hagent]
      cases hmeanwhile : r.mishaps.cancelInAgent with
      | true =>
        right
        exact ⟨fun h ↦ absurd (h.cancelled.2.symm.trans hmeanwhile) nofun, nofun,
          r.keeps_of_mishaps stores _⟩
      | false =>
        rw [if_neg Bool.false_ne_true]
        -- The mishaps that the agent was asked under are over; nothing else has changed.
        obtain ⟨tables, hstore, hcommit, hresult, htakes⟩ | ⟨hrefused, hresult, hkeeps⟩ :=
          { r with mishaps := { r.mishaps with agent := none, cancelInAgent := false } }.offer_cases
            stores
        · exact .inl ⟨tables, ⟨hagent, ⟨rfl, hmeanwhile⟩, hstore⟩, hcommit, hresult,
            htakes.1, htakes.2, htakes.3, htakes.4, htakes.5, htakes.6⟩
        · exact .inr ⟨fun h ↦ hrefused h.store, hresult, hkeeps.1, hkeeps.2⟩

/-- A commit that does not commit comes to nothing, whether it is given up before the messages are
offered or not. -/
theorem commit_keeps (r : Repository E D A) (stores : Stores E) (cancelled : Bool)
    (h : (r.commit stores cancelled).value.result ≠ .ok true) :
    r.Keeps stores (r.commit stores cancelled).value.state := by
  by_cases hpending : r.transaction.pending = []
  · rw [commit_of_pending_eq_nil hpending] at h
    exact absurd rfl h
  · obtain ⟨tables, -, -, hresult, -⟩ | ⟨-, -, hkeeps⟩ := r.commit_cases stores cancelled hpending
    · exact absurd hresult h
    · exact hkeeps

end Chronicle.Repository
