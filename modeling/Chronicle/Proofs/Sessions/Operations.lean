import Chronicle.Proofs.Query.Reads
import Chronicle.Proofs.Sessions.Committing
import Chronicle.Proofs.Sessions.Loading
import Chronicle.Proofs.Sessions.System

/-!
# Operations and their answers

What can be asked of a system of sessions, and what it answers (`System.perform`): actions of its
sessions, and besides them commits and reads in sessions on the source store itself, and what can be
asked of sessions on shelves. Who signs, what goes wrong and how sources and messages are numbered
is not for the system to decide, so each action comes with its surroundings, which last as long as
the action does.

An operation that fails, or is answered by *no*, leaves the system as it was, stores and sessions
alike (`perform_unsuccessful`). An operation that would have to wait is not begun with a cancelled
token (`perform_cancelled`).
-/

namespace Chronicle

variable {R E D A : Type}

/-! ### Answers -/

/-- What an operation can answer. -/
inductive Reply (R E : Type) : Type 1 where
  | done
  | whether (b : Bool)
  | count (n : Nat)
  | state (e : E)
  | state? (e : Option E)
  | found {φ : Facet} (read : Read R φ) (answer : read.Answer)

/-- Whether an operation failed or was answered by *no*. -/
def Unsuccessful : Except Fault (Reply R E) → Bool
  | .error _ => true
  | .ok (.whether b) => !b
  | .ok _ => false

/-! ### Operations -/

/-- What an action of a session does not decide itself: the agent, what goes wrong next, and the
numbering of sources and messages. -/
structure Surroundings (A : Type) where
  agent : Agent A
  mishaps : Mishaps := {}
  numbering : Numbering := {}

/-- What can be asked of a system. -/
inductive Operation (R E D A : Type) : Type 1 where
  | openShelf
  | openSession (options : SessionOptions) (shelf : Option ShelfSession) (agent : Agent A)
  | act (session : Nat) (surroundings : Surroundings A) (action : Repository.Action D A)
  | get (session : Nat) (entityId : Identifier)
  | pendingWrites (session : Nat)
  /-- Writes a snapshot that is waiting, by its place among them. -/
  | writeSnapshot (place : Nat)
  /-- Commits a source of any payloads in a session on the source store. -/
  | commit {D' A' : Type} [Packable D'] [Packable A'] (options : SessionOptions)
      (source : Source D' A')
  | read {φ : Facet} (read : Read R φ) (q : Query R φ)
  | putSnapshot (target : ShelfSession) (id : Identifier) (snapshot : E)
  | getSnapshot (target : ShelfSession) (id : Identifier)
  | deleteSnapshots (target : ShelfSession) (ids : List Identifier)

namespace Repository

variable [Snapshot E D] [Resolves R E] [Payload D] [Resolves R D] [Packable A]

/-- What an action answers. -/
def reply (r : Repository E D A) (registry : R) (stores : Stores E) :
    Action D A → Except Fault (Reply R E)
  | .create entityId => (r.create entityId).map fun _ ↦ .done
  | .tryLoad pointer cancelled =>
    (r.tryLoad registry stores cancelled pointer).value.result.map .whether
  | .append entityId delta =>
    (r.append entityId delta stores.numbering.nextMessage.1).map fun _ ↦ .done
  | .attach entityId attachment => (r.attach entityId attachment).map fun _ ↦ .done
  | .commit cancelled => (r.commit stores cancelled).value.result.map .whether
  | .getCurrent entityId cancelled =>
    (r.getCurrent registry stores cancelled entityId).value.result.map .state
  | .getAtVersion entityId version cancelled =>
    (r.getAtVersion registry stores cancelled entityId version).value.result.map .state
  | .forgetWrites | .control _ _ => .ok .done

/-- The session in other surroundings. -/
def within (r : Repository E D A) (surroundings : Surroundings A) : Repository E D A :=
  { r with agent := surroundings.agent, mishaps := surroundings.mishaps }

/-- The session back in the surroundings of another. -/
def backIn (r original : Repository E D A) : Repository E D A :=
  { r with agent := original.agent, mishaps := original.mishaps }

end Repository

namespace System

variable [Snapshot E D] [Resolves R E] [Payload D] [Resolves R D] [Packable A]

/-- The answer to an operation, and the system after it. What is asked of a session that is not
there, or of a snapshot that is not waiting, comes to nothing. -/
def perform (registry : R) (s : System E D A) :
    Operation R E D A → Except Fault (Reply R E) × System E D A
  | .openShelf => (.ok .done, { s with stores := s.stores.openShelf.2 })
  | .openSession options shelf agent =>
    (.ok .done, { s with sessions := s.sessions ++ [{ options, shelf, agent }] })
  | .act session surroundings action =>
    match s.sessions[session]? with
    | none => (.ok .done, s)
    | some r =>
      let acting := r.within surroundings
      let stores := { s.stores with numbering := surroundings.numbering }
      let after := acting.act registry stores action
      (acting.reply registry stores action,
        ⟨{ after.2 with numbering := s.stores.numbering },
          s.sessions.set session (after.1.backIn r)⟩)
  | .get session entityId =>
    match s.sessions[session]? with
    | none => (.ok .done, s)
    | some r => ((r.get entityId).map .state, s)
  | .pendingWrites session =>
    match s.sessions[session]? with
    | none => (.ok .done, s)
    | some r => (.ok (.count r.writes.length), s)
  | .writeSnapshot place =>
    match s.stores.queue[place]? with
    | none => (.ok .done, s)
    | some w =>
      let rest := { s.stores with queue := s.stores.queue.eraseIdx place }
      (.ok .done, { s with stores := (rest.runWrite registry w).value })
  | @Operation.commit _ _ _ _ _ _ _ _ options source =>
    match (s.stores.tables.commit options source).outcome with
    | .error fault => (.error fault, s)
    | .ok tables => (.ok .done, { s with stores.tables := tables })
  | .read read q =>
    ((read.answer s.stores.tables registry q).outcome.map (.found read), s)
  | .putSnapshot target id snapshot =>
    match ((s.stores.shelf target.shelf).write registry target.options id snapshot).outcome with
    | .error fault => (.error fault, s)
    | .ok (stored, shelf) =>
      (.ok (.whether stored), { s with stores := s.stores.setShelf target.shelf shelf })
  | .getSnapshot target id =>
    (((s.stores.shelf target.shelf).read E registry id).outcome.map .state?, s)
  | .deleteSnapshots target ids =>
    match (s.stores.shelf target.shelf).remove target.options ids with
    | .error fault => (.error fault, s)
    | .ok shelf =>
      (.ok (.whether true), { s with stores := s.stores.setShelf target.shelf shelf })

end System

/-! ### What an unsuccessful operation leaves -/

namespace Repository

variable [Snapshot E D]

section Actions

variable [Resolves R E] [Payload D] [Resolves R D] [Packable A]
variable (r : Repository E D A) (registry : R) (stores : Stores E)

/-- An action that is unsuccessful comes to nothing. -/
theorem act_keeps (action : Action D A) (h : Unsuccessful (r.reply registry stores action) = true) :
    r.Keeps stores (r.act registry stores action) := by
  have hsame : ∀ {r' : Repository E D A}, (∃ mishaps, r' = { r with mishaps }) →
      r.Keeps stores (r', stores) := by
    rintro _ ⟨mishaps, rfl⟩
    exact r.keeps_of_mishaps stores mishaps
  -- An action that changes the session fails if it is unsuccessful.
  have hfailed : ∀ {result : Except Fault (Repository E D A)},
      Unsuccessful (result.map fun _ ↦ (Reply.done : Reply R E)) = true →
        r.Keeps stores (r.orSame result, stores) := by
    rintro (fault | r') hresult
    · exact hsame ⟨r.mishaps, rfl⟩
    · cases hresult
  -- Of the actions that answer whether they did something, only those that did answer yes.
  have hwhether : ∀ {result : Except Fault Bool},
      Unsuccessful (result.map (Reply.whether (R := R) (E := E))) = true → result ≠ .ok true := by
    rintro _ hresult rfl
    cases hresult
  cases action with
  | create X => exact hfailed h
  | tryLoad pointer cancelled =>
    obtain ⟨mishaps, hstate | ⟨e, -, hvalue⟩⟩ := r.tryLoad_cases registry stores cancelled pointer
    · exact hsame ⟨mishaps, hstate⟩
    · exact absurd (congrArg (·.result) hvalue) (hwhether h)
  | append X delta =>
    rw [reply] at h
    simp only [act]
    cases happend : r.append X delta stores.numbering.nextMessage.1 with
    | error fault => exact hsame ⟨r.mishaps, rfl⟩
    | ok r' =>
      rw [happend] at h
      cases h
  | attach X attachment => exact hfailed h
  | commit cancelled => exact r.commit_keeps stores cancelled (hwhether h)
  | getCurrent X cancelled => exact hsame (r.reconstruct_cases registry stores cancelled X none)
  | getAtVersion X version cancelled =>
    exact hsame (r.reconstruct_cases registry stores cancelled X (some version))
  | forgetWrites => cases h
  | control agent mishaps => cases h

end Actions

/-- Whether a load has to read: the entity is not known, or in a state that is behind the one asked
for. -/
def MustRead (r : Repository E D A) (pointer : Pointer) : Prop :=
  ∀ known, r.transaction.get? pointer.id = some known →
    ¬ pointer.isSatisfiedBy (Entity.pointer known) ∧ ¬ pointer.version < Entity.version known

end Repository

/-- An element in its own place changes nothing. -/
theorem set_of_getElem? {α : Type} {xs : List α} {n : Nat} {x : α} (h : xs[n]? = some x) :
    xs.set n x = xs := by
  obtain ⟨hlt, rfl⟩ := List.getElem?_eq_some_iff.1 h
  exact List.set_getElem_self hlt

theorem Stores.setShelf_shelf (s : Stores E) (n : Nat) : s.setShelf n (s.shelf n) = s := by
  have hset : s.shelves.set n (s.shelf n) = s.shelves := by
    cases hn : s.shelves[n]? with
    | none => exact List.set_eq_of_length_le (List.getElem?_eq_none_iff.1 hn)
    | some shelf =>
      rw [Stores.shelf, List.getD_eq_getElem?_getD, hn]
      exact set_of_getElem? hn
  rw [setShelf, hset]

/-- A snapshot that is not stored leaves its shelf as it was. -/
theorem Shelf.eq_of_write [Snapshot E D] [Resolves R E] {registry : R} {shelf shelf' : Shelf}
    {options : SessionOptions} {id : Identifier} {snapshot : E}
    (h : (shelf.write registry options id snapshot).outcome = .ok (false, shelf')) :
    shelf' = shelf := by
  rw [write, Attempt.outcome_inSession] at h
  cases hreadOnly : options.readOnly with
  | true => simp [hreadOnly] at h
  | false =>
    simp only [hreadOnly, Bool.false_eq_true, if_false, Attempt.outcome_bind,
      Except.bind_eq_ok_iff] at h
    obtain ⟨text, -, kept, -, hwrite⟩ := h
    cases kept with
    | none => cases hwrite
    | some kept =>
      dsimp only at hwrite
      split at hwrite
      · cases hwrite
      · cases hwrite
        rfl

namespace System

variable [Snapshot E D] [Resolves R E] [Payload D] [Resolves R D] [Packable A]
variable (registry : R) (s : System E D A)

/-- **What an unsuccessful operation leaves.** The system as it was. -/
theorem perform_unsuccessful (op : Operation R E D A)
    (h : Unsuccessful (s.perform registry op).1 = true) : (s.perform registry op).2 = s := by
  cases op with
  | openShelf => cases h
  | openSession options shelf agent => cases h
  | act session surroundings action =>
    rw [perform] at h ⊢
    cases hsession : s.sessions[session]? with
    | none => rfl
    | some r =>
      rw [hsession] at h
      obtain ⟨⟨mishaps, hafter⟩, numbering, hstores⟩ := (r.within surroundings).act_keeps registry
        { s.stores with numbering := surroundings.numbering } action h
      -- The mishaps that are over were those of the surroundings, and so was the numbering.
      have hback : Repository.backIn { r.within surroundings with mishaps } r = r := rfl
      dsimp only
      rw [hafter, hstores, hback, set_of_getElem? hsession]
  | get session X =>
    rw [perform]
    split
    · rfl
    · rfl
  | pendingWrites session =>
    rw [perform]
    split
    · rfl
    · rfl
  | writeSnapshot place =>
    rw [perform] at h
    split at h
    · cases h
    · cases h
  | commit options source =>
    rw [perform] at h ⊢
    split at h
    · rfl
    · cases h
  | read read q => rfl
  | putSnapshot target id snapshot =>
    rw [perform] at h ⊢
    split at h
    · rfl
    case h_2 stored shelf hstored =>
      obtain rfl : stored = false := by simpa [Unsuccessful] using h
      dsimp only
      rw [Shelf.eq_of_write hstored, Stores.setShelf_shelf]
  | getSnapshot target id => rfl
  | deleteSnapshots target ids =>
    rw [perform] at h ⊢
    split at h
    · rfl
    · cases h

variable {s} in
theorem fst_perform_act {session : Nat} {r : Repository E D A}
    (hsession : s.sessions[session]? = some r) (surroundings : Surroundings A)
    (action : Repository.Action D A) :
    (s.perform registry (.act session surroundings action)).1 =
      (r.within surroundings).reply registry
        { s.stores with numbering := surroundings.numbering } action := by
  rw [perform, hsession]

/-- **Nothing is begun with a cancelled token.** A commit with anything pending, a load that has to
read and the reads of committed states then answer that they were cancelled, whatever the
surroundings. -/
theorem perform_cancelled {session : Nat} {r : Repository E D A}
    (hsession : s.sessions[session]? = some r) (surroundings : Surroundings A) :
    (r.transaction.pending ≠ [] →
      (s.perform registry (.act session surroundings (.commit true))).1 = .error .cancelled) ∧
    (∀ pointer, r.MustRead pointer →
      (s.perform registry (.act session surroundings (.tryLoad pointer true))).1 =
        .error .cancelled) ∧
    (∀ X, (s.perform registry (.act session surroundings (.getCurrent X true))).1 =
      .error .cancelled) ∧
    (∀ X version, (s.perform registry
      (.act session surroundings (.getAtVersion X version true))).1 = .error .cancelled) := by
  simp only [fst_perform_act registry hsession]
  refine ⟨fun hpending ↦ ?_, fun pointer hmust ↦ ?_, fun X ↦ rfl, fun X version ↦ rfl⟩
  · have hhas : (r.within surroundings).transaction.hasPending = true :=
      Transaction.hasPending_iff.2 hpending
    rw [Repository.reply, Repository.commit, hhas]
    rfl
  · rw [Repository.reply, Repository.tryLoad]
    cases hknown : r.transaction.get? pointer.id with
    | none =>
      have hknown' : (r.within surroundings).transaction.get? pointer.id = none := hknown
      rw [hknown']
      rfl
    | some known =>
      obtain ⟨hunsatisfied, hbehind⟩ := hmust known hknown
      have hknown' : (r.within surroundings).transaction.get? pointer.id = some known := hknown
      simp only [hknown', hunsatisfied, hbehind]
      rfl

end System

end Chronicle
