import Chronicle.Repository.Basic
import Mathlib.Data.List.Induction
import Mathlib.Data.List.Infix

/-!
# Systems of sessions

A system is the stores with any number of sessions on them. Its runs are the interleavings of what
the sessions do: sessions are opened at any time, each acts whenever it likes, and apart from them
waiting snapshots are written, in any order and at any later time, snapshots are taken off their
shelves, and the numbering is moved, so that nothing rests on how identifiers are generated: those
of messages when these are appended, and those of sources when they are offered.

What is asked of snapshots is a condition on a run: each one that ever waits to be written reads
back as the state it was made of (`Faithful`).
-/

namespace Chronicle

variable {R E D A : Type}

/-! ### Actions of a session -/

namespace Repository

/-- What a session can be asked to do, apart from what leaves everything as it is. The last one
changes the agent and says what goes wrong next. -/
inductive Action (D A : Type) where
  | create (entityId : Identifier)
  | tryLoad (pointer : Pointer) (cancelled : Bool)
  | append (entityId : Identifier) (delta : D)
  | attach (entityId : Identifier) (attachment : Transaction.Attachment)
  | commit (cancelled : Bool)
  | getCurrent (entityId : Identifier) (cancelled : Bool)
  | getAtVersion (entityId : Identifier) (version : Version) (cancelled : Bool)
  | forgetWrites
  | control (agent : Agent A) (mishaps : Mishaps)

variable [Snapshot E D] [Resolves R E] [Payload D] [Resolves R D] [Packable A]

/-- The session after an operation, which is as it was if the operation fails. -/
def orSame (r : Repository E D A) : Except Fault (Repository E D A) → Repository E D A
  | .ok r => r
  | .error _ => r

/-- The session and the stores after an action. -/
def act (r : Repository E D A) (registry : R) (stores : Stores E) :
    Action D A → Repository E D A × Stores E
  | .create entityId => (r.orSame (r.create entityId), stores)
  | .tryLoad pointer cancelled =>
    ((r.tryLoad registry stores cancelled pointer).value.state, stores)
  | .append entityId delta =>
    let (messageId, numbering) := stores.numbering.nextMessage
    match r.append entityId delta messageId with
    | .error _ => (r, stores)
    | .ok r => (r, { stores with numbering })
  | .attach entityId attachment => (r.orSame (r.attach entityId attachment), stores)
  | .commit cancelled => (r.commit stores cancelled).value.state
  | .getCurrent entityId cancelled =>
    ((r.getCurrent registry stores cancelled entityId).value.state, stores)
  | .getAtVersion entityId version cancelled =>
    ((r.getAtVersion registry stores cancelled entityId version).value.state, stores)
  | .forgetWrites => (r.forgetWrites, stores)
  | .control agent mishaps => ({ r with agent, mishaps }, stores)

end Repository

/-! ### Systems -/

/-- The stores and the sessions on them. -/
structure System (E D A : Type) where
  stores : Stores E := {}
  sessions : List (Repository E D A) := []

namespace System

/-- What can happen to a system. -/
inductive Event (D A : Type) where
  | openShelf
  | openSession (options : SessionOptions) (shelf : Option ShelfSession) (agent : Agent A)
  | act (session : Nat) (action : Repository.Action D A)
  /-- Writes a snapshot that is waiting, by its place among them. -/
  | writeSnapshot (place : Nat)
  | deleteSnapshots (target : ShelfSession) (ids : List Identifier)
  | renumber (numbering : Numbering)

variable [Snapshot E D] [Resolves R E] [Payload D] [Resolves R D] [Packable A]

/-- The system after an event. -/
def step (registry : R) (s : System E D A) : Event D A → System E D A
  | .openShelf => { s with stores := s.stores.openShelf.2 }
  | .openSession options shelf agent =>
    { s with sessions := s.sessions ++ [{ options, shelf, agent }] }
  | .act session action =>
    match s.sessions[session]? with
    | none => s
    | some r =>
      let (r, stores) := r.act registry s.stores action
      ⟨stores, s.sessions.set session r⟩
  | .writeSnapshot place =>
    match s.stores.queue[place]? with
    | none => s
    | some w =>
      let rest := { s.stores with queue := s.stores.queue.eraseIdx place }
      { s with stores := (rest.runWrite registry w).value }
  | .deleteSnapshots target ids =>
    match (s.stores.shelf target.shelf).remove target.options ids with
    | .error _ => s
    | .ok shelf => { s with stores := s.stores.setShelf target.shelf shelf }
  | .renumber numbering => { s with stores.numbering := numbering }

/-- The system after some events, from empty stores without sessions. -/
def run (registry : R) (events : List (Event D A)) : System E D A :=
  events.foldl (step registry) {}

@[simp] theorem run_nil (registry : R) : run (E := E) registry ([] : List (Event D A)) = {} := rfl

/-- A run with one more event is one more step. -/
theorem run_concat (registry : R) (events : List (Event D A)) (event : Event D A) :
    run (E := E) registry (events ++ [event]) = (run registry events).step registry event := by
  rw [run, List.foldl_append]
  rfl

/-! ### Snapshots that read back -/

/-- A state that can be put on a shelf reads back from it as it was. -/
def ReadsBack (registry : R) (e : E) : Prop :=
  ∀ text, (Envelope.packWire e).outcome = .ok text →
    (Envelope.unpackWire E registry (Wire.ofString text)).outcome = .ok e

omit [Payload D] [Resolves R D] in
theorem readsBack_of_bind {registry : R} {e : E}
    (h : (Envelope.packWire e >>= fun text ↦
      Envelope.unpackWire E registry (Wire.ofString text)).outcome = .ok e) :
    ReadsBack registry e := fun text htext ↦ by
  rwa [Attempt.outcome_bind, htext] at h

/-- All snapshots that ever wait to be written in a run read back. -/
def Faithful (E : Type) {D : Type} [Snapshot E D] [Resolves R E] [Payload D] [Resolves R D]
    (registry : R) (events : List (Event D A)) : Prop :=
  ∀ past, past <+: events →
    ∀ w ∈ (run (E := E) registry past).stores.queue, ReadsBack registry w.snapshot

/-- A run is faithful that only ever takes snapshots of one state, which reads back. -/
theorem faithful_of_inits {registry : R} {e : E} (hback : ReadsBack registry e)
    {events : List (Event D A)}
    (h : ∀ past ∈ events.inits, ∀ w ∈ (run (E := E) registry past).stores.queue, w.snapshot = e) :
    Faithful E registry events := fun past hpast w hw ↦ by
  rw [h past ((List.mem_inits past events).2 hpast) w hw]
  exact hback

/-- An invariant that every step of a faithful run keeps holds after the run. A step may rely on the
snapshots that are waiting to read back. -/
theorem run_induction (registry : R) (motive : System E D A → Prop) (start : motive {})
    {events : List (Event D A)}
    (step : ∀ (s : System E D A), ∀ event ∈ events,
      (∀ w ∈ s.stores.queue, ReadsBack registry w.snapshot) → motive s →
      motive (s.step registry event))
    (h : Faithful E registry events) :
    motive (run registry events) := by
  induction events using List.reverseRecOn with
  | nil => exact start
  | append_singleton past event ih =>
    have hpast : past <+: past ++ [event] := List.prefix_append past [event]
    rw [run_concat]
    refine step _ event (List.mem_append_right past (List.mem_singleton_self event)) (h past hpast)
      (ih (fun s older holder ↦ step s older (List.mem_append_left [event] holder)) ?_)
    exact fun older holder ↦ h older (holder.trans hpast)

end System

end Chronicle
