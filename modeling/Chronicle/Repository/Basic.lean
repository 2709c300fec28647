import Chronicle.Query.Standard
import Chronicle.Store.Commit
import Chronicle.Store.Read
import Chronicle.Store.Shelf
import Chronicle.Transaction

/-!
# Repositories

A repository is one session of work on entities of one type: it loads them from a store by replaying
their deltas, collects messages in a transaction, and commits these as one source. Any number of
repositories work on the same stores; what one of them knows of an entity may be behind what others
have committed, which its next commit then finds out.

The stores are a value of their own, so that an operation is a function of the repository and the
stores. Snapshots that a commit wants written are queued there, and are written at any later time.
-/

namespace Chronicle

/-! ### The stores -/

/-- A session on a shelf: which one, and the options it was opened with. -/
structure ShelfSession where
  shelf : Nat
  options : SessionOptions
deriving DecidableEq

/-- A snapshot that is waiting to be written. -/
structure SnapshotWrite (E : Type) where
  ticket : Nat
  target : ShelfSession
  snapshot : E

/-- What repositories share: the tables of the source store, the shelves of snapshots, the snapshots
waiting to be written, first come first, the number of tickets given to them, and the numbering of
sources and messages. -/
structure Stores (E : Type) where
  tables : Tables := .empty
  shelves : List Shelf := []
  queue : List (SnapshotWrite E) := []
  tickets : Nat := 0
  numbering : Numbering := {}

namespace Stores

variable {E : Type}

instance : Inhabited (Stores E) := ⟨{}⟩

/-- A shelf; one that was never opened is empty. -/
def shelf (s : Stores E) (n : Nat) : Shelf := s.shelves.getD n .empty

/-- The stores with a shelf replaced. -/
def setShelf (s : Stores E) (n : Nat) (shelf : Shelf) : Stores E :=
  { s with shelves := s.shelves.set n shelf }

/-- Opens an empty shelf. -/
def openShelf (s : Stores E) : Nat × Stores E :=
  (s.shelves.length, { s with shelves := s.shelves ++ [.empty] })

/-- Whether the snapshot of a ticket is still waiting. -/
def isWaiting (s : Stores E) (ticket : Nat) : Bool := s.queue.any (·.ticket = ticket)

/-- Queues a snapshot, and gives its ticket. -/
def enqueue (s : Stores E) (target : ShelfSession) (snapshot : E) : Nat × Stores E :=
  (s.tickets, { s with
    queue := s.queue ++ [⟨s.tickets, target, snapshot⟩]
    tickets := s.tickets + 1 })

/-- Writes one snapshot. A fault is reported and goes no further. -/
def runWrite {R D : Type} [Snapshot E D] [Resolves R E] (registry : R) (s : Stores E)
    (w : SnapshotWrite E) : Logged (Stores E) := do
  let shelf := s.shelf w.target.shelf
  match ← (shelf.write registry w.target.options (Entity.entityId w.snapshot) w.snapshot).run with
  | .ok (stored, shelf) =>
    Logged.report (.snapshotWritten (Entity.version w.snapshot) stored)
    pure (s.setShelf w.target.shelf shelf)
  | .error _ =>
    Logged.report .snapshotFailed
    pure s

/-- Writes all waiting snapshots, first come first. -/
def settle {R D : Type} [Snapshot E D] [Resolves R E] (registry : R) (s : Stores E) :
    Logged (Stores E) :=
  s.queue.foldlM (runWrite registry) { s with queue := [] }

end Stores

/-! ### The repository -/

/-- What goes wrong next in the surroundings of a repository, each once: the next commit that
reaches its store fails, the next read of deltas fails, or the next time the agent is asked for,
this fails or the running operation is cancelled meanwhile. -/
structure Mishaps where
  commit : Option Fault := none
  read : Option Fault := none
  agent : Option Fault := none
  cancelInAgent : Bool := false
deriving DecidableEq, Inhabited

/-- A session of work on entities `E` with deltas `D`, signed by `A`: the options of its session
on the source store, its session on a shelf if it has one, the agent that signs, the transaction,
the state of each entity when it was last loaded or committed, and the tickets of the snapshot
writes it still holds. -/
structure Repository (E D A : Type) where
  options : SessionOptions
  shelf : Option ShelfSession
  agent : Agent A
  transaction : Transaction E D := {}
  baselines : Catalog E := {}
  writes : List Nat := []
  mishaps : Mishaps := {}

/-- The outcome of an operation, with the state it leaves. -/
structure Outcome (σ α : Type) where
  result : Except Fault α
  state : σ

namespace Repository

variable {R E D A : Type}

/-- Constructs an entity, without recording anything. -/
def create [Entity E D] (r : Repository E D A) (entityId : Identifier) :
    Except Fault (Repository E D A) := do
  pure { r with transaction := ← r.transaction.load entityId (Entity.construct entityId) }

/-- The known state of an entity. -/
def get (r : Repository E D A) (entityId : Identifier) : Except Fault E :=
  r.transaction.get entityId

/-- Appends a delta to an entity, in a message with an identifier. -/
def append [Entity E D] (r : Repository E D A) (entityId : Identifier) (delta : D)
    (messageId : Identifier) : Except Fault (Repository E D A) := do
  pure { r with transaction := ← r.transaction.append entityId delta messageId }

/-- Attaches a lease or a tag to the last pending message of an entity. -/
def attach (r : Repository E D A) (entityId : Identifier) (a : Transaction.Attachment) :
    Except Fault (Repository E D A) := do
  pure { r with transaction := ← r.transaction.attach entityId a.apply }

/-! ### Reading -/

section Reading

variable [Snapshot E D] [Resolves R E] [Payload D] [Resolves R D]

/-- Where a replay starts: the snapshot, unless it is newer than asked for, or else the constructed
entity. -/
def startingPoint (r : Repository E D A) (registry : R) (stores : Stores E)
    (entityId : Identifier) (upTo : Option Version) : Attempt E := do
  let kept ← match r.shelf with
    | none => pure none
    | some session => (stores.shelf session.shelf).read E registry entityId
  pure ((kept.filter fun e ↦ upTo.all (Entity.version e ≤ ·)).getD (Entity.construct entityId))

/-- Reduces a state by the committed deltas after it, up to a version if one is given. -/
def replay (r : Repository E D A) (registry : R) (stores : Stores E) (start : E)
    (upTo : Option Version) : Logged (Outcome (Repository E D A) E) :=
  match r.mishaps.read with
  | some fault => pure ⟨.error fault, { r with mishaps.read := none }⟩
  | none => do
    let query := Query.deltas (Entity.entityId start) (Entity.version start) upTo
    match ← (stores.tables.deltas D registry query).run with
    | .error fault => pure ⟨.error fault, r⟩
    | .ok deltas => pure ⟨.ok (Entity.replay start deltas), r⟩

/-- The committed state of an entity, the latest or the one of a version. -/
def reconstruct (r : Repository E D A) (registry : R) (stores : Stores E) (cancelled : Bool)
    (entityId : Identifier) (upTo : Option Version) : Logged (Outcome (Repository E D A) E) :=
  if cancelled then pure ⟨.error .cancelled, r⟩
  else do
    match ← (r.startingPoint registry stores entityId upTo).run with
    | .error fault => pure ⟨.error fault, r⟩
    | .ok start =>
      let ⟨result, r⟩ ← r.replay registry stores start upTo
      match result with
      | .error fault => pure ⟨.error fault, r⟩
      | .ok e =>
        if (Entity.version e).isZero then pure ⟨.error (.notConstructed entityId), r⟩
        else pure ⟨.ok e, r⟩

/-- The latest committed state of an entity. -/
def getCurrent (r : Repository E D A) (registry : R) (stores : Stores E) (cancelled : Bool)
    (entityId : Identifier) : Logged (Outcome (Repository E D A) E) :=
  r.reconstruct registry stores cancelled entityId none

/-- The committed state of an entity at a version, or the latest if it has not got there. -/
def getAtVersion (r : Repository E D A) (registry : R) (stores : Stores E) (cancelled : Bool)
    (entityId : Identifier) (version : Version) : Logged (Outcome (Repository E D A) E) :=
  r.reconstruct registry stores cancelled entityId (some version)

/-! ### Loading -/

/-- Makes a state known and remembers it as the last one loaded. -/
def know (r : Repository E D A) (entityId : Identifier) (e : E) : Repository E D A :=
  { r with
    baselines := r.baselines.put entityId e
    transaction := r.transaction.putKnown e }

/-- The version that a pointer bounds a replay by. -/
def bound (pointer : Pointer) : Option Version :=
  if pointer.version.isZero then none else some pointer.version

/-- Loads an entity from a state on the way to the one asked for. A state of version zero was never
committed. -/
def loadFrom (r : Repository E D A) (registry : R) (stores : Stores E) (cancelled : Bool)
    (pointer : Pointer) (start : E) : Logged (Outcome (Repository E D A) Bool) :=
  if cancelled then pure ⟨.error .cancelled, r⟩
  else do
    let ⟨result, r⟩ ← r.replay registry stores start (bound pointer)
    match result with
    | .error fault => pure ⟨.error fault, r⟩
    | .ok e =>
      if (Entity.version e).isZero || !pointer.isSatisfiedBy (Entity.pointer e) then
        pure ⟨.ok false, r⟩
      else pure ⟨.ok true, r.know pointer.id e⟩

/-- Makes an entity known in the state that a pointer asks for; whether it is. A known state that
will do is kept; a newer one cannot be gone back on; an older one is replayed further. -/
def tryLoad (r : Repository E D A) (registry : R) (stores : Stores E) (cancelled : Bool)
    (pointer : Pointer) : Logged (Outcome (Repository E D A) Bool) :=
  match r.transaction.get? pointer.id with
  | some known =>
    if pointer.isSatisfiedBy (Entity.pointer known) then pure ⟨.ok true, r⟩
    else if pointer.version < Entity.version known then pure ⟨.ok false, r⟩
    else r.loadFrom registry stores cancelled pointer known
  | none =>
    if cancelled then pure ⟨.error .cancelled, r⟩
    else do
      match ← (r.startingPoint registry stores pointer.id (bound pointer)).run with
      | .error fault => pure ⟨.error fault, r⟩
      | .ok start => r.loadFrom registry stores cancelled pointer start

end Reading

/-! ### Committing -/

section Committing

variable [Snapshot E D] [Packable D] [Packable A]

/-- Asks for the agent: its answer, whether the operation was cancelled meanwhile, and the
repository after it. -/
def askAgent (r : Repository E D A) : Except Fault (Agent A) × Bool × Repository E D A :=
  let answer := match r.mishaps.agent with
    | some fault => .error fault
    | none => .ok r.agent
  let mishaps := { r.mishaps with agent := none, cancelInAgent := false }
  (answer, r.mishaps.cancelInAgent, { r with mishaps })

/-- Hands a source to the store. -/
def handOver (r : Repository E D A) (stores : Stores E) (s : Source D A) :
    Logged (Outcome (Repository E D A) Tables) :=
  match r.mishaps.commit with
  | some fault => pure ⟨.error fault, { r with mishaps.commit := none }⟩
  | none => do
    let result ← (stores.tables.commit r.options s).run
    pure ⟨result, r⟩

/-- Queues the snapshot of a state that was just committed, if it is worth keeping, and lets go of
the writes that are done. -/
def queueSnapshot (r : Repository E D A) (stores : Stores E) (next : E) :
    Repository E D A × Stores E :=
  match r.shelf with
  | none => (r, stores)
  | some target =>
    if Snapshot.shouldPut (r.baselines.get? (Entity.entityId next)) next then
      let (ticket, queued) := stores.enqueue target next
      ({ r with writes := r.writes.filter stores.isWaiting ++ [ticket] }, queued)
    else (r, stores)

/-- Takes note that the known state of an entity is committed. -/
def noteCommitted (state : Repository E D A × Stores E) (entityId : Identifier) :
    Repository E D A × Stores E :=
  match state.1.transaction.get? entityId with
  | none => state
  | some next =>
    let (r, stores) := state.1.queueSnapshot state.2 next
    ({ r with baselines := r.baselines.put entityId next }, stores)

/-- Offers the pending messages to the store as one source. If the store does not take it, the
messages are pending again. -/
def offer (r : Repository E D A) (stores : Stores E) (agent : Agent A) :
    Logged (Outcome (Repository E D A × Stores E) Bool) := do
  let (sourceId, numbering) := stores.numbering.nextSource
  let (source, transaction) := r.transaction.build agent sourceId
  let stores := { stores with numbering }
  let ⟨result, r⟩ ← { r with transaction }.handOver stores source
  match result with
  | .error fault =>
    let r := { r with transaction := r.transaction.restore source.messages }
    if fault.isRejection then
      Logged.report .sourceRejected
      pure ⟨.ok false, (r, stores)⟩
    else pure ⟨.error fault, (r, stores)⟩
  | .ok tables =>
    let entityIds := distinct (source.entityPointers.map (·.id))
    let state := entityIds.foldl noteCommitted (r, { stores with tables })
    Logged.report (.sourceCommitted source.messages.length)
    pure ⟨.ok true, state⟩

/-- Commits the pending messages as one source, signed by the agent; whether the store took it. With
nothing pending there is nothing to do. -/
def commit (r : Repository E D A) (stores : Stores E) (cancelled : Bool) :
    Logged (Outcome (Repository E D A × Stores E) Bool) :=
  if !r.transaction.hasPending then pure ⟨.ok true, (r, stores)⟩
  else if cancelled then pure ⟨.error .cancelled, (r, stores)⟩
  else
    let (answer, cancelled, r) := r.askAgent
    match answer with
    | .error fault => pure ⟨.error fault, (r, stores)⟩
    | .ok agent =>
      if cancelled then pure ⟨.error .cancelled, (r, stores)⟩
      else r.offer stores agent

/-- Lets go of all writes. -/
def forgetWrites (r : Repository E D A) : Repository E D A := { r with writes := [] }

end Committing

end Repository

end Chronicle
