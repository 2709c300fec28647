import Chronicle.Workspace.Basic

/-!
# Steps of a workspace

A step names what it works on. It answers or fails, and leaves the workspace changed; a step that
names something that is not open is no step of the workspace at all.
-/

namespace Chronicle.Inventory

/-- What a repository can be asked to do. -/
inductive RepositoryStep where
  | create (entityId : Identifier)
  | tryLoad (pointer : Pointer) (cancelled : Bool)
  | get (entityId : Identifier)
  | append (entityId : Identifier) (delta : Delta)
  | attach (entityId : Identifier) (attachment : Transaction.Attachment)
  | commit (cancelled : Bool)
  | getCurrent (entityId : Identifier) (cancelled : Bool)
  | getAtVersion (entityId : Identifier) (version : Version) (cancelled : Bool)
  /-- Writes all waiting snapshots and lets go of the writes. -/
  | flush
  | pendingWrites
  /-- Changes the agent or its time stamp, and says what goes wrong next. -/
  | control (signature : Option Signature) (timeStamp : Option TimeStamp) (mishaps : Mishaps)

/-- What a transaction can be asked to do. -/
inductive TransactionStep where
  /-- The entity of a view of a single entity. -/
  | entityId (entityId : Identifier)
  | create (entityId : Identifier) (delta : Delta)
  | load (entityId : Identifier) (item : Item)
  | append (entityId : Identifier) (delta : Delta)
  | appendOrCreate (entityId : Identifier) (delta : Delta)
  | attach (entityId : Identifier) (attachment : Transaction.Attachment)
  | find (entityId : Identifier)
  | get (entityId : Identifier)
  | isKnown (entityId : Identifier)
  | hasPending
  | describe
  /-- Builds a source and keeps it under a name. -/
  | build (agent : Agent Signature) (sourceId : Identifier) (source : String)

/-- What can be asked of the plain entities. -/
inductive PlainStep where
  | append (entityId : Identifier) (delta : AltDelta)
  | find (entityId : Identifier)
  | build (agent : Agent Signature) (sourceId : Identifier)

/-- A step of a workspace. -/
inductive Step where
  | openSession (name parent : String) (options : SessionOptions)
  | commit (session : String) (source : Source (Delta ⊕ AltDelta) (Signature ⊕ AltDelta))
  | commitBuilt (session source : String)
  | read (session : String) (family : Family) (reading : Reading) (φ : Facet)
      (query : Query Registry φ)
  | showSession (session : String)
  | showShelf (shelf : String)
  | showRegistry (session : String)
  | openShelf (shelf session : String)
  | openShelfSession (shelf parent : String) (options : SessionOptions)
  | putSnapshot (shelf : String) (id : Identifier) (item : Item)
  | getSnapshot (shelf : String) (id : Identifier)
  | deleteSnapshots (shelf : String) (ids : List Identifier)
  | settle
  | openRepository (name session : String) (shelf : Option String) (agent : Agent Signature)
  | repository (name : String) (step : RepositoryStep)
  | transaction (name : String) (step : TransactionStep)
  | plain (step : PlainStep)

/-- What a step leaves. -/
abbrev StepOutcome := Outcome Workspace Answer

namespace Workspace

/-- The workspace after an answer. -/
def answer (w : Workspace) (a : Answer) : Logged StepOutcome := pure ⟨.ok a, w⟩

/-- The workspace after an attempt that changes it if it succeeds. -/
def conclude {α : Type} (w : Workspace) (x : Attempt α) (next : α → Workspace × Answer) :
    Logged StepOutcome := do
  match ← x.run with
  | .error fault => pure ⟨.error fault, w⟩
  | .ok a => pure ⟨.ok (next a).2, (next a).1⟩

/-! ### Repositories -/

/-- The workspace with a repository under a name. -/
def setRepository (w : Workspace) (name : String) (r : ItemRepository) : Workspace :=
  { w with repositories := Keyed.insert name r w.repositories }

/-- A step that may change the repository and nothing else. -/
def updateRepository (w : Workspace) (name : String)
    (x : Except Fault ItemRepository) : Logged StepOutcome :=
  w.conclude (.ofExcept x) fun r ↦ (w.setRepository name r, .unit)

/-- A step that reads the stores for a repository. -/
def readRepository {α : Type} (w : Workspace) (name : String)
    (x : Logged (Outcome ItemRepository α)) (answer : α → Answer) : Logged StepOutcome := do
  let ⟨result, r⟩ ← x
  pure ⟨result.map answer, w.setRepository name r⟩

/-- Writes all waiting snapshots. -/
def settle (w : Workspace) : Logged Workspace := do
  pure { w with stores := ← w.stores.settle w.registry }

/-- A repository as it goes into a commit: if its messages will be offered to the store, they have
numbers. -/
def prepareCommit (w : Workspace) (r : ItemRepository) (cancelled : Bool) :
    ItemRepository × Numbering :=
  if cancelled || r.mishaps.agent.isSome || r.mishaps.cancelInAgent then (r, w.stores.numbering)
  else
    let (transaction, numbering) := numberPending w.stores.numbering r.transaction
    ({ r with transaction }, numbering)

/-- A step of a repository. -/
def repositoryStep (w : Workspace) (name : String) (r : ItemRepository) :
    RepositoryStep → Logged StepOutcome
  | .create entityId => w.updateRepository name (r.create entityId)
  | .tryLoad pointer cancelled =>
    w.readRepository name (r.tryLoad w.registry w.stores cancelled pointer) .bool
  | .get entityId => w.conclude (.ofExcept (r.get entityId)) fun item ↦ (w, .item item)
  | .append entityId delta => w.updateRepository name (r.append entityId delta .nil)
  | .attach entityId attachment => w.updateRepository name (r.attach entityId attachment)
  | .commit cancelled => do
    let (r, numbering) := w.prepareCommit r cancelled
    let ⟨result, r, stores⟩ ← r.commit { w.stores with numbering } cancelled
    pure ⟨result.map .bool, { w.setRepository name r with stores }⟩
  | .getCurrent entityId cancelled =>
    w.readRepository name (r.getCurrent w.registry w.stores cancelled entityId) .item
  | .getAtVersion entityId version cancelled =>
    w.readRepository name (r.getAtVersion w.registry w.stores cancelled entityId version) .item
  | .flush => do
    let w ← w.settle
    let r := r.forgetWrites
    pure ⟨.ok (.count r.writes.length), w.setRepository name r⟩
  | .pendingWrites => w.answer (.count r.writes.length)
  | .control signature timeStamp mishaps =>
    let agent := ⟨timeStamp.getD r.agent.timeStamp, signature.getD r.agent.signature⟩
    (w.setRepository name { r with agent, mishaps }).answer .unit

/-! ### Transactions -/

/-- The workspace with a transaction under a name. -/
def setTransaction (w : Workspace) (name : String) (t : Transaction Item Delta) : Workspace :=
  { w with transactions := Keyed.insert name t w.transactions }

/-- A step that may change the transaction and nothing else. -/
def updateTransaction (w : Workspace) (name : String) (x : Except Fault (Transaction Item Delta)) :
    Logged StepOutcome :=
  w.conclude (.ofExcept x) fun t ↦ (w.setTransaction name t, .unit)

/-- A step of a transaction. -/
def transactionStep (w : Workspace) (name : String) (t : Transaction Item Delta) :
    TransactionStep → Logged StepOutcome
  | .entityId entityId => w.answer (.identifier entityId)
  | .create entityId delta => w.updateTransaction name (t.create entityId delta .nil)
  | .load entityId item => w.updateTransaction name (t.load entityId item)
  | .append entityId delta => w.updateTransaction name (t.append entityId delta .nil)
  | .appendOrCreate entityId delta =>
    w.updateTransaction name (t.appendOrCreate entityId delta .nil)
  | .attach entityId attachment => w.updateTransaction name (t.attach entityId attachment.apply)
  | .find entityId => w.answer (.item? (t.get? entityId))
  | .get entityId => w.conclude (.ofExcept (t.get entityId)) fun item ↦ (w, .item item)
  | .isKnown entityId => w.answer (.bool (t.isKnown entityId))
  | .hasPending => w.answer (.bool t.hasPending)
  | .describe => w.answer (.text t.text)
  | .build agent sourceId source =>
    let (t, numbering) := numberPending w.stores.numbering t
    let (built, t) := t.build agent sourceId
    let w := w.setTransaction name t
    { w with
      stores.numbering := numbering
      sources := Keyed.insert source built w.sources }.answer (.source (showSource built))

/-- A step of the plain entities. -/
def plainStep (w : Workspace) : PlainStep → Logged StepOutcome
  | .append entityId delta =>
    w.conclude (.ofExcept (w.plain.appendOrCreate entityId delta .nil)) fun plain ↦
      ({ w with plain }, .unit)
  | .find entityId => w.answer (.pointer? ((w.plain.get? entityId).map Entity.pointer))
  | .build agent sourceId =>
    let (plain, numbering) := numberPending w.stores.numbering w.plain
    let (built, plain) := plain.build agent sourceId
    { w with plain, stores.numbering := numbering }.answer (.source (showSource built))

/-! ### Stores -/

/-- Commits a source in a session. -/
def commitSource {D A : Type} [Packable D] [Packable A] (w : Workspace) (options : SessionOptions)
    (s : Source D A) : Logged StepOutcome :=
  w.conclude (w.stores.tables.commit options s) fun tables ↦
    ({ w with stores.tables := tables }, .unit)

/-- A step, if all that it names is open. -/
def step? (w : Workspace) : Step → Option (Logged StepOutcome)
  | .openSession name parent options => do
    let _ ← Keyed.lookup parent w.sessions
    pure ({ w with sessions := Keyed.insert name options w.sessions }.answer (.session options))
  | .commit session s => do
    pure (w.commitSource (← Keyed.lookup session w.sessions) s)
  | .commitBuilt session source => do
    let options ← Keyed.lookup session w.sessions
    pure (w.commitSource options (← Keyed.lookup source w.sources))
  | .read session family reading _ query => do
    let _ ← Keyed.lookup session w.sessions
    pure (w.conclude (w.read family reading query) (w, ·))
  | .showSession session => do
    let options ← Keyed.lookup session w.sessions
    pure (w.answer (.text ("MemoryStore \x7b options: " ++ options.text ++ " \x7d")))
  | .showShelf shelf => do
    let target ← Keyed.lookup shelf w.shelves
    pure (w.answer (.text ("MemorySnapshotStore \x7b options: " ++ target.options.text ++ " \x7d")))
  | .showRegistry session => do
    let _ ← Keyed.lookup session w.sessions
    pure (w.answer (.text w.registry.text))
  | .openShelf shelf session => do
    let options ← Keyed.lookup session w.sessions
    let (n, stores) := w.stores.openShelf
    pure ({ w with stores, shelves := Keyed.insert shelf ⟨n, options⟩ w.shelves }.answer .unit)
  | .openShelfSession shelf parent options => do
    let target ← Keyed.lookup parent w.shelves
    pure ({ w with
      shelves := Keyed.insert shelf { target with options } w.shelves }.answer .unit)
  | .putSnapshot shelf id item => do
    let target ← Keyed.lookup shelf w.shelves
    pure (w.conclude ((w.stores.shelf target.shelf).write w.registry target.options id item)
      fun (stored, shelf) ↦
        ({ w with stores := w.stores.setShelf target.shelf shelf }, .bool stored))
  | .getSnapshot shelf id => do
    let target ← Keyed.lookup shelf w.shelves
    pure (w.conclude ((w.stores.shelf target.shelf).read Item w.registry id) fun item ↦
      (w, .item? item))
  | .deleteSnapshots shelf ids => do
    let target ← Keyed.lookup shelf w.shelves
    pure (w.conclude (.ofExcept ((w.stores.shelf target.shelf).remove target.options ids))
      fun shelf ↦ ({ w with stores := w.stores.setShelf target.shelf shelf }, .bool true))
  | .settle => some do (← w.settle).answer .unit
  | .openRepository name session shelf agent => do
    let options ← Keyed.lookup session w.sessions
    let target ← match shelf with
      | none => some none
      | some shelf => (Keyed.lookup shelf w.shelves).map some
    let r : ItemRepository := { options, shelf := target, agent }
    pure ((w.setRepository name r).answer (.repository target.isSome options))
  | .repository name step => do
    pure (w.repositoryStep name (← Keyed.lookup name w.repositories) step)
  | .transaction name step =>
    some (w.transactionStep name ((Keyed.lookup name w.transactions).getD {}) step)
  | .plain step => some (w.plainStep step)

end Workspace

end Chronicle.Inventory
