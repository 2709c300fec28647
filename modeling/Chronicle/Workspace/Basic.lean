import Chronicle.Inventory.Registry
import Chronicle.Repository.Basic

/-!
# Workspaces

A workspace is one set of stores of the inventory with what has been opened on it, each under a
name: sessions, sessions on shelves, repositories, transactions and the sources that were built.
Opening a name again replaces what it stood for. A store session is `main` from the start, and any
transaction is there, empty, when it is first used.

Sources and messages are numbered in the order in which a workspace gives them away: a message is
appended under the identifier that is zero, which nothing shows, and gets its number when it is
first offered to the store or built into a source.
-/

namespace Chronicle.Inventory

/-- Things by name. -/
abbrev Named (α : Type) := List (String × α)

/-- The repositories of the inventory. -/
abbrev ItemRepository := Repository Item Delta Signature

/-- The stores of the inventory with what is open on them. -/
structure Workspace where
  registry : Registry
  stores : Stores Item := {}
  sessions : Named SessionOptions := [("main", {})]
  shelves : Named ShelfSession := []
  repositories : Named ItemRepository := []
  transactions : Named (Transaction Item Delta) := []
  plain : Transaction Plain AltDelta := {}
  sources : Named (Source Delta Signature) := []

/-! ### Numbered messages -/

section Numbered

variable {E D : Type}

/-- Messages with the next numbers, in order, for those that have none yet. -/
def numberMessages (n : Numbering) : List (Message D) → List (Message D) × Numbering
  | [] => ([], n)
  | m :: rest =>
    let (id, n) := if m.id = .nil then n.nextMessage else (m.id, n)
    let (rest, n) := numberMessages n rest
    ({ m with id } :: rest, n)

/-- A transaction all of whose messages have numbers. -/
def numberPending (n : Numbering) (t : Transaction E D) : Transaction E D × Numbering :=
  let (pending, n) := numberMessages n t.pending
  ({ t with pending }, n)

end Numbered

/-! ### Shown payloads -/

/-- A payload as it is shown: its type name, and its value if it has one. -/
structure Shown where
  typeName : String
  value : Option Json

/-- How a payload is shown. -/
def Shown.of {T : Type} [Packable T] (payload : T) : Shown :=
  ⟨Packable.typeName payload, Packable.encode payload⟩

/-- A source with its payloads shown. -/
def showSource {D A : Type} [Packable D] [Packable A] (s : Source D A) : Source Shown Shown where
  id := s.id
  timeStamp := s.timeStamp
  agentSignature := .of s.agentSignature
  messages := s.messages.map fun m ↦ m.withDelta (.of m.delta)

/-! ### Answers -/

/-- What a step answers. -/
inductive Answer where
  | unit
  | bool (b : Bool)
  | count (n : Nat)
  | text (s : String)
  | identifier (id : Identifier)
  | item (item : Item)
  | item? (item : Option Item)
  | pointer? (pointer : Option Pointer)
  | session (options : SessionOptions)
  | repository (hasShelf : Bool) (options : SessionOptions)
  | identifiers (ids : List Identifier)
  | payloads (payloads : List Shown)
  | leases (leases : List Lease)
  | tags (tags : List Tag)
  | annotatedSources (sources : List (AnnotatedSource Shown))
  | annotatedMessages (messages : List (AnnotatedMessage Shown))
  | annotatedLeases (leases : List (AnnotatedMessage Lease))
  | annotatedTags (tags : List (AnnotatedMessage Tag))
  | source (source : Source Shown Shown)

/-! ### Reads -/

/-- What a read returns of the records it selects. -/
inductive Reading where
  | sourceIds
  | entityIds
  | data
  | annotated
deriving DecidableEq

namespace Workspace

/-- Reads records, with payloads read as those of a family. -/
def read (w : Workspace) (family : Family) (reading : Reading) :
    {φ : Facet} → Query Registry φ → Attempt Answer
  | _, q =>
    match reading with
    | .sourceIds => pure (.identifiers (w.stores.tables.selectSourceIds w.registry q))
    | .entityIds => pure (.identifiers (w.stores.tables.selectEntityIds w.registry q))
    | .data => data q
    | .annotated => annotated q
where
  tables : Tables := w.stores.tables
  showPayload (payload : family.Carrier) : Shown := .of payload
  data : {φ : Facet} → Query Registry φ → Attempt Answer
    | .source, q => do
      let payloads ← tables.agentSignatures family.Carrier w.registry q
      pure (.payloads (payloads.map showPayload))
    | .entity .message, q => do
      let payloads ← tables.deltas family.Carrier w.registry q
      pure (.payloads (payloads.map showPayload))
    | .entity .lease, q => pure (.leases (tables.heldLeases w.registry q))
    | .entity .tag, q => pure (.tags (tables.heldTags w.registry q))
  annotated : {φ : Facet} → Query Registry φ → Attempt Answer
    | .source, q => do
      let sources ← tables.annotatedAgentSignatures family.Carrier w.registry q
      pure (.annotatedSources (sources.map fun s ↦ { s with data := showPayload s.data }))
    | .entity .message, q => do
      let messages ← tables.annotatedDeltas family.Carrier w.registry q
      pure (.annotatedMessages (messages.map fun m ↦ { m with data := showPayload m.data }))
    | .entity .lease, q => pure (.annotatedLeases (tables.annotatedLeases w.registry q))
    | .entity .tag, q => pure (.annotatedTags (tables.annotatedTags w.registry q))

end Workspace

end Chronicle.Inventory
