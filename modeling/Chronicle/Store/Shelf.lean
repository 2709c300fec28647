import Chronicle.Catalog
import Chronicle.Entity
import Chronicle.Envelope.Wire
import Chronicle.Session

/-!
# Shelves

A shelf keeps the wire text of one snapshot under each identifier. A snapshot put where there is
one replaces it only if it should, which by default means that it is newer, so the order in which
snapshots arrive does not matter.
-/

namespace Chronicle

/-- Wire texts of snapshots. -/
abbrev Shelf := Catalog String

namespace Shelf

variable {R E D : Type} [Snapshot E D] [Resolves R E]

/-- The snapshot under an identifier. -/
def read (E : Type) {D : Type} [Snapshot E D] [Resolves R E] (shelf : Shelf) (registry : R)
    (id : Identifier) : Attempt (Option E) :=
  match shelf.get? id with
  | none => pure none
  | some text => do pure (some (← Envelope.unpackWire E registry (Wire.ofString text)))

/-- Puts a snapshot on a shelf in a session: whether it was stored, and the shelf after it. -/
def write (shelf : Shelf) (registry : R) (options : SessionOptions) (id : Identifier)
    (snapshot : E) : Attempt (Bool × Shelf) :=
  Attempt.inSession options.logLabel do
    if options.readOnly then
      throw .readOnly
    let text ← Envelope.packWire snapshot
    match ← shelf.read E registry id with
    | none => pure (true, shelf.put id text)
    | some kept =>
      if Snapshot.shouldReplace snapshot kept then pure (true, shelf.put id text)
      else do
        Attempt.report (.snapshotKept (Entity.version snapshot))
        pure (false, shelf)

/-- Takes snapshots off a shelf in a session, where some may be missing already. -/
def remove (shelf : Shelf) (options : SessionOptions) (ids : List Identifier) :
    Except Fault Shelf :=
  if options.readOnly then .error .readOnly else .ok (ids.foldl Catalog.erase shelf)

end Shelf

end Chronicle
