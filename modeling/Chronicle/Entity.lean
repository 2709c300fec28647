import Chronicle.Envelope.Payload
import Chronicle.Source

/-!
# Entities

An entity is what its deltas make of it: it is constructed, and then reduced by one delta after
the other. An entity that is also a payload can be kept as a snapshot, a shortcut past the deltas
that led to it.
-/

namespace Chronicle

/-- States `E` that deltas `D` reduce. -/
class Entity (E : Type) (D : outParam Type) where
  /-- The state that has not been reduced yet. -/
  construct : Identifier → E
  entityId : E → Identifier
  version : E → Version
  /-- The state after a delta. -/
  reduce : E → D → E
  /-- The leases that a state holds. -/
  leases : E → List Lease := fun _ ↦ []
  /-- The tags that a state is found by. -/
  tags : E → List Tag := fun _ ↦ []

namespace Entity

variable {E D : Type} [Entity E D]

/-- The pointer to a state. -/
def pointer (e : E) : Pointer := ⟨entityId e, version e⟩

/-- The state after some deltas, in order. -/
def replay (e : E) (deltas : List D) : E := deltas.foldl reduce e

end Entity

/-- What the engine relies on: a constructed entity has version zero, and each delta leads to the
next version of the same entity. -/
class LawfulEntity (E : Type) {D : outParam Type} [Entity E D] : Prop where
  entityId_construct : ∀ id : Identifier, Entity.entityId (Entity.construct id : E) = id
  version_construct : ∀ id : Identifier, Entity.version (Entity.construct id : E) = .zero
  entityId_reduce : ∀ (e : E) (d : D), Entity.entityId (Entity.reduce e d) = Entity.entityId e
  version_reduce : ∀ (e : E) (d : D), Entity.version (Entity.reduce e d) = (Entity.version e).next

/-- Entities whose states can be kept. -/
class Snapshot (E : Type) (D : outParam Type) extends Entity E D, Payload E where
  /-- Whether a state that was just committed is worth keeping, given the last state that the
  session knew before, if any. -/
  shouldPut : Option E → E → Bool
  /-- Whether a state replaces a kept one. By default a newer version does, so that a writer that
  comes late does not replace a newer state by an older. -/
  shouldReplace : E → E → Bool := fun next kept ↦ version kept < version next

end Chronicle
