import Chronicle.Identifier
import Chronicle.Version

/-!
# Pointers

A pointer names one state of one entity, or its latest state when its version is zero.
-/

namespace Chronicle

/-- A reference to a state of an entity; version zero refers to whatever is latest. -/
structure Pointer where
  id : Identifier
  version : Version
deriving DecidableEq, Inhabited

namespace Pointer

/-- The pointer to the latest state. -/
def latest (id : Identifier) : Pointer := ⟨id, .zero⟩

/-- Whether an actual state is one that the pointer asks for. -/
def isSatisfiedBy (pointer actual : Pointer) : Bool :=
  pointer.id = actual.id && (pointer.version.isZero || pointer.version = actual.version)

theorem isSatisfiedBy_iff {pointer actual : Pointer} :
    pointer.isSatisfiedBy actual = true ↔
      pointer.id = actual.id ∧ (pointer.version = .zero ∨ pointer.version = actual.version) := by
  simp [isSatisfiedBy]

/-- The identifier and the version, with an at sign between. -/
def text (pointer : Pointer) : String := pointer.id.text ++ "@" ++ pointer.version.text

end Pointer

end Chronicle
