import Chronicle.Envelope.Resolver

/-!
# Envelopes

An envelope is a packed payload: headers that name its type, and its bare value. A payload that
has no value, or whose value is `null`, cannot be put in an envelope, because a store could not
tell it from a missing payload.
-/

namespace Chronicle

/-- A packed payload. -/
structure Envelope where
  headers : Headers
  value : Json

namespace Envelope

variable {R T : Type}

/-- The name that faults about reading the payload of an envelope carry. -/
def shownType (e : Envelope) : String := e.headers.typeName?.getD ""

/-- Puts a payload in an envelope. -/
def pack [Packable T] (payload : T) : Attempt Envelope :=
  match encode payload with
  | some value =>
    if value.isNull then refuse else pure ⟨.ofTypeName (typeName payload), value⟩
  | none => refuse
where
  refuse : Attempt Envelope := do
    Attempt.report (.packingFailed (typeName payload))
    throw (.serializationFailed (typeName payload))

/-- Reads a payload out of its envelope. -/
def unpack (T : Type) [Payload T] [Resolves R T] (registry : R) (e : Envelope) : Attempt T := do
  let decoder ← (chainOf registry T).resolve e.headers
  match decoder e.value with
  | some payload => pure payload
  | none =>
    Attempt.report .unpackingFailed
    throw (.deserializationFailed e.shownType)

/-- Reads a payload out of its envelope if it belongs to the type. Nothing is reported. -/
def unpack? (T : Type) [Payload T] [Resolves R T] (registry : R) (e : Envelope) : Option T := do
  let decoder ← (chainOf registry T).resolve? e.headers
  decoder e.value

end Envelope

end Chronicle
