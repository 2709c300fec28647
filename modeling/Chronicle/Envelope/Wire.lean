import Chronicle.Envelope.Basic
import Chronicle.Json.Document

/-!
# Envelopes on the wire

An envelope is written as a compact JSON object of its headers and its value. It is read from such
an object, whose members may stand in any order and among others that are passed over, or from an
array of the two. Members that are passed over must be JSON, but what they hold is not judged; of
the two that count neither may be missing or repeated.
-/

namespace Chronicle.Envelope

open Json (Document)

/-- The headers as a value. -/
def headersToJson (headers : Headers) : Json :=
  .object (headers.entries.map fun e ↦ (e.1, .string e.2))

/-- An envelope as a value. -/
def toJson (e : Envelope) : Json :=
  .object [("headers", headersToJson e.headers), ("value", e.value)]

/-- The wire text of an envelope. -/
def wire (e : Envelope) : String := e.toJson.render

/-- The headers of a document: an object of strings. -/
def headersOf? : Document → Option Headers
  | .object members => do
    let entries ← members.mapM fun member ↦ do
      match member.1, member.2 with
      | some key, .string (some text) => pure (key, text)
      | _, _ => none
    pure (.ofList entries)
  | _ => none

/-- The value of a document inside an envelope, which is itself a container. -/
def valueOf? (document : Document) : Option Json := document.toJson? (Json.nestingLimit - 1)

/-- The only member of this key. -/
def onlyMember? (key : String) (members : List (Option String × Document)) : Option Document :=
  match members.filter (·.1 = some key) with
  | [member] => some member.2
  | _ => none

/-- The envelope of a document. -/
def ofDocument? : Document → Option Envelope
  | .array [headers, value] => do
    pure ⟨← headersOf? headers, ← valueOf? value⟩
  | .object members => do
    guard (members.all (·.1.isSome))
    let headers ← onlyMember? "headers" members
    let value ← onlyMember? "value" members
    pure ⟨← headersOf? headers, ← valueOf? value⟩
  | _ => none

/-- The type name that a fault about unreadable bytes carries. -/
def wireTypeName : String := "deltadb::envelope::Envelope"

/-- Reads an envelope. -/
def ofWire (text : Wire) : Attempt Envelope :=
  match (Document.read? text).bind ofDocument? with
  | some e => pure e
  | none => do
    Attempt.report .envelopeUnreadable
    throw (.deserializationFailed wireTypeName)

/-- Reads a payload from the wire text of its envelope. -/
def unpackWire {R : Type} (T : Type) [Payload T] [Resolves R T] (registry : R) (text : Wire) :
    Attempt T := do
  unpack T registry (← ofWire text)

/-- The wire text of the envelope of a payload. -/
def packWire {T : Type} [Packable T] (payload : T) : Attempt String := do
  pure (← pack payload).wire

end Chronicle.Envelope
