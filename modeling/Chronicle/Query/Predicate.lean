import Chronicle.Envelope.Payload

/-!
# Predicates of payloads

Conditions on a payload that do not depend on its type: on the name of its variant, and on a
member of its value.
-/

namespace Chronicle

/-- How a member compares with a value. -/
inductive Comparison where
  | eq
  | lt
  | gt
deriving DecidableEq

/-- A condition on a payload. -/
inductive Predicate where
  | const (b : Bool)
  | typeIs (name : String)
  | member (key : String) (comparison : Comparison) (value : Json)

/-- Whether a member compares with a value. Only unsigned integers are ordered. -/
def Comparison.holds (c : Comparison) (actual value : Json) : Bool :=
  match c with
  | .eq => actual == value
  | .lt => ordered fun a b ↦ a < b
  | .gt => ordered fun a b ↦ b < a
where
  ordered (r : UInt64 → UInt64 → Bool) : Bool :=
    match actual.uint64?, value.uint64? with
    | some a, some b => r a b
    | _, _ => false

/-- Whether a payload satisfies a predicate. A payload without a value has no members. -/
def Predicate.holds {T : Type} [Packable T] (p : Predicate) (payload : T) : Bool :=
  match p with
  | .const b => b
  | .typeIs name => typeName payload = name
  | .member key c value =>
    match (encode payload).bind (Json.member? key) with
    | some actual => c.holds actual value
    | none => false

end Chronicle
