import Chronicle.Envelope.Payload
import Chronicle.Log

/-!
# Resolvers of types

A resolver answers the headers of an envelope with the decoder of a payload, or passes. A chain
consults its resolvers from the one registered last to the one registered first, and takes the
first decoder it gets: a later resolver overrides an earlier one. One that fails is passed over
like one that declines, but is reported.

A payload type whose chain is not registered resolves through its default chain, which knows the
declared names.
-/

namespace Chronicle

/-- What a resolver answers. -/
inductive Verdict (α : Type) where
  | accepted (a : α)
  | declined
  | failed

/-- What a verdict accepts. -/
def Verdict.get? {α : Type} : Verdict α → Option α
  | .accepted a => some a
  | _ => none

/-- A verdict that accepts what there is. -/
def Verdict.ofOption {α : Type} : Option α → Verdict α
  | some a => .accepted a
  | none => .declined

/-- A named rule that maps headers to decoders. -/
structure Resolver (T : Type) where
  name : String
  verdict : Headers → Verdict (Decoder T)

/-- Resolves the declared names. -/
def Declared.resolver {T : Type} (declared : Declared T) : Resolver T where
  name := "declared"
  verdict headers := .ofOption (headers.typeName?.bind declared.decoder?)

/-- Resolvers in the order they are consulted. -/
structure Chain (T : Type) where
  resolvers : List (Resolver T)

namespace Chain

variable {T : Type}

/-- The chain that resolves nothing. -/
def empty : Chain T := ⟨[]⟩

/-- Adds a resolver, to be consulted before all others. -/
def register (chain : Chain T) (resolver : Resolver T) : Chain T :=
  ⟨resolver :: chain.resolvers⟩

/-- The chain of the declared names. -/
def standard (T : Type) [Payload T] : Chain T := empty.register (Payload.declared.resolver)

/-- How many resolvers the chain has. -/
def size (chain : Chain T) : Nat := chain.resolvers.length

/-- Whether the chain has no resolver. -/
def isEmpty (chain : Chain T) : Bool := chain.resolvers.isEmpty

/-- The decoder that the first of the resolvers to accept gives for the headers. -/
def resolveFrom (headers : Headers) : List (Resolver T) → Attempt (Decoder T)
  | [] => do
    Attempt.report .headersRefused
    throw (.resolutionFailed headers)
  | resolver :: rest =>
    match resolver.verdict headers with
    | .accepted decoder => pure decoder
    | .declined => resolveFrom headers rest
    | .failed => do
      Attempt.report (.resolverFailed resolver.name)
      resolveFrom headers rest

/-- The decoder for the headers. -/
def resolve (chain : Chain T) (headers : Headers) : Attempt (Decoder T) :=
  resolveFrom headers chain.resolvers

/-- The decoder for the headers, where it is no fault if there is none. Nothing is reported. -/
def resolve? (chain : Chain T) (headers : Headers) : Option (Decoder T) :=
  chain.resolvers.findSome? fun resolver ↦ (resolver.verdict headers).get?

end Chain

/-- Registries that may hold a chain for a payload type. -/
class Resolves (R T : Type) where
  /-- The registered chain, if there is one. -/
  registered? : R → Option (Chain T)

export Resolves (registered?)

/-- The chain that a registry resolves a payload type through. -/
def chainOf {R : Type} (registry : R) (T : Type) [Payload T] [Resolves R T] : Chain T :=
  (registered? registry).getD (Chain.standard T)

end Chronicle
