import Chronicle.Envelope.Basic
import Chronicle.Proofs.Fallible

/-!
# Two ways to read an envelope

An envelope is read with a report of all that goes wrong (`Envelope.unpack`), and silently, where it
is no fault if it belongs to another type of payloads (`Envelope.unpack?`). The two are written
apart, down to the search of the chain for a resolver that accepts. They read the same: the silent
way gives what the other does where that one succeeds, and nothing where it fails
(`toOption_outcome_unpack`).
-/

namespace Chronicle

variable {R T : Type}

namespace Chain

/-- The first resolver to accept decides, whether those ahead of it decline or fail. -/
theorem outcome_resolve (chain : Chain T) (headers : Headers) :
    (chain.resolve headers).outcome =
      (chain.resolve? headers).elim (.error (.resolutionFailed headers)) .ok := by
  obtain ⟨resolvers⟩ := chain
  rw [resolve, resolve?]
  induction resolvers with
  | nil => rfl
  | cons resolver rest ih =>
    rw [resolveFrom, List.findSome?_cons]
    cases resolver.verdict headers with
    | accepted decoder => rfl
    | declined => exact ih
    | failed =>
      simp only [Attempt.outcome_bind, Attempt.outcome_report, Except.ok_bind]
      exact ih

end Chain

namespace Envelope

variable [Payload T] [Resolves R T]

/-- Read silently, an envelope gives what it gives with a report, less the fault. -/
theorem toOption_outcome_unpack (registry : R) (e : Envelope) :
    (e.unpack T registry).outcome.toOption = e.unpack? T registry := by
  rw [unpack, unpack?, Attempt.outcome_bind, Chain.outcome_resolve]
  cases (chainOf registry T).resolve? e.headers with
  | none => rfl
  | some decoder =>
    show Except.toOption (Attempt.outcome _) = decoder e.value
    cases decoder e.value <;> rfl

end Envelope

end Chronicle
