import Chronicle.Inventory.Item
import Chronicle.Inventory.Registry
import Chronicle.Proofs.Sessions.Operations

/-!
# Erasing unsuccessful operations

What is left of a run when its unsuccessful operations are erased is a run of its own: every
operation in it is successful again, gives the same answer, and the run ends in the same system
(`erase`). An operation has its surroundings in both runs, and with them the time stamp of the
source that it commits and the identifiers of the source or the message that it makes. Besides
these no choice is left, so that answers and systems are compared as they are.

All of it rests on one fact about single operations, `perform_unsuccessful`: the operation that is
erased leaves the system in which the next one would begin without it.
-/

namespace Chronicle.System

variable {R E D A : Type} [Snapshot E D] [Resolves R E] [Payload D] [Resolves R D] [Packable A]

/-! ### Runs of operations -/

/-- What some operations answer, one after the other. -/
def transcript (registry : R) (s : System E D A) :
    List (Operation R E D A) → List (Operation R E D A × Except Fault (Reply R E))
  | [] => []
  | op :: ops =>
    (op, (s.perform registry op).1) :: (s.perform registry op).2.transcript registry ops

/-- The system after some operations. -/
def performAll (registry : R) (s : System E D A) (ops : List (Operation R E D A)) :
    System E D A :=
  ops.foldl (fun s op ↦ (s.perform registry op).2) s

/-- The successful ones among some operations, with what they answer. -/
def successes (registry : R) (s : System E D A) (ops : List (Operation R E D A)) :
    List (Operation R E D A × Except Fault (Reply R E)) :=
  (s.transcript registry ops).filter fun entry ↦ !Unsuccessful entry.2

section Cons

variable {registry : R} {s : System E D A} {op : Operation R E D A}

/-- An unsuccessful operation has no part in the successes, nor in those that come after it. -/
theorem successes_cons_of_unsuccessful (h : Unsuccessful (s.perform registry op).1 = true)
    (ops : List (Operation R E D A)) :
    s.successes registry (op :: ops) = s.successes registry ops := by
  rw [successes, transcript, List.filter_cons_of_neg (by simp [h]),
    s.perform_unsuccessful registry op h, successes]

theorem successes_cons_of_successful (h : Unsuccessful (s.perform registry op).1 = false)
    (ops : List (Operation R E D A)) :
    s.successes registry (op :: ops) =
      (op, (s.perform registry op).1) :: (s.perform registry op).2.successes registry ops := by
  rw [successes, transcript, List.filter_cons_of_pos (by simp [h]), successes]

end Cons

/-- The successful operations of a run answer the same on their own, and lead to the same system. -/
theorem erase (registry : R) (s : System E D A) (ops : List (Operation R E D A)) :
    let erased := (s.successes registry ops).map (·.1)
    s.transcript registry erased = s.successes registry ops ∧
      s.performAll registry erased = s.performAll registry ops := by
  induction ops generalizing s with
  | nil => exact ⟨rfl, rfl⟩
  | cons op ops ih =>
    cases hop : Unsuccessful (s.perform registry op).1 with
    | true =>
      have hafter : s.performAll registry (op :: ops) = s.performAll registry ops := by
        rw [performAll, List.foldl_cons, s.perform_unsuccessful registry op hop, performAll]
      rw [successes_cons_of_unsuccessful hop, hafter]
      exact ih s
    | false =>
      obtain ⟨hanswers, hafter⟩ := ih (s.perform registry op).2
      rw [successes_cons_of_successful hop]
      exact ⟨congrArg (_ :: ·) hanswers, hafter⟩

/-- **Unsuccessful operations are invisible.** Whatever the state of the stores and of the sessions
on them, an operation that fails or is answered by *no* leaves everything as it was. So when all
unsuccessful operations are erased from a run, the others answer the same and leave the same system,
with the identifiers and time stamps that their surroundings give them. And with a cancelled token
no commit with anything pending, no load that has to read and no read of a committed state is begun.
-/
theorem unsuccessful_invisible (registry : R) (s : System E D A) :
    (∀ op, Unsuccessful (s.perform registry op).1 → (s.perform registry op).2 = s) ∧
    (∀ ops,
      let erased := (s.successes registry ops).map (·.1)
      s.transcript registry erased = s.successes registry ops ∧
        s.performAll registry erased = s.performAll registry ops) ∧
    (∀ session r surroundings, s.sessions[session]? = some r →
      (r.transaction.pending ≠ [] →
        (s.perform registry (.act session surroundings (.commit true))).1 = .error .cancelled) ∧
      (∀ pointer, r.MustRead pointer →
        (s.perform registry (.act session surroundings (.tryLoad pointer true))).1 =
          .error .cancelled) ∧
      (∀ X, (s.perform registry (.act session surroundings (.getCurrent X true))).1 =
        .error .cancelled) ∧
      (∀ X version, (s.perform registry
        (.act session surroundings (.getAtVersion X version true))).1 = .error .cancelled)) :=
  ⟨s.perform_unsuccessful registry, erase registry s,
    fun _ _ surroundings hsession ↦ s.perform_cancelled registry hsession surroundings⟩

section Retried

open Inventory

/-- Surroundings in which nothing goes wrong. -/
def calm : Surroundings Signature := { agent := ⟨default, .system⟩ }

/-- A session that has changed entity 7. -/
def changed : System Item Delta Signature :=
  performAll ({} : Registry) {} [
    .openSession {} none calm.agent,
    .act 0 calm (.create (.ofNat 7)),
    .act 0 calm (.append (.ofNat 7) (.count 5))]

/-- A commit that does not reach the store. -/
def lost : Operation Registry Item Delta Signature :=
  .act 0 { calm with mishaps := { commit := some (.backend "down") } } (.commit false)

/-- A source of a message of entity 8, whose identifier is its maker's choice. -/
def foreign : Source Delta Signature where
  id := .ofNat 3
  timeStamp := default
  agentSignature := .system
  messages := [
    { id := .ofNat 4, entityId := .ofNat 8, expectedPrevious := .zero, delta := .count 6 }]

/-- After the commit that is lost the next one gets to the store, entity 9 is not known, and another
source is committed, once. -/
def retried : List (Operation Registry Item Delta Signature) := [
  lost,
  .act 0 { calm with numbering := ⟨1, 1⟩ } (.commit false),
  .act 0 calm (.append (.ofNat 9) .doNothing),
  .commit {} foreign,
  .commit {} foreign,
  .read (.annotatedDeltas Delta) (Query.ofEntities [.ofNat 7] none none (.entity .message)),
  .read (.annotatedDeltas Delta) (Query.ofEntities [.ofNat 8] none none (.entity .message))]

/-- Run without what is unsuccessful, the others answer the same, the reads with the identifiers of
the messages, of which the one was numbered when it was appended and the other was chosen. -/
theorem unsuccessful_invisible_retried :
    let erased := (changed.successes ({} : Registry) retried).map (·.1)
    (changed.transcript ({} : Registry) retried).map (fun entry ↦ Unsuccessful entry.2) =
        [true, false, true, false, true, false, false] ∧
      (changed.perform ({} : Registry) lost).2 = changed ∧
      changed.transcript ({} : Registry) erased = changed.successes ({} : Registry) retried ∧
      (changed.performAll ({} : Registry) erased).stores.tables.messages.map (·.messageId) =
        [.ofMessage 1, .ofNat 4] ∧
      (changed.perform ({} : Registry) (.act 0 calm (.commit true))).1 = .error .cancelled ∧
      (changed.perform ({} : Registry) (.act 0 calm (.tryLoad ⟨.ofNat 9, .zero⟩ true))).1 =
        .error .cancelled := by
  intro erased
  obtain ⟨hunchanged, herased, hcancelled⟩ := unsuccessful_invisible ({} : Registry) changed
  obtain ⟨hanswers, hafter⟩ := herased retried
  obtain ⟨r, hr⟩ : ∃ r, changed.sessions[0]? = some r :=
    Option.isSome_iff_exists.1 (by decide +kernel)
  have hpending : changed.sessions[0]?.map (·.transaction.hasPending) = some true := by
    decide +kernel
  have hunknown : changed.sessions[0]?.map (·.transaction.get? (.ofNat 9)) = some none := by
    decide +kernel
  rw [hr, Option.map_some, Option.some.injEq] at hpending hunknown
  obtain ⟨hcommit, hload, -, -⟩ := hcancelled 0 r calm hr
  refine ⟨by decide +kernel, hunchanged lost (by decide +kernel), hanswers, ?_,
    hcommit (Transaction.hasPending_iff.1 hpending),
    hload _ fun known hknown ↦ absurd (hunknown.symm.trans hknown) nofun⟩
  rw [hafter]
  decide +kernel

end Retried

end Chronicle.System
