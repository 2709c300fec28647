import Chronicle.Proofs.Envelope.Unpacking
import Chronicle.Proofs.Query.Ordering
import Chronicle.Proofs.Store.Safety
import Chronicle.Query.Standard
import Chronicle.Store.Read

/-!
# Queries that match payloads

A query that matches payloads reads the envelopes of a table twice: silently, to find those whose
payload satisfies a predicate, and once more with a report, to return what it found. Both ways read
the same (`Envelope.toOption_outcome_unpack`), so the second finds nothing that it cannot read, and
no envelope that it could read is missing: whatever else is in the table, and whatever the resolvers
of its types do, such a query never fails (`read_matching`).
-/

namespace Chronicle

variable {R T : Type} [Payload T] [Resolves R T] {registry : R} {p : T → Bool}

/-- A payload matches if it is read and satisfies the predicate. -/
theorem PayloadTest.matches_eq (registry : R) (p : T → Bool) (e : Envelope) :
    PayloadTest.matches T p registry e = (e.unpack T registry).outcome.toOption.any p := by
  rw [PayloadTest.matches, Envelope.toOption_outcome_unpack]
  cases e.unpack? T registry <;> rfl

theorem paginate_subset {α : Type} (skip take : Option Nat) (items : List α) :
    paginate skip take items ⊆ items := by
  cases take with
  | none => exact List.drop_subset _ _
  | some n => exact List.Subset.trans (List.take_subset _ _) (List.drop_subset _ _)

/-- A plain and an annotated read of a page of records return the payloads of those of a table that
decode to a payload satisfying a predicate, and of no others. They report what decoding the records
they return reports, and nothing else. -/
def DecodesMatching {Record X : Type} (registry : R) (p : T → Bool) (skip take : Option Nat)
    (table : List Record) (envelope : Record → Envelope) (annotate : Record → T → X)
    (plain : Attempt (List T)) (annotated : Attempt (List X)) : Prop :=
  ∃ (found : List Record) (payloads : List T),
    found.Perm (table.filter fun record ↦
      ((envelope record).unpack T registry).outcome.toOption.any p) ∧
    List.Forall₂ (fun record payload ↦
      ((envelope record).unpack T registry).outcome = .ok payload ∧ p payload = true)
      (paginate skip take found) payloads ∧
    plain.outcome = .ok payloads ∧
    annotated.outcome = .ok (List.zipWith annotate (paginate skip take found) payloads) ∧
    plain.log = (paginate skip take found).flatMap
      (fun record ↦ ((envelope record).unpack T registry).log) ∧
    annotated.log = plain.log

omit [Payload T] in
/-- What is read of some records is annotated record by record. -/
theorem forall₂_annotated {Record X : Type} {f : Record → Attempt T} (annotate : Record → T → X)
    {records : List Record} {payloads : List T}
    (h : List.Forall₂ (fun record payload ↦ (f record).outcome = .ok payload) records payloads) :
    List.Forall₂ (fun record x ↦ (f record >>= fun a ↦ pure (annotate record a)).outcome = .ok x)
      records (List.zipWith annotate records payloads) := by
  induction h with
  | nil => exact .nil
  | cons hread _ ih =>
    refine .cons ?_ ih
    rw [Attempt.outcome_bind, hread]
    rfl

/-- Reads that decode a page of the matching records do so. -/
theorem decodesMatching_of_perm {Record X : Type} {skip take : Option Nat}
    {table : List Record} (found : List Record) {envelope : Record → Envelope}
    (annotate : Record → T → X) (hperm : found.Perm (table.filter fun record ↦
      PayloadTest.matches T p registry (envelope record))) :
    DecodesMatching registry p skip take table envelope annotate
      ((paginate skip take found).mapM fun record ↦ (envelope record).unpack T registry)
      ((paginate skip take found).mapM fun record ↦ do
        pure (annotate record (← (envelope record).unpack T registry))) := by
  have hmatches : ∀ record ∈ paginate skip take found, ∃ payload,
      ((envelope record).unpack T registry).outcome = .ok payload ∧ p payload = true := by
    intro record hrecord
    have hpass := (List.mem_filter.1 (hperm.mem_iff.1 (paginate_subset skip take found hrecord))).2
    rw [PayloadTest.matches_eq] at hpass
    cases hread : ((envelope record).unpack T registry).outcome with
    | error fault =>
      rw [hread] at hpass
      cases hpass
    | ok payload =>
      rw [hread] at hpass
      exact ⟨payload, rfl, hpass⟩
  obtain ⟨payloads, hpayloads⟩ := List.exists_forall₂_iff.2 hmatches
  have hplain : List.Forall₂ (fun record payload ↦
      ((envelope record).unpack T registry).outcome = .ok payload)
      (paginate skip take found) payloads :=
    hpayloads.imp fun _ _ h ↦ h.1
  have hannotated := forall₂_annotated annotate hplain
  have hlog : ∀ record : Record,
      (do pure (annotate record (← (envelope record).unpack T registry)) : Attempt X).log =
        ((envelope record).unpack T registry).log := fun record ↦ by
    rw [Attempt.log_bind]
    cases ((envelope record).unpack T registry).outcome <;> exact List.append_nil _
  refine ⟨found, payloads, ?_, hpayloads, ?_, ?_, Attempt.log_mapM hplain, ?_⟩
  · simpa only [PayloadTest.matches_eq] using hperm
  · rw [Attempt.outcome_mapM]
    exact Except.mapM_eq_ok_iff.2 hplain
  · rw [Attempt.outcome_mapM]
    exact Except.mapM_eq_ok_iff.2 hannotated
  · rw [Attempt.log_mapM hannotated, Attempt.log_mapM hplain]
    exact List.flatMap_congr fun record _ ↦ hlog record

namespace Tables

/-- **Payload predicates agree with decoding.** Whatever is in the tables and whatever the resolvers
of the registry do, reading the deltas, or the agent signatures, that match a predicate on payloads
never fails: it returns the payloads of a page of exactly those records whose envelope decodes to a
payload satisfying the predicate, and reports only what decoding these reports. -/
theorem read_matching (t : Tables) (registry : R) (p : T → Bool) (skip take : Option Nat) :
    DecodesMatching registry p skip take t.messages (·.data) EntityRecord.annotate
        (t.deltas T registry (.deltasMatching (.matches T p) skip take))
        (t.annotatedDeltas T registry (.deltasMatching (.matches T p) skip take)) ∧
      DecodesMatching registry p skip take t.sources (·.agentSignature) SourceRecord.annotate
        (t.agentSignatures T registry (.signaturesMatching (.matches T p) skip take))
        (t.annotatedAgentSignatures T registry (.signaturesMatching (.matches T p) skip take)) :=
  ⟨decodesMatching_of_perm
      ((Query.deltasMatching (.matches T p) skip take).selectAll registry t.messages)
      EntityRecord.annotate select_perm,
    decodesMatching_of_perm
      ((Query.signaturesMatching (.matches T p) skip take).selectAll registry t.sources)
      SourceRecord.annotate select_perm⟩

end Tables

end Chronicle
