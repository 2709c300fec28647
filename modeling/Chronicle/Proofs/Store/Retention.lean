import Chronicle.Inventory.Registry
import Chronicle.Proofs.Query.Reversal
import Chronicle.Proofs.Store.History
import Chronicle.Query.Standard

/-!
# What is kept of a committed source

A commit files all that a source says under the source's identifier: one record in the table of
sources, and one for each message in the table of messages, in order (`Retains`). No later commit
adds to what is filed there, because the identifier is taken, and none takes anything out of the two
tables. So a source reads back for ever as it was committed (`read_committed`), provided that its
own payloads read back from their envelopes; whether anything else in the store can be read does not
matter.
-/

namespace Chronicle

namespace Tables

/-! ### Later tables -/

/-- The tables that commits lead to from given ones: of any sources of any payloads, in any
sessions, whether they are taken or not. -/
inductive LeadsTo (t : Tables) : Tables → Prop where
  | refl : LeadsTo t t
  | commit {D A : Type} [Packable D] [Packable A] {t' : Tables} (options : SessionOptions)
      (s : Source D A) : LeadsTo t t' → LeadsTo t (t'.attempt options s).2

variable {t t' : Tables} {s s' : PackedSource}

theorem LeadsTo.reachable (hlater : t.LeadsTo t') (h : Reachable t) : Reachable t' := by
  induction hlater with
  | refl => exact h
  | commit options s _ ih => exact ih.commit options s

/-- A commit that is answered well has written an accepted source. -/
theorem exists_write_of_attempt {D A : Type} [Packable D] [Packable A] {options : SessionOptions}
    {s : Source D A} (h : (t.attempt options s).1 = .ok ()) :
    ∃ packed, s.pack.outcome = .ok packed ∧ t.check packed = .ok () ∧
      (t.attempt options s).2 = t.write packed := by
  cases haccept : t.accept options s with
  | error fault => simp [attempt_of_refused haccept] at h
  | ok packed =>
    obtain ⟨-, hpack, hcheck⟩ := accept_eq_ok_iff.1 haccept
    exact ⟨packed, hpack, hcheck, by rw [attempt_of_accepted haccept]⟩

/-! ### What a source files -/

/-- The records of messages that are filed under a source. -/
def messagesOf (t : Tables) (id : Identifier) : List (EntityRecord Envelope) :=
  t.messages.filter (·.sourceId = id)

/-- The records of sources that are filed under a source. -/
def sourcesOf (t : Tables) (id : Identifier) : List SourceRecord :=
  t.sources.filter (·.sourceId = id)

/-- The records that a source writes of its messages are filed under it. -/
theorem messagesOf_write {records : List (EntityRecord Envelope)}
    (hmessages : (t.write s).messages = t.messages ++ records)
    (hrecords : List.Forall₂ (Recorded s) s.messages records) :
    (t.write s).messagesOf s.id = t.messagesOf s.id ++ records := by
  rw [messagesOf, hmessages, List.filter_append]
  refine congrArg (t.messagesOf s.id ++ ·) (List.filter_eq_self.2 fun record hrecord ↦ ?_)
  obtain ⟨m, hm⟩ := List.exists_forall₂_iff.1 ⟨_, hrecords.flip⟩ record hrecord
  simpa using hm.sourceId

/-- It files no messages under any other. -/
theorem messagesOf_write_of_ne {id : Identifier} (t : Tables) (hne : s.id ≠ id) :
    (t.write s).messagesOf id = t.messagesOf id := by
  obtain ⟨records, hmessages, hrecords⟩ := exists_messages_write t s
  rw [messagesOf, hmessages, List.filter_append]
  refine (congrArg (t.messagesOf id ++ ·) (List.filter_eq_nil_iff.2 fun record hrecord ↦ ?_)).trans
    (List.append_nil _)
  obtain ⟨m, hm⟩ := List.exists_forall₂_iff.1 ⟨_, hrecords.flip⟩ record hrecord
  simpa [hm.sourceId] using hne

/-! ### What stays filed -/

/-- Messages are filed under sources that are known. -/
def Filed (t : Tables) : Prop := ∀ record ∈ t.messages, record.sourceId ∈ t.sourceIds

theorem Filed.empty : Filed .empty := nofun

theorem Filed.write (h : t.Filed) : (t.write s).Filed := fun record hrecord ↦ by
  obtain ⟨records, hmessages, hrecords⟩ := exists_messages_write t s
  rw [hmessages, List.mem_append] at hrecord
  rw [sourceIds_write]
  rcases hrecord with hold | hnew
  · exact List.mem_cons_of_mem _ (h record hold)
  · obtain ⟨m, hm⟩ := List.exists_forall₂_iff.1 ⟨_, hrecords.flip⟩ record hnew
    exact hm.sourceId ▸ List.mem_cons_self

theorem Reachable.filed (h : Reachable t) : t.Filed :=
  h.of_write .empty fun _ _ h ↦ h.write

/-- Under a source that is not known there is nothing. -/
theorem Filed.messagesOf_eq_nil (h : t.Filed) {id : Identifier} (hnew : id ∉ t.sourceIds) :
    t.messagesOf id = [] :=
  List.filter_eq_nil_iff.2 fun record hrecord ↦ by
    have hne : record.sourceId ≠ id := fun heq ↦ hnew (heq ▸ h record hrecord)
    simpa using hne

/-- All that a source says is filed under it, and nothing else. -/
structure Retains (t : Tables) (s : PackedSource) : Prop where
  known : s.id ∈ t.sourceIds
  messages : List.Forall₂ (Recorded s) s.messages (t.messagesOf s.id)
  source : ∃ sequence, t.sourcesOf s.id =
    [⟨sequence, s.id, s.timeStamp, s.agentSignature, s.entityPointers⟩]

/-- A new source is retained. -/
theorem Retains.of_write (hs : t.Sound) (hfiled : t.Filed) (hnew : s.id ∉ t.sourceIds) :
    (t.write s).Retains s where
  known := sourceIds_write t s ▸ List.mem_cons_self
  messages := by
    obtain ⟨records, hmessages, hrecords⟩ := exists_messages_write t s
    rwa [messagesOf_write hmessages hrecords, hfiled.messagesOf_eq_nil hnew, List.nil_append]
  source := by
    have hsources := sources_write t s
    have hnone : t.sourcesOf s.id = [] := List.filter_eq_nil_iff.2 fun record hrecord ↦ by
      have : record.sourceId ≠ s.id := fun heq ↦ by
        rw [hs.sourceIndex, List.mem_reverse] at hnew
        exact hnew (heq ▸ List.mem_map_of_mem hrecord)
      simpa using this
    refine ⟨t.nextSequence, ?_⟩
    rw [sourcesOf, hsources, List.filter_append, ← sourcesOf, hnone]
    simp

/-- And it is still retained when another new source is written. -/
theorem Retains.write (h : t.Retains s) (hnew : s'.id ∉ t.sourceIds) :
    (t.write s').Retains s := by
  have hne : s'.id ≠ s.id := fun heq ↦ hnew (heq ▸ h.known)
  have hsources := sources_write t s'
  constructor
  case known => exact sourceIds_write t s' ▸ List.mem_cons_of_mem _ h.known
  case messages => exact messagesOf_write_of_ne t hne ▸ h.messages
  case source =>
    have hsame : (t.write s').sourcesOf s.id = t.sourcesOf s.id := by
      rw [sourcesOf, hsources, List.filter_append, List.filter_cons_of_neg (by simpa using hne)]
      exact List.append_nil _
    exact hsame ▸ h.source

/-- A source stays retained, whatever is committed later. -/
theorem LeadsTo.retains (hlater : t.LeadsTo t') (hreach : Reachable t) (h : t.Retains s) :
    t'.Retains s := by
  induction hlater with
  | refl => exact h
  | @commit D A _ _ t' options source hlater ih =>
    rcases attempt_cases t' options source with heq | ⟨packed, -, hcheck, heq⟩
    · rw [heq]
      exact ih
    · rw [heq]
      exact ih.write ((hlater.reachable hreach).sound.notMem_sourceIds hcheck)

end Tables

/-! ### Reading a source -/

variable {D A : Type}

/-- A message of a source as reads return it. -/
def Source.annotate (s : Source D A) (m : Message D) : AnnotatedMessage D where
  sourceId := s.id
  sourceTimeStamp := s.timeStamp
  messageId := m.id
  entityId := m.entityId
  entityVersion := m.expectedPrevious.next
  data := m.delta

/-- The signature of a source as reads return it. -/
def Source.annotatedSignature (s : Source D A) : AnnotatedSource A where
  sourceId := s.id
  sourceTimeStamp := s.timeStamp
  entityPointers := s.entityPointers
  data := s.agentSignature

theorem Source.entityPointers_pack [Packable D] [Packable A] {s : Source D A}
    {packed : PackedSource} (h : s.pack.outcome = .ok packed) :
    packed.entityPointers = s.entityPointers := by
  obtain ⟨-, -, -, hmessages⟩ := pack_eq_ok_iff.1 h
  unfold entityPointers
  generalize s.messages = messages, packed.messages = packedMessages at hmessages
  induction hmessages with
  | nil => rfl
  | cons hm _ ih =>
    obtain ⟨delta, -, rfl⟩ := hm
    exact congrArg (_ :: ·) ih

namespace Tables

variable {R : Type} {t t' : Tables} {registry : R}

section Select

variable (hs : t.Sequenced) (registry : R) (id : Identifier)
include hs

/-- Of the messages, the query of a source selects those that are filed under it. -/
theorem Sequenced.select_ofSource :
    t.select registry (Query.ofSource id none (.entity .message)) = t.messagesOf id := by
  rw [hs.select_eq_filter rfl rfl rfl]
  refine List.filter_congr fun record _ ↦ ?_
  simp [Query.ofSource, Filter.holds, Test.holds, Facet.sourceId]

theorem Sequenced.select_ofSource_some (X : Identifier) :
    t.select registry (Query.ofSource id (some X) (.entity .message)) =
      (t.messagesOf id).filter (·.entityId = X) := by
  rw [hs.select_eq_filter rfl rfl rfl, messagesOf, List.filter_filter]
  refine List.filter_congr fun record _ ↦ ?_
  simp [Query.ofSource, Filter.holds, Filter.allHold, Test.holds, Facet.sourceId]

theorem Sequenced.select_ofSource_source :
    t.select registry (Query.ofSource id none .source) = t.sourcesOf id := by
  rw [hs.select_eq_filter rfl rfl rfl]
  refine List.filter_congr fun record _ ↦ ?_
  simp [Query.ofSource, Filter.holds, Test.holds, Facet.sourceId]

end Select

variable [Payload D] [Resolves R D]

/-- A record is read as what a message of a source says. -/
structure ReadsAs (registry : R) (s : Source D A) (m : Message D)
    (record : EntityRecord Envelope) : Prop where
  entityId : record.entityId = m.entityId
  annotated : (do pure (record.annotate (← record.data.unpack D registry)) :
    Attempt (AnnotatedMessage D)).outcome = .ok (s.annotate m)

/-- Records of packed messages are read as the messages. -/
theorem readsAs_of_recorded [Packable A] {s : Source D A} {packed : PackedSource}
    {records : List (EntityRecord Envelope)} (hpack : s.pack.outcome = .ok packed)
    (hback : ∀ m ∈ s.messages, UnpacksBack registry m.delta)
    (hrecords : List.Forall₂ (Recorded packed) packed.messages records) :
    List.Forall₂ (ReadsAs registry s) s.messages records := by
  obtain ⟨hid, htime, -, hpacked⟩ := Source.pack_eq_ok_iff.1 hpack
  generalize s.messages = messages, packed.messages = packedMessages at hpacked hrecords hback
  induction hpacked generalizing records with
  | nil =>
    cases hrecords
    exact .nil
  | @cons m packedMessage messages packedMessages hm _ ih =>
    obtain ⟨hfirst, hrest⟩ := List.forall_mem_cons.1 hback
    obtain ⟨delta, hdelta, rfl⟩ := hm
    cases hrecords with
    | cons hrecord hrecords =>
      refine .cons ⟨hrecord.entityId, ?_⟩ (ih hrecords hrest)
      rw [Attempt.outcome_bind, hrecord.data]
      show ((delta.unpack D registry).outcome >>= _) = _
      rw [hfirst delta hdelta]
      show Except.ok _ = _
      rw [EntityRecord.annotate, hrecord.sourceId, hrecord.sourceTimeStamp, hrecord.messageId,
        hrecord.entityId, hrecord.entityVersion, hid, htime]
      rfl

/-- A query that selects such records reads the messages, in order. -/
theorem outcome_annotatedDeltas {s : Source D A} {messages : List (Message D)}
    {q : Query R (.entity .message)}
    (h : List.Forall₂ (ReadsAs registry s) messages (t.select registry q)) :
    (t.annotatedDeltas D registry q).outcome = .ok (messages.map s.annotate) := by
  rw [annotatedDeltas, Attempt.outcome_mapM, Except.mapM_eq_ok_iff, List.forall₂_map_right_iff]
  exact h.flip.imp fun _ _ hread ↦ hread.annotated

variable [Payload A] [Resolves R A]

/-- **Committed sources read back for ever.** However the tables came about, and whatever commits
follow, taken or not: once a source is committed whose payloads read back from their envelopes, the
query of the source returns exactly its messages, in their order, and of one entity those that are
of the entity; and it returns its signature exactly once, with the states that its messages lead to.
-/
theorem read_committed (hreach : Reachable t) (options : SessionOptions) (s : Source D A)
    (hok : (t.attempt options s).1 = .ok ()) (hlater : (t.attempt options s).2.LeadsTo t')
    (registry : R) (hdeltas : ∀ m ∈ s.messages, UnpacksBack registry m.delta)
    (hsignature : UnpacksBack registry s.agentSignature) :
    (t'.annotatedDeltas D registry (Query.ofSource s.id none (.entity .message))).outcome =
        .ok (s.messages.map s.annotate) ∧
      (∀ X, (t'.annotatedDeltas D registry
        (Query.ofSource s.id (some X) (.entity .message))).outcome =
          .ok ((s.messages.filter (·.entityId = X)).map s.annotate)) ∧
      (t'.annotatedAgentSignatures A registry (Query.ofSource s.id none .source)).outcome =
        .ok [s.annotatedSignature] := by
  obtain ⟨packed, hpack, hcheck, hwrite⟩ := exists_write_of_attempt hok
  obtain ⟨hid, htime, hsigned, -⟩ := Source.pack_eq_ok_iff.1 hpack
  have hnew := ((check_eq_ok_iff hreach.sound.data_nodup packed).1 hcheck).1
  have hkept : t'.Retains packed :=
    hlater.retains (hreach.commit options s)
      (hwrite ▸ .of_write hreach.sound hreach.filed hnew)
  have hs := (hlater.reachable (hreach.commit options s)).sequenced
  have hread : List.Forall₂ (ReadsAs registry s) s.messages (t'.messagesOf s.id) :=
    hid ▸ readsAs_of_recorded hpack hdeltas hkept.messages
  refine ⟨outcome_annotatedDeltas ?_, fun X ↦ outcome_annotatedDeltas ?_, ?_⟩
  · rwa [hs.select_ofSource]
  · rw [hs.select_ofSource_some]
    exact List.rel_filter (fun m record h ↦ by simp [h.entityId]) hread
  · obtain ⟨sequence, hsources⟩ := hkept.source
    rw [hid, htime, Source.entityPointers_pack hpack] at hsources
    rw [annotatedAgentSignatures, hs.select_ofSource_source, hsources, Attempt.outcome_mapM,
      Except.mapM_eq_ok_iff]
    refine .cons ?_ .nil
    rw [Attempt.outcome_bind, hsignature _ hsigned]
    rfl

section HandingOver

open Inventory

/-- The tables after the lease was taken. -/
def taken : Tables := (Tables.empty.attempt {} taking).2

/-- The source of two entities still reads back after a later one was turned away. -/
theorem read_committed_handingOver :
    Reachable taken ∧ (taken.attempt {} handingOver).1 = .ok () ∧
      (taken.attempt {} handingOver).2.LeadsTo handedOver ∧
      (handedOver.annotatedDeltas Delta ({} : Registry)
        (Query.ofSource handingOver.id none (.entity .message))).outcome =
          .ok (handingOver.messages.map handingOver.annotate) ∧
      (∀ X, (handedOver.annotatedDeltas Delta ({} : Registry)
        (Query.ofSource handingOver.id (some X) (.entity .message))).outcome =
          .ok ((handingOver.messages.filter (·.entityId = X)).map handingOver.annotate)) ∧
      (handedOver.annotatedAgentSignatures Signature ({} : Registry)
        (Query.ofSource handingOver.id none .source)).outcome =
          .ok [handingOver.annotatedSignature] := by
  have hreach : Reachable taken := .commit {} taking .empty
  have hok : (taken.attempt {} handingOver).1 = .ok () := by decide +kernel
  have hlater : (taken.attempt {} handingOver).2.LeadsTo handedOver := .commit {} contesting .refl
  have hdeltas : ∀ m ∈ handingOver.messages, UnpacksBack ({} : Registry) m.delta := by
    have hnothing : UnpacksBack ({} : Registry) Delta.doNothing :=
      unpacksBack_of_bind (by decide +kernel)
    simpa [handingOver] using hnothing
  have hsignature : UnpacksBack ({} : Registry) handingOver.agentSignature :=
    unpacksBack_of_bind (by decide +kernel)
  have hread := read_committed hreach {} handingOver hok hlater ({} : Registry) hdeltas hsignature
  exact ⟨hreach, hok, hlater, hread⟩

end HandingOver

end Tables

end Chronicle
