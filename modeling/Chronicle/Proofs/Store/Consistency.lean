import Chronicle.Proofs.Store.Footprint
import Chronicle.Proofs.Store.Retention

/-!
# The consistency of the tables

What is written of a source is written at a stretch, by one counter, and only leases and tags are
ever deleted. So the tables of a store go together at any time (`Reachable.consistent`):

* no number is used twice, in one table or in two (`nodup_numbers_writeMessage`);
* the messages are those of the sources, one source after the other in the order of the table of
  sources, and each source's own are the ones it points to (`Batched`);
* a lease or a tag that is still there is beside the message that brought it (`Accompanied`).
-/

namespace Chronicle

/-- The state of its entity that a record was written for. -/
def EntityRecord.pointer {α : Type} (record : EntityRecord α) : Pointer :=
  ⟨record.entityId, record.entityVersion⟩

/-- Two records were written for the same message. -/
structure EntityRecord.Beside {α β : Type} (a : EntityRecord α) (b : EntityRecord β) : Prop where
  sourceId : a.sourceId = b.sourceId
  sourceTimeStamp : a.sourceTimeStamp = b.sourceTimeStamp
  messageId : a.messageId = b.messageId
  entityId : a.entityId = b.entityId
  entityVersion : a.entityVersion = b.entityVersion

namespace Tables

variable {t : Tables} {s : PackedSource}

/-! ### Numbers -/

/-- The numbers of all records, table by table. -/
def numbers (t : Tables) : List Nat :=
  t.sources.map (·.sequence) ++ t.messages.map (·.sequence) ++ t.leases.map (·.sequence) ++
    t.tags.map (·.sequence)

/-- The numbers of all records are below the next one. -/
theorem Sequenced.lt_of_mem_numbers (h : t.Sequenced) {n : Nat} (hn : n ∈ t.numbers) :
    n < t.nextSequence := by
  have hbelow : ∀ φ, ∀ n ∈ (t.records φ).map Facet.sequence, n < t.nextSequence := fun φ n hn ↦
    (List.pairwise_append.1 (h φ)).2.2 n hn _ (List.mem_singleton_self _)
  rw [numbers, List.mem_append, List.mem_append, List.mem_append] at hn
  rcases hn with ((hsource | hmessage) | hlease) | htag
  · exact hbelow .source n hsource
  · exact hbelow (.entity .message) n hmessage
  · exact hbelow (.entity .lease) n hlease
  · exact hbelow (.entity .tag) n htag

/-- The numbers after a message are those of the records that stay, and the next ones in a row. -/
theorem exists_numbers_writeMessage (s : PackedSource) (t : Tables) (m : PackedMessage) :
    ∃ kept, kept.Sublist t.numbers ∧ (writeMessage s t m).numbers.Perm
      (kept ++ List.range' t.nextSequence (m.addLeases.length + m.addTags.length + 1)) := by
  refine ⟨t.sources.map (·.sequence) ++ t.messages.map (·.sequence) ++
    (withoutData m.entityId m.deleteLeases t.leases).map (·.sequence) ++
    (withoutData m.entityId m.deleteTags t.tags).map (·.sequence), ?_, ?_⟩
  · exact ((List.Sublist.refl _).append (List.filter_sublist.map _)).append
      (List.filter_sublist.map _)
  · rw [← List.range'_append_1, ← List.range'_append_1, List.perm_iff_count]
    intro n
    simp only [numbers, writeMessage, List.map_append, map_sequence_recordsOf, List.count_append,
      List.length_singleton, Nat.add_assoc]
    omega

theorem nodup_numbers_writeMessage (h : t.Sequenced) (hnodup : t.numbers.Nodup)
    (m : PackedMessage) : (writeMessage s t m).numbers.Nodup := by
  obtain ⟨kept, hkept, hperm⟩ := exists_numbers_writeMessage s t m
  rw [hperm.nodup_iff, List.nodup_append]
  refine ⟨hnodup.sublist hkept, List.nodup_range', fun a ha b hb ↦ ?_⟩
  have hlt := h.lt_of_mem_numbers (hkept.subset ha)
  rw [List.mem_range'_1] at hb
  omega

theorem nodup_numbers_writeSource (h : t.Sequenced) (hnodup : t.numbers.Nodup) :
    (t.writeSource s).numbers.Nodup := by
  have hperm : (t.writeSource s).numbers.Perm (t.nextSequence :: t.numbers) := by
    rw [List.perm_iff_count]
    intro n
    simp only [numbers, writeSource, List.map_append, List.map_singleton, List.count_append,
      List.count_cons]
    simp
    omega
  rw [hperm.nodup_iff, List.nodup_cons]
  exact ⟨fun hmem ↦ Nat.lt_irrefl _ (h.lt_of_mem_numbers hmem), hnodup⟩

/-- No number is used twice when a source is written, if none was before. -/
theorem nodup_numbers_write (h : t.Sequenced) (hnodup : t.numbers.Nodup) :
    (t.write s).numbers.Nodup := by
  have hboth : (t.write s).Sequenced ∧ (t.write s).numbers.Nodup :=
    List.foldlRecOn (motive := fun t : Tables ↦ t.Sequenced ∧ t.numbers.Nodup) s.messages _
      ⟨h.writeSource, nodup_numbers_writeSource h hnodup⟩
      fun _ h m _ ↦ ⟨h.1.writeMessage m, nodup_numbers_writeMessage h.1 h.2 m⟩
  exact hboth.2

/-! ### Sources and their messages -/

/-- The messages of a store come source by source. -/
structure Batched (t : Tables) : Prop where
  /-- They are the messages of each source, one source after the other. -/
  messages : t.messages = t.sources.flatMap fun source ↦ t.messagesOf source.sourceId
  /-- A source points to the states that its messages led to, in their order. -/
  pointers : ∀ source ∈ t.sources,
    source.entityPointers = (t.messagesOf source.sourceId).map (·.pointer)
  timeStamps : ∀ source ∈ t.sources, ∀ message ∈ t.messagesOf source.sourceId,
    message.sourceTimeStamp = source.sourceTimeStamp
  /-- In the order of writing, each source comes ahead of its messages, and these come ahead of the
  next source. -/
  order : Ascends (t.sources.flatMap fun source ↦
    source.sequence :: (t.messagesOf source.sourceId).map (·.sequence)) t.nextSequence

theorem map_pointer_of_recorded {ms : List PackedMessage} {records : List (EntityRecord Envelope)}
    (h : List.Forall₂ (Recorded s) ms records) :
    records.map (·.pointer) = ms.map (·.entityPointer) := by
  induction h with
  | nil => rfl
  | cons hm _ ih =>
    rw [List.map_cons, List.map_cons, ih, EntityRecord.pointer, hm.entityId, hm.entityVersion]
    rfl

namespace Batched

theorem empty : Batched .empty where
  messages := rfl
  pointers := nofun
  timeStamps := nofun
  order := List.pairwise_singleton _ _

/-- A new source comes last, with its messages. -/
theorem write (h : t.Batched) (hs : t.Sound) (hfiled : t.Filed) (hnew : s.id ∉ t.sourceIds) :
    (t.write s).Batched := by
  obtain ⟨records, hmessages, hrecords⟩ := exists_messages_write t s
  have hown : (t.write s).messagesOf s.id = records := by
    rw [messagesOf_write hmessages hrecords, hfiled.messagesOf_eq_nil hnew, List.nil_append]
  have hold : ∀ source ∈ t.sources,
      (t.write s).messagesOf source.sourceId = t.messagesOf source.sourceId := by
    intro source hsource
    refine messagesOf_write_of_ne t fun heq ↦ hnew ?_
    rw [hs.sourceIndex, List.mem_reverse, heq]
    exact List.mem_map_of_mem hsource
  constructor
  case messages =>
    rw [hmessages, sources_write, List.flatMap_append, List.flatMap_congr hold, ← h.messages,
      List.flatMap_singleton, hown]
  case pointers =>
    rw [sources_write, List.forall_mem_append, List.forall_mem_singleton, hown]
    refine ⟨fun source hsource ↦ ?_, (map_pointer_of_recorded hrecords).symm⟩
    rw [hold source hsource]
    exact h.pointers source hsource
  case timeStamps =>
    rw [sources_write, List.forall_mem_append, List.forall_mem_singleton, hown]
    refine ⟨fun source hsource ↦ ?_, fun message hmessage ↦ ?_⟩
    · rw [hold source hsource]
      exact h.timeStamps source hsource
    · obtain ⟨m, hm⟩ := List.exists_forall₂_iff.1 ⟨_, hrecords.flip⟩ message hmessage
      exact hm.sourceTimeStamp
  case order =>
    have hsame : ∀ source ∈ t.sources,
        source.sequence :: ((t.write s).messagesOf source.sourceId).map (·.sequence) =
          source.sequence :: (t.messagesOf source.sourceId).map (·.sequence) :=
      fun source hsource ↦ by rw [hold source hsource]
    rw [sources_write, List.flatMap_append, List.flatMap_congr hsame, List.flatMap_singleton, hown]
    exact h.order.trans (ascends_messages_write hmessages)

end Batched

/-- On every store that commits can reach, the messages come source by source. -/
theorem Reachable.batched (h : Reachable t) : t.Batched :=
  h.of_write .empty fun hreach hcheck h ↦
    h.write hreach.sound hreach.filed (hreach.sound.notMem_sourceIds hcheck)

/-! ### Messages and what they brought -/

/-- Every record that is kept for an entity is beside a message. -/
def Accompanied (t : Tables) : Prop :=
  ∀ kind, ∀ record ∈ t.records (.entity kind), ∃ message ∈ t.messages, record.Beside message

namespace Accompanied

theorem empty : Accompanied .empty := fun kind record hrecord ↦ by cases kind <;> cases hrecord

/-- What a message leaves was beside a message before, and what it brings is beside its own. -/
theorem writeMessage (h : t.Accompanied) (m : PackedMessage) :
    (Tables.writeMessage s t m).Accompanied := by
  intro kind record hrecord
  obtain ⟨own, hmessages, hown⟩ := exists_messages_writeMessage s t m
  obtain ⟨start, hrecords⟩ := exists_records_writeMessage s t m kind
  rw [hmessages]
  rw [hrecords, List.mem_append] at hrecord
  rcases hrecord with hkept | hnew
  · obtain ⟨message, hmessage, hbeside⟩ := h kind record (List.mem_of_mem_filter hkept)
    exact ⟨message, List.mem_append_left _ hmessage, hbeside⟩
  · refine ⟨own, List.mem_append_right _ (List.mem_singleton_self own), ?_⟩
    obtain ⟨_, -, rfl⟩ := List.mem_map.1 hnew
    exact ⟨hown.sourceId.symm, hown.sourceTimeStamp.symm, hown.messageId.symm,
      hown.entityId.symm, hown.entityVersion.symm⟩

theorem write (h : t.Accompanied) (s : PackedSource) : (t.write s).Accompanied := by
  have hstart : (t.writeSource s).Accompanied := fun kind ↦ by cases kind <;> exact h _
  exact List.foldlRecOn s.messages _ hstart fun _ h m _ ↦ h.writeMessage m

end Accompanied

/-! ### Consistency -/

/-- How the tables and indexes of a store go together. -/
structure Consistent (t : Tables) : Prop where
  /-- Every table is in the order of writing. -/
  ascending : ∀ φ, ((t.records φ).map Facet.sequence).Pairwise (· < ·)
  /-- No number is used twice, be it in two tables. -/
  numbers : t.numbers.Nodup
  /-- And each is below the next one. -/
  below : ∀ n ∈ t.numbers, n < t.nextSequence
  /-- The one index lists the sources. -/
  sourceIds : ∀ id, id ∈ t.sourceIds ↔ ∃ source ∈ t.sources, source.sourceId = id
  /-- The other lists the versions that messages led to. -/
  entityVersions : ∀ X v, (X, v) ∈ t.entityVersions ↔
    ∃ message ∈ t.messages, message.entityId = X ∧ message.entityVersion = v
  /-- A source points to the states that its messages led to, in the order of writing. -/
  pointers : ∀ source ∈ t.sources,
    source.entityPointers = (t.messagesOf source.sourceId).map (·.pointer)
  /-- The messages of a source stand together. -/
  contiguous : ∀ source ∈ t.sources, t.messagesOf source.sourceId <:+: t.messages
  /-- And they have its time stamp. -/
  timeStamps : ∀ source ∈ t.sources, ∀ message ∈ t.messagesOf source.sourceId,
    message.sourceTimeStamp = source.sourceTimeStamp
  /-- Leases and tags are beside the messages that brought them. -/
  accompanied : t.Accompanied

namespace Reachable

theorem nodup_numbers (h : Reachable t) : t.numbers.Nodup :=
  h.of_write List.nodup_nil fun hreach _ hnodup ↦ nodup_numbers_write hreach.sequenced hnodup

theorem accompanied (h : Reachable t) : t.Accompanied :=
  h.of_write .empty fun {_ s} _ _ h ↦ h.write s

/-- **Consistency.** The tables and indexes of every store that commits can reach go together,
whatever was committed, refused, and deleted on the way. -/
theorem consistent (h : Reachable t) : t.Consistent where
  ascending φ := (List.pairwise_append.1 (h.sequenced φ)).1
  numbers := h.nodup_numbers
  below _ hn := h.sequenced.lt_of_mem_numbers hn
  sourceIds id := by
    rw [h.sound.sourceIndex, List.mem_reverse]
    exact List.mem_map
  entityVersions X v := by
    rw [h.sound.index, List.mem_reverse, List.mem_map]
    simp only [EntityRecord.product, Prod.mk.injEq]
  pointers := h.batched.pointers
  contiguous source hsource := by
    rw [h.batched.messages, List.flatMap_def]
    exact List.infix_of_mem_flatten (List.mem_map_of_mem hsource)
  timeStamps := h.batched.timeStamps
  accompanied := h.accompanied

theorem consistent_handedOver : Reachable handedOver ∧ handedOver.Consistent :=
  ⟨reachable_handedOver, reachable_handedOver.consistent⟩

end Reachable

end Tables

end Chronicle
