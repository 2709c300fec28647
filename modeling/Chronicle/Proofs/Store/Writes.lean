import Chronicle.Proofs.Store.Acceptance

/-!
# What a commit writes

Each table after a message and after a source, in terms of the table before: leases as the holdings
they stand for (`holdings_writeMessage`), messages as the records of the source's messages, in order
(`exists_messages_write`), and the two indexes. `commit_eq_ok_iff` says when a commit succeeds and
what it then leaves.
-/

namespace Chronicle

/-- The version of an entity that a record was written for. -/
def EntityRecord.product {α : Type} (record : EntityRecord α) : Identifier × Version :=
  (record.entityId, record.entityVersion)

/-- A record says of one message of a source what the message says. -/
structure Recorded (s : PackedSource) (m : PackedMessage) (record : EntityRecord Envelope) :
    Prop where
  sourceId : record.sourceId = s.id
  sourceTimeStamp : record.sourceTimeStamp = s.timeStamp
  messageId : record.messageId = m.id
  entityId : record.entityId = m.entityId
  entityVersion : record.entityVersion = m.entityVersion
  data : record.data = m.delta

namespace Tables

/-! ### The records of a message -/

section RecordsOf

variable {α : Type} (s : PackedSource) (m : PackedMessage)

@[simp] theorem recordsOf_nil (sequence : Nat) : recordsOf s m sequence ([] : List α) = [] := rfl

theorem recordsOf_cons (sequence : Nat) (datum : α) (data : List α) :
    recordsOf s m sequence (datum :: data) =
      { sequence
        sourceId := s.id
        sourceTimeStamp := s.timeStamp
        messageId := m.id
        entityId := m.entityId
        entityVersion := m.entityVersion
        data := datum } :: recordsOf s m (sequence + 1) data := by
  simp only [recordsOf, List.zipIdx_cons, List.map_cons, Nat.zero_add, Nat.add_zero,
    List.cons.injEq, true_and]
  rw [List.zipIdx_succ, List.map_map]
  refine List.map_congr_left fun p _ ↦ ?_
  simp [Nat.add_comm, Nat.add_left_comm]

theorem map_recordsOf_holding (sequence : Nat) (data : List α) :
    (recordsOf s m sequence data).map (fun r ↦ (r.data, r.entityId)) =
      data.map (·, m.entityId) := by
  induction data generalizing sequence with
  | nil => rfl
  | cons datum data ih => rw [recordsOf_cons, List.map_cons, ih, List.map_cons]

theorem map_data_recordsOf (sequence : Nat) (data : List α) :
    (recordsOf s m sequence data).map (·.data) = data := by
  have := congrArg (List.map Prod.fst) (map_recordsOf_holding s m sequence data)
  simpa [Function.comp_def] using this

variable {s m} in
theorem entityId_of_mem_recordsOf {sequence : Nat} {data : List α} {record : EntityRecord α}
    (h : record ∈ recordsOf s m sequence data) : record.entityId = m.entityId := by
  obtain ⟨_, -, rfl⟩ := List.mem_map.1 h
  rfl

variable {s m} {records : List (EntityRecord α)} (keeps : α → Bool) {sequence : Nat}
  {data : List α}

/-- When some records of its entity go and new ones come behind the others, an entity has what stays
of its own and what comes. -/
theorem filter_append_recordsOf_of_eq {X : Identifier} (hX : m.entityId = X) :
    (records.filter (fun record ↦ record.entityId ≠ m.entityId || keeps record.data) ++
        recordsOf s m sequence data).filter (·.entityId = X) =
      (records.filter (·.entityId = X)).filter (keeps ·.data) ++
        recordsOf s m sequence data := by
  subst hX
  have hnew : (recordsOf s m sequence data).filter (·.entityId = m.entityId) =
      recordsOf s m sequence data :=
    List.filter_eq_self.2 fun record hrecord ↦ by simpa using entityId_of_mem_recordsOf hrecord
  rw [List.filter_append, hnew, List.filter_filter, List.filter_filter]
  refine congrArg (· ++ _) (List.filter_congr fun record _ ↦ ?_)
  by_cases hid : record.entityId = m.entityId <;> simp [hid]

/-- Another entity has what it had. -/
theorem filter_append_recordsOf_of_ne {X : Identifier} (hX : m.entityId ≠ X) :
    (records.filter (fun record ↦ record.entityId ≠ m.entityId || keeps record.data) ++
        recordsOf s m sequence data).filter (·.entityId = X) =
      records.filter (·.entityId = X) := by
  have hnew : (recordsOf s m sequence data).filter (·.entityId = X) = [] :=
    List.filter_eq_nil_iff.2 fun record hrecord ↦ by
      simpa [entityId_of_mem_recordsOf hrecord] using hX
  rw [List.filter_append, hnew, List.append_nil, List.filter_filter]
  refine List.filter_congr fun record _ ↦ ?_
  by_cases hid : record.entityId = X
  · simp [hid, Ne.symm hX]
  · simp [hid]

end RecordsOf

/-! ### A message -/

section Message

variable (s : PackedSource) (t : Tables) (m : PackedMessage)

@[simp] theorem sources_writeMessage : (writeMessage s t m).sources = t.sources := rfl

@[simp] theorem sourceIds_writeMessage : (writeMessage s t m).sourceIds = t.sourceIds := rfl

@[simp] theorem entityVersions_writeMessage :
    (writeMessage s t m).entityVersions = m.product :: t.entityVersions := rfl

/-- The leases that are held after a message are those that its change leaves. -/
@[simp] theorem holdings_writeMessage :
    (writeMessage s t m).holdings = t.holdings.after m.toChange := by
  unfold holdings writeMessage Holdings.after Holdings.take Holdings.giveUp withoutData
  rw [List.map_append, map_recordsOf_holding, List.filter_map]
  rfl

theorem exists_messages_writeMessage :
    ∃ record, (writeMessage s t m).messages = t.messages ++ [record] ∧ Recorded s m record :=
  ⟨_, rfl, ⟨rfl, rfl, rfl, rfl, rfl, rfl⟩⟩

end Message

/-! ### A source -/

/-- A source adds to the table of messages a record of each of its messages, in order. -/
theorem exists_messages_write (t : Tables) (s : PackedSource) :
    ∃ records, (t.write s).messages = t.messages ++ records ∧
      List.Forall₂ (Recorded s) s.messages records := by
  suffices ∀ (ms : List PackedMessage) (t : Tables),
      ∃ records, (ms.foldl (writeMessage s) t).messages = t.messages ++ records ∧
        List.Forall₂ (Recorded s) ms records from this s.messages (t.writeSource s)
  intro ms
  induction ms with
  | nil => exact fun t ↦ ⟨[], (List.append_nil _).symm, .nil⟩
  | cons m rest ih =>
    intro t
    obtain ⟨record, hfirst, hrecord⟩ := exists_messages_writeMessage s t m
    obtain ⟨records, hrest, hrecords⟩ := ih (writeMessage s t m)
    refine ⟨record :: records, ?_, .cons hrecord hrecords⟩
    rw [List.foldl_cons, hrest, hfirst, List.append_assoc, List.singleton_append]

/-- A source adds a record of itself to the table of sources. -/
theorem sources_write (t : Tables) (s : PackedSource) :
    (t.write s).sources = t.sources ++
      [⟨t.nextSequence, s.id, s.timeStamp, s.agentSignature, s.entityPointers⟩] :=
  List.foldlRecOn (motive := fun t' : Tables ↦ t'.sources = (t.writeSource s).sources)
    s.messages _ rfl fun _ h _ _ ↦ h

/-- It adds its identifier to the index of sources. -/
theorem sourceIds_write (t : Tables) (s : PackedSource) :
    (t.write s).sourceIds = s.id :: t.sourceIds :=
  List.foldlRecOn (motive := fun t' : Tables ↦ t'.sourceIds = (t.writeSource s).sourceIds)
    s.messages _ rfl fun _ h _ _ ↦ h

/-- And it adds the versions that its messages lead to to the index of versions. -/
theorem entityVersions_write (t : Tables) (s : PackedSource) :
    (t.write s).entityVersions = (s.messages.map (·.product)).reverse ++ t.entityVersions := by
  suffices ∀ (ms : List PackedMessage) (t : Tables), (ms.foldl (writeMessage s) t).entityVersions =
      (ms.map (·.product)).reverse ++ t.entityVersions from this s.messages (t.writeSource s)
  intro ms
  induction ms with
  | nil => exact fun t ↦ rfl
  | cons m rest ih =>
    intro t
    rw [List.foldl_cons, ih, entityVersions_writeMessage, List.map_cons, List.reverse_cons,
      List.append_assoc, List.singleton_append]

/-! ### Commits -/

section Commit

variable {D A : Type} [Packable D] [Packable A]

/-- A commit succeeds in a session that writes, for a source that can be packed and that the tables
accept, and then writes it. -/
theorem commit_eq_ok_iff {t t' : Tables} {options : SessionOptions} {s : Source D A} :
    (t.commit options s).outcome = .ok t' ↔
      options.readOnly = false ∧
        ∃ packed, s.pack.outcome = .ok packed ∧ t.check packed = .ok () ∧ t.write packed = t' := by
  unfold commit
  cases options.readOnly with
  | true => simp
  | false => simp [Except.bind_eq_ok_iff]

end Commit

end Tables

end Chronicle
