import Chronicle.Proofs.Store.Log

/-!
# Packing a source

A source is packed when its signature and all its deltas have a value that can be stored
(`exists_pack_iff`). The packed source says the same of entities, versions, leases and tags as the
source itself, and so it follows the same versions and its leases fit where those of the source do.
-/

namespace Chronicle

/-! ### Payloads -/

/-- A payload can be stored when it has a value that is not `null`. -/
def Storable {T : Type} [Packable T] (payload : T) : Prop :=
  ∃ value, encode payload = some value ∧ value.isNull = false

theorem Envelope.pack_eq_ok_iff {T : Type} [Packable T] {payload : T} {e : Envelope} :
    (pack payload).outcome = .ok e ↔
      ∃ value, encode payload = some value ∧ value.isNull = false ∧
        ⟨.ofTypeName (typeName payload), value⟩ = e := by
  rw [pack, pack.refuse]
  cases encode payload with
  | none => simp
  | some value => cases hnull : value.isNull <;> simp [hnull]

/-- What cannot be packed cannot be serialized. -/
theorem Envelope.eq_serializationFailed_of_pack {T : Type} [Packable T] {payload : T}
    {fault : Fault} (h : (pack payload).outcome = .error fault) :
    fault = .serializationFailed (typeName payload) := by
  rw [pack, pack.refuse] at h
  cases hvalue : encode payload with
  | none => simpa [hvalue, eq_comm] using h
  | some value => cases hnull : value.isNull <;> simp_all

theorem exists_pack_iff_storable {T : Type} [Packable T] {payload : T} :
    (∃ e, (Envelope.pack payload).outcome = .ok e) ↔ Storable payload := by
  simp only [Envelope.pack_eq_ok_iff, Storable]
  constructor
  · rintro ⟨_, value, hvalue, hnull, -⟩
    exact ⟨value, hvalue, hnull⟩
  · rintro ⟨value, hvalue, hnull⟩
    exact ⟨_, value, hvalue, hnull, rfl⟩

/-! ### Sources -/

variable {D A : Type} [Packable D] [Packable A]

/-- A change without its delta. -/
def Change.bare (c : Change D) : Change Unit := { c with delta := () }

/-- The change of a message without its delta. -/
def Message.bare (m : Message D) : Change Unit := m.toChange.bare

omit [Packable D] in
/-- Whether leases fit has nothing to do with deltas. -/
theorem fits_map_bare_iff (held : Holdings) (cs : List (Change D)) :
    Fits held (cs.map Change.bare) ↔ Fits held cs := by
  induction cs generalizing held with
  | nil => rfl
  | cons c cs ih => exact and_congr_right' (and_congr_right' (ih _))

/-- A message is packed as another: its delta is, and all else is the same. -/
def Message.PackedAs (m : Message D) (packed : PackedMessage) : Prop :=
  ∃ delta, (Envelope.pack m.delta).outcome = .ok delta ∧ m.withDelta delta = packed

namespace Source

theorem pack_eq_ok_iff {s : Source D A} {packed : PackedSource} :
    s.pack.outcome = .ok packed ↔
      packed.id = s.id ∧ packed.timeStamp = s.timeStamp ∧
        (Envelope.pack s.agentSignature).outcome = .ok packed.agentSignature ∧
        List.Forall₂ Message.PackedAs s.messages packed.messages := by
  simp only [pack, Attempt.outcome_bind, Attempt.outcome_mapM, Except.bind_eq_ok_iff,
    Except.mapM_eq_ok_iff, Attempt.outcome_pure, Except.ok.injEq]
  constructor
  · rintro ⟨signature, hsignature, messages, hmessages, rfl⟩
    exact ⟨rfl, rfl, hsignature, hmessages⟩
  · obtain ⟨id, timeStamp, signature, messages⟩ := packed
    rintro ⟨rfl, rfl, hsignature, hmessages⟩
    exact ⟨signature, hsignature, messages, hmessages, rfl⟩

/-- **When a source can be packed.** Its signature and each of its deltas can be stored. -/
theorem exists_pack_iff {s : Source D A} :
    (∃ packed, s.pack.outcome = .ok packed) ↔
      Storable s.agentSignature ∧ ∀ c ∈ s.changes, Storable c.delta := by
  simp only [pack_eq_ok_iff, ← exists_pack_iff_storable, changes, List.forall_mem_map]
  have hmessages : (∃ messages, List.Forall₂ Message.PackedAs s.messages messages) ↔
      ∀ m ∈ s.messages, ∃ delta, (Envelope.pack m.delta).outcome = .ok delta := by
    rw [List.exists_forall₂_iff]
    refine forall₂_congr fun m _ ↦ ?_
    constructor
    · rintro ⟨_, delta, h, -⟩
      exact ⟨delta, h⟩
    · rintro ⟨delta, h⟩
      exact ⟨_, delta, h, rfl⟩
  rw [← hmessages]
  constructor
  · rintro ⟨packed, -, -, hsignature, hpacked⟩
    exact ⟨⟨_, hsignature⟩, _, hpacked⟩
  · rintro ⟨⟨signature, hsignature⟩, messages, hpacked⟩
    exact ⟨⟨s.id, s.timeStamp, signature, messages⟩, rfl, rfl, hsignature, hpacked⟩

/-- A source that cannot be packed has a payload that cannot be serialized. -/
theorem exists_serializationFailed_of_pack {s : Source D A} {fault : Fault}
    (h : s.pack.outcome = .error fault) : ∃ name, fault = .serializationFailed name := by
  simp only [pack, Attempt.outcome_bind, Attempt.outcome_mapM, Except.bind_eq_error_iff,
    Attempt.outcome_pure] at h
  rcases h with hsignature | ⟨_, -, hmessages | ⟨_, -, hdone⟩⟩
  · exact ⟨_, Envelope.eq_serializationFailed_of_pack hsignature⟩
  · obtain ⟨m, -, hm⟩ := Except.exists_of_mapM_eq_error hmessages
    rcases Except.bind_eq_error_iff.1 hm with hdelta | ⟨_, -, hdone⟩
    · exact ⟨_, Envelope.eq_serializationFailed_of_pack hdelta⟩
    · cases hdone
  · cases hdone

variable {s : Source D A} {packed : PackedSource}

/-- Packing a source changes the deltas of its changes and nothing else. -/
theorem map_bare_pack (h : s.pack.outcome = .ok packed) :
    packed.changes.map Change.bare = s.changes.map Change.bare := by
  obtain ⟨-, -, -, hmessages⟩ := pack_eq_ok_iff.1 h
  rw [changes, changes, List.map_map, List.map_map, ← List.forall₂_eq_eq_eq,
    List.forall₂_map_left_iff, List.forall₂_map_right_iff]
  refine hmessages.flip.imp fun packed m hm ↦ ?_
  obtain ⟨delta, -, rfl⟩ := hm
  rfl

/-- So the packed messages are to be seen as the messages are, ahead of one of them and behind. -/
theorem exists_messages_of_pack (h : s.pack.outcome = .ok packed)
    {ahead between behind : List (Message D)} {m : Message D}
    (hs : s.messages = ahead ++ between ++ m :: behind) :
    ∃ ahead' between' m' behind', packed.messages = ahead' ++ between' ++ m' :: behind' ∧
      ahead'.map Message.bare = ahead.map Message.bare ∧
      between'.map Message.bare = between.map Message.bare ∧ m'.bare = m.bare := by
  have hbare := map_bare_pack h
  rw [changes, changes, List.map_map, List.map_map, hs, List.map_append, List.map_append,
    List.map_cons] at hbare
  obtain ⟨front, _, hpacked, hfront, hback⟩ := List.map_eq_append_iff.1 hbare
  obtain ⟨ahead', between', rfl, hahead, hbetween⟩ := List.map_eq_append_iff.1 hfront
  obtain ⟨m', behind', rfl, hm, -⟩ := List.map_eq_cons_iff.1 hback
  exact ⟨ahead', between', m', behind', hpacked, hahead, hbetween, hm⟩

/-- The packed messages follow the versions that the messages follow. -/
theorem map_claim_pack (h : s.pack.outcome = .ok packed) :
    packed.changes.map (·.claim) = s.changes.map (·.claim) := by
  have hclaims := congrArg (List.map Change.claim) (map_bare_pack h)
  rwa [List.map_map, List.map_map] at hclaims

theorem claimsOf_pack (h : s.pack.outcome = .ok packed) (X : Identifier) :
    claimsOf X packed.changes = claimsOf X s.changes :=
  congrArg (versionsOf X) (map_claim_pack h)

theorem fits_pack_iff (h : s.pack.outcome = .ok packed) (held : Holdings) :
    Fits held packed.changes ↔ Fits held s.changes := by
  rw [← fits_map_bare_iff held packed.changes, ← fits_map_bare_iff held s.changes, map_bare_pack h]

end Source

/-- A source that no two messages of follow the same version is never rejected for duplicates. -/
theorem Tables.commit_ne_duplicate (t : Tables) (options : SessionOptions) {s : Source D A}
    (hnodup : (s.changes.map (·.claim)).Nodup) (X : Identifier) (v : Version) :
    (t.commit options s).outcome ≠ .error (.conflict (.duplicateInBatch X v)) := by
  unfold commit
  cases options.readOnly with
  | true => simp
  | false =>
    cases hpack : s.pack.outcome with
    | error fault =>
      obtain ⟨name, rfl⟩ := Source.exists_serializationFailed_of_pack hpack
      simp [hpack]
    | ok packed =>
      have hclaims : (packed.messages.map (·.claim)).Nodup := by
        rwa [← Source.map_claim_pack hpack, Source.changes, List.map_map] at hnodup
      have hcheck := t.check_ne_duplicate hclaims X v
      cases hfault : t.check packed with
      | error fault => simpa [hpack, hfault] using hcheck
      | ok _ => simp [hpack, hfault]

/-! ### What is written of a source -/

/-- A record says of a change what the change says. -/
structure Change.StoredAs (c : Change D) (record : EntityRecord Envelope) : Prop where
  entityId : record.entityId = c.entityId
  entityVersion : record.entityVersion = c.entityVersion
  data : (Envelope.pack c.delta).outcome = .ok record.data

/-- A source adds a record of each of its changes to the table of messages, in order. -/
theorem Tables.exists_records_write (t : Tables) {s : Source D A} {packed : PackedSource}
    (h : s.pack.outcome = .ok packed) :
    ∃ records, (t.write packed).messages = t.messages ++ records ∧
      List.Forall₂ Change.StoredAs s.changes records := by
  obtain ⟨records, hmessages, hrecords⟩ := exists_messages_write t packed
  obtain ⟨-, -, -, hpacked⟩ := Source.pack_eq_ok_iff.1 h
  refine ⟨records, hmessages, ?_⟩
  rw [Source.changes, List.forall₂_map_left_iff]
  clear hmessages h
  generalize s.messages = messages, packed.messages = packedMessages at hpacked hrecords
  induction hpacked generalizing records with
  | nil =>
    cases hrecords
    exact .nil
  | cons hm _ ih =>
    obtain ⟨delta, hdelta, rfl⟩ := hm
    cases hrecords with
    | cons hrecord hrest =>
      exact .cons ⟨hrecord.entityId, hrecord.entityVersion, hrecord.data ▸ hdelta⟩ (ih _ hrest)

end Chronicle
