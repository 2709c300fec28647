import Chronicle.Proofs.Fallible
import Chronicle.Store.Commit
import Mathlib.Data.List.Nodup

/-!
# Which sources a store accepts

The check of a source keeps its own account of who would hold which lease, and compares every
message with the versions as they were before the source. Here the account is tied to the table of
leases it stands for (`Holders.Tracks`), message by message, and what the check accepts is said
without it: `Tables.check_eq_ok_iff`. A source is accepted exactly when it is new, every message
leads to a version that is free, no two messages follow one version of one entity, and the leases
fit (`Fits`): in order, each message first gives up leases of its entity and then takes leases that
no one holds.
-/

namespace Chronicle

/-! ### Holdings -/

/-- Held leases, each with its holder. -/
abbrev Holdings := List (Lease × Identifier)

namespace Holdings

/-- The leases that are held. -/
def leases (held : Holdings) : List Lease := held.map (·.1)

/-- What is held once an entity has given some leases up. Those of others stay. -/
def giveUp (held : Holdings) (entityId : Identifier) (leases : List Lease) : Holdings :=
  held.filter fun h ↦ h.2 ≠ entityId || !leases.contains h.1

/-- What is held once an entity has taken some leases. -/
def take (held : Holdings) (entityId : Identifier) (leases : List Lease) : Holdings :=
  held ++ leases.map (·, entityId)

theorem mem_giveUp {held : Holdings} {entityId id : Identifier} {leases : List Lease}
    {lease : Lease} :
    (lease, id) ∈ held.giveUp entityId leases ↔
      (lease, id) ∈ held ∧ ¬ (id = entityId ∧ lease ∈ leases) := by
  simp only [giveUp, List.mem_filter, List.contains_eq_mem, Bool.or_eq_true, decide_eq_true_eq,
    Bool.not_eq_true', decide_eq_false_iff_not, not_and, Decidable.imp_iff_not_or, ne_eq]

theorem mem_take {held : Holdings} {entityId id : Identifier} {leases : List Lease}
    {lease : Lease} :
    (lease, id) ∈ held.take entityId leases ↔
      (lease, id) ∈ held ∨ (id = entityId ∧ lease ∈ leases) := by
  simp [take, and_comm, eq_comm]

theorem mem_leases {held : Holdings} {lease : Lease} :
    lease ∈ held.leases ↔ ∃ id, (lease, id) ∈ held := by
  simp [leases]

theorem leases_take (held : Holdings) (entityId : Identifier) (leases : List Lease) :
    (held.take entityId leases).leases = held.leases ++ leases := by
  simp [Holdings.leases, take, Function.comp_def]

theorem nodup_leases_giveUp {held : Holdings} (h : held.leases.Nodup) (entityId : Identifier)
    (leases : List Lease) : (held.giveUp entityId leases).leases.Nodup :=
  h.sublist (List.filter_sublist.map _)

/-- Giving leases up one by one gives them all up. -/
theorem giveUp_cons (held : Holdings) (entityId : Identifier) (lease : Lease)
    (leases : List Lease) :
    held.giveUp entityId (lease :: leases) =
      (held.giveUp entityId [lease]).giveUp entityId leases := by
  simp only [giveUp, List.filter_filter]
  refine List.filter_congr fun h _ ↦ ?_
  by_cases hid : h.2 = entityId <;> simp [hid, Bool.and_comm]

@[simp] theorem giveUp_nil (held : Holdings) (entityId : Identifier) :
    held.giveUp entityId [] = held := by
  simp [giveUp]

/-- What is held after a change: its entity gives leases up, and then takes leases. -/
def after {D : Type} (held : Holdings) (c : Change D) : Holdings :=
  (held.giveUp c.entityId c.deleteLeases).take c.entityId c.addLeases

end Holdings

/-- Whether the leases of some changes, one after the other, fit what is held: an entity gives up
what it holds, and then takes only what no one holds. -/
def Fits {D : Type} : Holdings → List (Change D) → Prop
  | _, [] => True
  | held, c :: rest =>
    c.addLeases.Nodup ∧
      (∀ lease ∈ c.addLeases, lease ∉ (held.giveUp c.entityId c.deleteLeases).leases) ∧
      Fits (held.after c) rest

/-! ### The account of the check -/

namespace Holders

/-- A lease that its entity gives up has no holder; every other lease keeps its own. -/
theorem holder?_release (holders : Holders) (entityId : Identifier) (lease l : Lease) :
    (holders.release entityId lease).holder? l =
      if l = lease ∧ holders.holder? lease = some entityId then none else holders.holder? l := by
  have hfilter : ∀ entries : Holders, holder? (entries.filter (·.1 ≠ lease)) l =
      if l = lease then none else holder? entries l := by
    intro entries
    unfold holder?
    induction entries with
    | nil => simp
    | cons e rest ih => grind
  unfold release
  by_cases hholder : holders.holder? lease = some entityId
  · rw [if_pos hholder, hfilter]
    simp [hholder]
  · rw [if_neg hholder, if_neg fun h ↦ hholder h.2]

/-- A lease that an entity takes is the entity's. -/
theorem holder?_cons (holders : Holders) (entityId : Identifier) (lease l : Lease) :
    holder? ((lease, entityId) :: holders) l =
      if l = lease then some entityId else holders.holder? l := by
  unfold holder?
  by_cases hl : l = lease
  · simp [hl]
  · have hb : (l == lease) = false := by simpa using hl
    simp [List.lookup_cons, hb, hl]

end Holders

/-- The account of a check says of every lease who holds it, and no one else does. -/
structure Holders.Tracks (holders : Holders) (held : Holdings) : Prop where
  once : held.leases.Nodup
  holder_iff : ∀ (lease : Lease) (id : Identifier),
    holders.holder? lease = some id ↔ (lease, id) ∈ held

namespace Holders.Tracks

variable {holders : Holders} {held : Holdings}

theorem holder_isSome_iff (h : holders.Tracks held) (lease : Lease) :
    (holders.holder? lease).isSome ↔ lease ∈ held.leases := by
  rw [Option.isSome_iff_exists, Holdings.mem_leases]
  exact exists_congr fun id ↦ h.holder_iff lease id

/-- The account that a check starts from is that of the table. -/
theorem ofRecords {records : List (EntityRecord Lease)}
    (h : (records.map (·.data)).Nodup) :
    (Holders.ofRecords records).Tracks (records.map fun r ↦ (r.data, r.entityId)) where
  once := by simpa [Holdings.leases, Function.comp_def] using h
  holder_iff lease id := by
    have hnodup : ((records.map fun r ↦ (r.data, r.entityId)).reverse.map (·.1)).Nodup := by
      simpa [List.map_reverse, Function.comp_def] using h
    rw [← List.mem_reverse]
    unfold Holders.ofRecords Holders.holder?
    generalize (records.map fun r ↦ (r.data, r.entityId)).reverse = entries at hnodup ⊢
    induction entries with
    | nil => simp
    | cons entry rest ih =>
      obtain ⟨l, e⟩ := entry
      obtain ⟨hl, hrest⟩ := List.nodup_cons.1 hnodup
      have hfirst : ∀ e', (l, e') ∉ rest := fun e' he' ↦ hl (List.mem_map.2 ⟨_, he', rfl⟩)
      by_cases hlease : lease = l
      · subst hlease
        simp [hfirst, eq_comm]
      · have hb : (lease == l) = false := by simpa using hlease
        simp [List.lookup_cons, hb, ih hrest, hlease]

/-- The account after a lease is released is that of what is held once it is given up. -/
theorem release (h : holders.Tracks held) (entityId : Identifier) (lease : Lease) :
    (holders.release entityId lease).Tracks (held.giveUp entityId [lease]) where
  once := Holdings.nodup_leases_giveUp h.once _ _
  holder_iff l id := by
    rw [Holdings.mem_giveUp, List.mem_singleton, Holders.holder?_release]
    by_cases hgiven : l = lease ∧ holders.holder? lease = some entityId
    · obtain ⟨rfl, hholder⟩ := hgiven
      have honly : (l, id) ∈ held → id = entityId := fun hm ↦
        Option.some.inj (((h.holder_iff l id).2 hm).symm.trans hholder)
      simpa [hholder] using honly
    · rw [if_neg hgiven, h.holder_iff]
      refine ⟨fun hm ↦ ⟨hm, ?_⟩, fun hm ↦ hm.1⟩
      rintro ⟨rfl, rfl⟩
      exact hgiven ⟨rfl, (h.holder_iff _ _).2 hm⟩

theorem releaseAll (h : holders.Tracks held) (entityId : Identifier) (leases : List Lease) :
    (leases.foldl (Holders.release entityId) holders).Tracks (held.giveUp entityId leases) := by
  induction leases generalizing holders held with
  | nil => simpa using h
  | cons lease rest ih =>
    rw [Holdings.giveUp_cons]
    exact ih (h.release entityId lease)

/-- A lease that no one holds goes to the entity that takes it. -/
theorem grant (h : holders.Tracks held) (entityId : Identifier) {lease : Lease}
    (hfree : lease ∉ held.leases) :
    Holders.Tracks ((lease, entityId) :: holders) (held.take entityId [lease]) where
  once := by
    rw [Holdings.leases_take]
    refine List.Nodup.append h.once (List.nodup_singleton lease) ?_
    simpa using hfree
  holder_iff l id := by
    rw [Holdings.mem_take, List.mem_singleton, ← h.holder_iff, Holders.holder?_cons]
    by_cases hl : l = lease
    · subst hl
      have hnone : holders.holder? l = none :=
        Option.not_isSome_iff_eq_none.1 (mt (h.holder_isSome_iff l).1 hfree)
      simp [hnone, eq_comm]
    · simp [hl]

end Holders.Tracks

namespace Holders

/-- A lease is granted when no one holds it. -/
theorem grant_eq {holders : Holders} {held : Holdings} (h : holders.Tracks held)
    (entityId : Identifier) (lease : Lease) :
    holders.grant entityId lease =
      if lease ∈ held.leases then .error (.conflict (.lease lease))
      else .ok ((lease, entityId) :: holders) := by
  unfold Holders.grant
  simp only [h.holder_isSome_iff]

/-- Leases are granted one after the other when they are distinct and no one holds any of them. The
account then follows what is held. -/
theorem grantAll_eq_ok_iff {holders : Holders} {held : Holdings} (h : holders.Tracks held)
    (entityId : Identifier) (leases : List Lease) :
    (∃ granted, leases.foldlM (grant entityId) holders = .ok granted) ↔
      leases.Nodup ∧ ∀ lease ∈ leases, lease ∉ held.leases := by
  induction leases generalizing holders held with
  | nil => simp
  | cons lease rest ih =>
    rw [List.foldlM_cons, grant_eq h]
    by_cases hheld : lease ∈ held.leases
    · simp [hheld]
    · rw [if_neg hheld, Except.ok_bind, ih (h.grant entityId hheld)]
      simp only [Holdings.leases_take, List.mem_append, List.mem_singleton, List.nodup_cons,
        List.forall_mem_cons]
      grind

/-- Leases are refused as leases. -/
theorem eq_lease_of_grantAll_eq_error {holders : Holders} {entityId : Identifier}
    {leases : List Lease} {fault : Fault}
    (h : leases.foldlM (grant entityId) holders = .error fault) :
    ∃ lease, fault = .conflict (.lease lease) := by
  induction leases generalizing holders with
  | nil => cases h
  | cons lease rest ih =>
    rw [List.foldlM_cons, grant] at h
    split at h
    · exact ⟨lease, (Except.error.inj h).symm⟩
    · exact ih h

theorem Tracks.of_grantAll {holders granted : Holders} {held : Holdings} (h : holders.Tracks held)
    {entityId : Identifier} {leases : List Lease}
    (hgrant : leases.foldlM (Holders.grant entityId) holders = .ok granted) :
    granted.Tracks (held.take entityId leases) := by
  induction leases generalizing holders held with
  | nil =>
    cases hgrant
    simpa [Holdings.take] using h
  | cons lease rest ih =>
    rw [List.foldlM_cons, grant_eq h] at hgrant
    split at hgrant
    · cases hgrant
    case isFalse hfree =>
      simpa [Holdings.take] using ih (h.grant entityId hfree) hgrant

end Holders

/-! ### Checking -/

/-- The version of an entity that a change follows. -/
def Change.claim {D : Type} (c : Change D) : Identifier × Version :=
  (c.entityId, c.expectedPrevious)

/-- The version of an entity that a change leads to. -/
def Change.product {D : Type} (c : Change D) : Identifier × Version := (c.entityId, c.entityVersion)

/-- Changes that lead to the same version follow the same version. -/
theorem Change.product_eq_iff {C D : Type} {c : Change C} {d : Change D} :
    c.product = d.product ↔ c.claim = d.claim := by
  simp [product, claim, entityVersion, Version.next_inj]

namespace Check

variable {t : Tables} {c c' : Check} {held : Holdings} {m : PackedMessage}

/-- The check of a message as its tests one after the other. -/
theorem message_eq (t : Tables) (c : Check) (m : PackedMessage) :
    Check.message t c m =
      if m.entityVersion = .zero then .error (.reservedVersion m.entityId)
      else if m.claim ∈ c.followed then
        .error (.conflict (.duplicateInBatch m.entityId m.expectedPrevious))
      else if m.product ∈ t.entityVersions then
        .error (.conflict (.version m.entityId m.entityVersion))
      else
        (fun holders ↦ ⟨m.claim :: c.followed, holders⟩) <$>
          m.addLeases.foldlM (Holders.grant m.entityId)
            (m.deleteLeases.foldl (Holders.release m.entityId) c.holders) := by
  unfold Check.message Change.claim Change.product
  by_cases hzero : m.entityVersion = .zero
  · simp [hzero]
  by_cases hclaim : (m.entityId, m.expectedPrevious) ∈ c.followed
  · simp [hzero, hclaim]
  by_cases hproduct : (m.entityId, m.entityVersion) ∈ t.entityVersions
  · simp [hzero, hclaim, hproduct]
  · simp [hzero, hclaim, hproduct, map_eq_pure_bind]

/-- All that the check of one message asks for, and what it adds to the account. -/
theorem message_eq_ok_iff :
    Check.message t c m = .ok c' ↔
      m.entityVersion ≠ .zero ∧ m.claim ∉ c.followed ∧ m.product ∉ t.entityVersions ∧
        ∃ holders, m.addLeases.foldlM (Holders.grant m.entityId)
            (m.deleteLeases.foldl (Holders.release m.entityId) c.holders) = .ok holders ∧
          ⟨m.claim :: c.followed, holders⟩ = c' := by
  rw [message_eq]
  split_ifs with hzero hclaim hproduct
  · simp [hzero]
  · simp [hclaim]
  · simp [hproduct]
  · simp [hzero, hclaim, hproduct, map_eq_pure_bind, Except.bind_eq_ok_iff]

theorem message_tracks (h : c.holders.Tracks held) (hm : Check.message t c m = .ok c') :
    c'.holders.Tracks (held.after m.toChange) := by
  obtain ⟨-, -, -, holders, hgrant, rfl⟩ := message_eq_ok_iff.1 hm
  exact (h.releaseAll m.entityId m.deleteLeases).of_grantAll hgrant

/-- What the check of some messages asks for, without the account. -/
theorem messages_eq_ok_iff (h : c.holders.Tracks held) (ms : List PackedMessage) :
    (∃ c', ms.foldlM (Check.message t) c = .ok c') ↔
      (∀ m ∈ ms, m.entityVersion ≠ .zero ∧ m.product ∉ t.entityVersions) ∧
        (ms.map (·.claim)).Nodup ∧ (∀ m ∈ ms, m.claim ∉ c.followed) ∧
        Fits held (ms.map (·.toChange)) := by
  induction ms generalizing c held with
  | nil => simp [Fits]
  | cons m rest ih =>
    have hgrants := Holders.grantAll_eq_ok_iff (h.releaseAll m.entityId m.deleteLeases)
      m.entityId m.addLeases
    simp only [List.foldlM_cons, Except.bind_eq_ok_iff, List.map_cons, List.nodup_cons, Fits,
      List.forall_mem_cons]
    constructor
    · rintro ⟨c', c₁, hm, hrest⟩
      obtain ⟨hv, hclaims, hnew, hfits⟩ := (ih (message_tracks h hm)).1 ⟨c', hrest⟩
      obtain ⟨hzero, hclaim, hproduct, holders, hgrant, rfl⟩ := message_eq_ok_iff.1 hm
      obtain ⟨hnodup, hfree⟩ := hgrants.1 ⟨holders, hgrant⟩
      have hself : m.claim ∉ rest.map (·.claim) := fun hmem ↦ by
        obtain ⟨m', hm', heq⟩ := List.mem_map.1 hmem
        exact hnew m' hm' (heq ▸ List.mem_cons_self)
      exact ⟨⟨⟨hzero, hproduct⟩, hv⟩, ⟨hself, hclaims⟩,
        ⟨hclaim, fun m' hm' hold ↦ hnew m' hm' (List.mem_cons_of_mem _ hold)⟩,
        hnodup, hfree, hfits⟩
    · rintro ⟨⟨⟨hzero, hproduct⟩, hv⟩, ⟨hself, hclaims⟩, ⟨hclaim, hold⟩, hnodup, hfree, hfits⟩
      obtain ⟨holders, hgrant⟩ := hgrants.2 ⟨hnodup, hfree⟩
      have hm := message_eq_ok_iff.2 ⟨hzero, hclaim, hproduct, holders, hgrant, rfl⟩
      have hnew : ∀ m' ∈ rest, m'.claim ∉ m.claim :: c.followed := fun m' hm' hmem ↦ by
        rcases List.mem_cons.1 hmem with heq | hmem
        · exact hself (heq ▸ List.mem_map_of_mem hm')
        · exact hold m' hm' hmem
      obtain ⟨c', hrest⟩ := (ih (message_tracks h hm)).2 ⟨hv, hclaims, hnew, hfits⟩
      exact ⟨c', _, hm, hrest⟩

/-- A message is only refused as a duplicate if it follows what another one has followed. -/
theorem mem_followed_of_message_eq_error {X : Identifier} {v : Version}
    (h : Check.message t c m = .error (.conflict (.duplicateInBatch X v))) :
    m.claim ∈ c.followed := by
  rw [message_eq] at h
  split_ifs at h with hzero hclaim hproduct
  · cases h
  · exact hclaim
  · cases h
  · rw [map_eq_pure_bind, Except.bind_eq_error_iff] at h
    rcases h with hgrant | ⟨_, -, hdone⟩
    · obtain ⟨lease, hlease⟩ := Holders.eq_lease_of_grantAll_eq_error hgrant
      cases hlease
    · cases hdone

/-- So messages are only refused as duplicates if two of them, or one of them and one before, follow
the same version. -/
theorem not_nodup_of_messages_eq_error {X : Identifier} {v : Version} {ms : List PackedMessage}
    (h : ms.foldlM (Check.message t) c = .error (.conflict (.duplicateInBatch X v))) :
    ¬ (c.followed ++ ms.map (·.claim)).Nodup := by
  induction ms generalizing c with
  | nil => cases h
  | cons m rest ih =>
    rw [List.foldlM_cons, Except.bind_eq_error_iff] at h
    rw [List.map_cons, List.nodup_middle]
    rcases h with hm | ⟨c', hm, hrest⟩
    · have hmem := mem_followed_of_message_eq_error hm
      exact fun hnodup ↦ (List.nodup_cons.1 hnodup).1 (List.mem_append_left _ hmem)
    · obtain ⟨-, -, -, holders, -, rfl⟩ := message_eq_ok_iff.1 hm
      exact ih hrest

end Check

namespace Tables

/-- The leases that are held by the table of leases. -/
def holdings (t : Tables) : Holdings := t.leases.map fun record ↦ (record.data, record.entityId)

/-- The check of a source as its tests one after the other. -/
theorem check_eq (t : Tables) (s : PackedSource) :
    t.check s =
      if s.id ∈ t.sourceIds then .error (.conflict (.source s.id))
      else (fun _ ↦ ()) <$> s.messages.foldlM (Check.message t) (.start t) := by
  unfold check
  by_cases hknown : s.id ∈ t.sourceIds
  · simp [hknown]
  · simp [hknown, map_eq_pure_bind]

/-- **What a store accepts.** A source that is new, whose messages each lead to a version that is
not reserved and that the entity does not have, of which no two follow the same version, and whose
leases fit what is held. -/
theorem check_eq_ok_iff {t : Tables} (h : (t.leases.map (·.data)).Nodup) (s : PackedSource) :
    t.check s = .ok () ↔
      s.id ∉ t.sourceIds ∧
        (∀ m ∈ s.messages, m.entityVersion ≠ .zero ∧ m.product ∉ t.entityVersions) ∧
        (s.messages.map (·.claim)).Nodup ∧ Fits t.holdings (s.messages.map (·.toChange)) := by
  have hmessages := Check.messages_eq_ok_iff (t := t) (c := .start t) (Holders.Tracks.ofRecords h)
    s.messages
  simp only [Check.start, List.not_mem_nil, not_false_eq_true, implies_true, true_and]
    at hmessages
  rw [check_eq]
  by_cases hid : s.id ∈ t.sourceIds
  · simp [hid]
  · simp only [hid, if_false, not_false_eq_true, true_and, map_eq_pure_bind,
      Except.bind_eq_ok_iff, Except.pure_eq_ok, holdings, ← hmessages]
    simp [Check.start]

/-- A source whose messages all follow different versions is not refused for duplicates. -/
theorem check_ne_duplicate (t : Tables) {s : PackedSource}
    (hnodup : (s.messages.map (·.claim)).Nodup) (X : Identifier) (v : Version) :
    t.check s ≠ .error (.conflict (.duplicateInBatch X v)) := by
  intro h
  rw [check_eq] at h
  split_ifs at h with hid
  · cases h
  · rw [map_eq_pure_bind, Except.bind_eq_error_iff] at h
    rcases h with hmessages | ⟨_, -, hdone⟩
    · exact Check.not_nodup_of_messages_eq_error hmessages hnodup
    · cases hdone

end Tables

end Chronicle
