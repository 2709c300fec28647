import Chronicle.Proofs.Store.Safety

/-!
# Checking first and executing live

A commit checks a whole source against the tables as they are and against an account of its own, and
writes only then. The other way to keep a source whole is to execute it on the live tables, message
by message and lease by lease, stop at the first thing that will not go, and put everything back
(`Tables.execute`). On every store that commits can reach the two agree, in the answer and in the
tables: `attempt_eq_execute`.

The two do not look at the same things. The check compares versions with those before the source,
the execution with those that are there by then; what the messages ahead have added since is what
they claim to follow, one version on. The check knows leases by an account that lists each once; the
execution searches a table, where only soundness keeps a lease from being found twice. `Mirrors`
says how the two views go together before each message.
-/

namespace Chronicle.Tables

/-! ### Live execution -/

/-- The tables after some execution, or the fault that stops it with the tables as they are then. -/
abbrev Live (α : Type) := Except (Fault × Tables) α

namespace Live

variable (s : PackedSource) (m : PackedMessage)

/-- The record of some data of a message, at the next place in the order of writing. -/
def record {α : Type} (t : Tables) (datum : α) : EntityRecord α where
  sequence := t.nextSequence
  sourceId := s.id
  sourceTimeStamp := s.timeStamp
  messageId := m.id
  entityId := m.entityId
  entityVersion := m.entityVersion
  data := datum

/-- Takes the leases that the message deletes off the live table, as far as the entity has them. -/
def deleteLeases (t : Tables) : Tables :=
  { t with leases := withoutData m.entityId m.deleteLeases t.leases }

/-- Puts a lease into the live table, unless the table has it. -/
def insertLease (t : Tables) (lease : Lease) : Live Tables :=
  if lease ∈ t.leases.map (·.data) then .error (.conflict (.lease lease), t)
  else .ok { t with
    nextSequence := t.nextSequence + 1
    leases := t.leases ++ [record s m t lease] }

/-- Takes the tags that the message deletes off the live table, as far as the entity has them. -/
def deleteTags (t : Tables) : Tables :=
  { t with tags := withoutData m.entityId m.deleteTags t.tags }

/-- Puts a tag into the live table. -/
def insertTag (t : Tables) (tag : Tag) : Tables :=
  { t with
    nextSequence := t.nextSequence + 1
    tags := t.tags ++ [record s m t tag] }

/-- Writes the delta of the message, and the version it leads to. -/
def insertDelta (t : Tables) : Tables :=
  { t with
    nextSequence := t.nextSequence + 1
    messages := t.messages ++ [record s m t m.delta]
    entityVersions := m.product :: t.entityVersions }

/-- Executes a message on the live tables. With the tables go the versions that the messages ahead
of it follow. -/
def message (live : Tables × List (Identifier × Version)) (m : PackedMessage) :
    Live (Tables × List (Identifier × Version)) := do
  let (t, seen) := live
  if m.entityVersion.isZero then
    throw (.reservedVersion m.entityId, t)
  if seen.contains (m.entityId, m.expectedPrevious) then
    throw (.conflict (.duplicateInBatch m.entityId m.expectedPrevious), t)
  if t.entityVersions.contains (m.entityId, m.entityVersion) then
    throw (.conflict (.version m.entityId m.entityVersion), t)
  let t ← m.addLeases.foldlM (insertLease s m) (deleteLeases m t)
  let t := m.addTags.foldl (insertTag s m) (deleteTags m t)
  pure (insertDelta s m t, (m.entityId, m.expectedPrevious) :: seen)

/-- Executes a source on the live tables, its own record first. -/
def source (t : Tables) : Live Tables := do
  if t.sourceIds.contains s.id then
    throw (.conflict (.source s.id), t)
  let (t, _) ← s.messages.foldlM (message s) (t.writeSource s, [])
  pure t

end Live

/-- Executes a source, and puts the tables back as they were if it is stopped. -/
def execute (t : Tables) (s : PackedSource) : Except Fault Unit × Tables :=
  match Live.source s t with
  | .ok t' => (.ok (), t')
  | .error (fault, _) => (.error fault, t)

/-! ### One by one and all at once -/

namespace Live

variable {s : PackedSource} {m : PackedMessage}

theorem foldl_insertTag (t : Tables) (tags : List Tag) :
    tags.foldl (insertTag s m) t =
      { t with
        nextSequence := t.nextSequence + tags.length
        tags := t.tags ++ recordsOf s m t.nextSequence tags } := by
  induction tags generalizing t with
  | nil => simp
  | cons tag rest ih =>
    rw [List.foldl_cons, ih, recordsOf_cons]
    simp [insertTag, record, Nat.add_comm, Nat.add_left_comm]

/-- Leases that are granted one by one are inserted one by one, and the first that is not granted
stops the execution. -/
theorem foldlM_insertLease {holders : Holders} {t : Tables} (h : holders.Tracks t.holdings)
    (leases : List Lease) :
    match leases.foldlM (Holders.grant m.entityId) holders with
    | .ok _ => leases.foldlM (insertLease s m) t = .ok { t with
        nextSequence := t.nextSequence + leases.length
        leases := t.leases ++ recordsOf s m t.nextSequence leases }
    | .error fault => ∃ dirty, leases.foldlM (insertLease s m) t = .error (fault, dirty) := by
  induction leases generalizing holders t with
  | nil => simp
  | cons lease rest ih =>
    have hmem : lease ∈ t.leases.map (·.data) ↔ lease ∈ t.holdings.leases := by
      simp [holdings, Holdings.leases]
    rw [List.foldlM_cons, List.foldlM_cons, Holders.grant_eq h, insertLease]
    simp only [hmem]
    by_cases hheld : lease ∈ t.holdings.leases
    · rw [if_pos hheld, if_pos hheld]
      exact ⟨t, rfl⟩
    · rw [if_neg hheld, if_neg hheld, Except.ok_bind, Except.ok_bind]
      have hnext : Holders.Tracks ((lease, m.entityId) :: holders)
          { t with
            nextSequence := t.nextSequence + 1
            leases := t.leases ++ [record s m t lease] }.holdings := by
        simpa [holdings, Holdings.take, record] using h.grant m.entityId hheld
      have := ih hnext
      split at this
      case h_1 =>
        rw [this, recordsOf_cons]
        simp [record, Nat.add_comm, Nat.add_left_comm]
      case h_2 => exact this

end Live

/-! ### The two views -/

/-- What a check and an execution know before a message: the account of the check is that of the
live leases, both have seen the same versions followed, and the live versions are those before the
source and those that were followed, each one on. -/
structure Mirrors (t : Tables) (c : Check) (live : Tables)
    (seen : List (Identifier × Version)) : Prop where
  holders : c.holders.Tracks live.holdings
  followed : c.followed = seen
  versions : live.entityVersions = seen.map (fun p ↦ (p.1, p.2.next)) ++ t.entityVersions

namespace Mirrors

variable {t live : Tables} {c c' : Check} {seen : List (Identifier × Version)}
  {s : PackedSource} {m : PackedMessage}

/-- To a message that follows no version seen before, the live versions are as good as those before
the source, because no two versions have the same successor. -/
theorem product_mem_iff (h : Mirrors t c live seen) (hnew : m.claim ∉ seen) :
    m.product ∈ live.entityVersions ↔ m.product ∈ t.entityVersions := by
  rw [h.versions, List.mem_append, or_iff_right]
  intro hmem
  obtain ⟨p, hp, heq⟩ := List.mem_map.1 hmem
  obtain ⟨hentity, hversion⟩ := Prod.mk.inj heq
  have : p = m.claim := Prod.ext hentity (Version.next_inj.1 hversion)
  exact hnew (this ▸ hp)

theorem message_ok (h : Mirrors t c live seen) (hm : Check.message t c m = .ok c') :
    Mirrors t c' (writeMessage s live m) (m.claim :: seen) where
  holders := holdings_writeMessage s live m ▸ Check.message_tracks h.holders hm
  followed := by
    obtain ⟨-, -, -, holders, -, rfl⟩ := Check.message_eq_ok_iff.1 hm
    rw [h.followed]
  versions := by
    rw [entityVersions_writeMessage, h.versions]
    rfl

/-- A message that passes the check is executed to the end, and writes what the commit writes; one
that does not stops the execution with the same fault. -/
theorem message (h : Mirrors t c live seen) (m : PackedMessage) :
    match Check.message t c m with
    | .ok _ => Live.message s (live, seen) m = .ok (writeMessage s live m, m.claim :: seen)
    | .error fault => ∃ dirty, Live.message s (live, seen) m = .error (fault, dirty) := by
  unfold Check.message Live.message
  rw [h.followed]
  by_cases hzero : m.entityVersion = .zero
  · simp [hzero]
  by_cases hclaim : (m.entityId, m.expectedPrevious) ∈ seen
  · simp [hzero, hclaim]
  have hproduct := h.product_mem_iff hclaim
  unfold Change.product at hproduct
  by_cases hold : (m.entityId, m.entityVersion) ∈ t.entityVersions
  · simp [hzero, hclaim, hproduct, hold]
  have htracks : (m.deleteLeases.foldl (Holders.release m.entityId) c.holders).Tracks
      (Live.deleteLeases m live).holdings := by
    have := h.holders.releaseAll m.entityId m.deleteLeases
    rwa [Holdings.giveUp, holdings, List.filter_map] at this
  have hleases := Live.foldlM_insertLease (s := s) (m := m) htracks m.addLeases
  simp only [List.contains_eq_mem, Version.isZero_iff, hzero, hclaim, hproduct, hold,
    decide_false, Bool.false_eq_true, if_false, bind_pure_comp]
  split at hleases
  case h_1 holders hgrant =>
    rw [hgrant, hleases]
    simp only [Except.map_ok, Live.foldl_insertTag]
    rfl
  case h_2 fault hgrant =>
    obtain ⟨dirty, hleases⟩ := hleases
    rw [hgrant, hleases]
    exact ⟨dirty, rfl⟩

/-- The same of all messages of a source, by induction on them. -/
theorem messages (h : Mirrors t c live seen) (ms : List PackedMessage) :
    match ms.foldlM (Check.message t) c with
    | .ok _ => ∃ seen', ms.foldlM (Live.message s) (live, seen) =
        .ok (ms.foldl (writeMessage s) live, seen')
    | .error fault => ∃ dirty, ms.foldlM (Live.message s) (live, seen) = .error (fault, dirty) := by
  induction ms generalizing c live seen with
  | nil => exact ⟨seen, rfl⟩
  | cons m rest ih =>
    have hfirst := h.message (s := s) m
    rw [List.foldlM_cons, List.foldlM_cons, List.foldl_cons]
    cases hm : Check.message t c m with
    | ok c' =>
      rw [hm] at hfirst
      rw [hfirst]
      exact ih (h.message_ok hm)
    | error fault =>
      rw [hm] at hfirst
      obtain ⟨dirty, hfirst⟩ := hfirst
      rw [hfirst]
      exact ⟨dirty, rfl⟩

end Mirrors

/-! ### Agreement -/

/-- On sound tables a source is stopped by the fault that the check finds, or else executed to the
tables that a commit writes. -/
theorem execute_eq {t : Tables} (h : t.Sound) (s : PackedSource) :
    t.execute s =
      match t.check s with
      | .ok () => (.ok (), t.write s)
      | .error fault => (.error fault, t) := by
  unfold execute Live.source check
  by_cases hid : s.id ∈ t.sourceIds
  · simp [hid]
  have hstart : Mirrors t (.start t) (t.writeSource s) [] :=
    ⟨Holders.Tracks.ofRecords h.data_nodup, rfl, rfl⟩
  have hmessages := hstart.messages (s := s) s.messages
  simp only [List.contains_eq_mem, hid, decide_false, Bool.false_eq_true, if_false]
  cases hcheck : s.messages.foldlM (Check.message t) (.start t) with
  | ok c =>
    rw [hcheck] at hmessages
    obtain ⟨seen, hmessages⟩ := hmessages
    simp [hmessages, write]
  | error fault =>
    rw [hcheck] at hmessages
    obtain ⟨dirty, hmessages⟩ := hmessages
    simp [hmessages]

/-- **Checking first agrees with executing live.** On every store that commits can reach, a source
that a session may write and that can be packed gets the same answer, fault for fault, and leaves
the same tables, as when it is executed live and taken back at the first fault. -/
theorem attempt_eq_execute {D A : Type} [Packable D] [Packable A] {t : Tables} (h : Reachable t)
    {options : SessionOptions} (hwrite : options.readOnly = false) {s : Source D A}
    {packed : PackedSource} (hpack : s.pack.outcome = .ok packed) :
    t.attempt options s = t.execute packed := by
  rw [execute_eq h.sound]
  unfold Tables.attempt commit
  cases hcheck : t.check packed with
  | ok u => simp [hwrite, hpack, hcheck]
  | error fault => simp [hwrite, hpack, hcheck]

theorem attempt_eq_execute_contesting :
    let t := ((Tables.empty.attempt {} taking).2.attempt {} handingOver).2
    ∃ packed, Reachable t ∧ contesting.pack.outcome = .ok packed ∧
      t.attempt {} contesting = t.execute packed ∧
      (t.execute packed).1 = .error (.conflict (.lease spot)) := by
  intro t
  have hreach : Reachable t := .commit {} handingOver (.commit {} taking .empty)
  refine ⟨_, hreach, rfl, attempt_eq_execute hreach rfl rfl, ?_⟩
  decide

end Chronicle.Tables
