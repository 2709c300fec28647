import Chronicle.Proofs.Store.Packing

/-!
# What a commit touches

The three tables that are kept for entities change in one way. Of the records of its entity a
message leaves some where they are, and puts new ones behind them; the records of other entities it
does not touch (`exists_records_writeMessage`). So a source leaves the records of an entity that it
has no message of as they were (`recordsFor_write`), even if it names its leases and tags among
those to delete.

The check keeps to that, although it knows leases by an account of its own. A lease stays with its
holder through all deletions but the holder's own (`mem_afterAll_of_mem`), and whoever takes it
meanwhile is refused: the check of the source comes to the check of what is ahead in it, and then
to the fault of that lease (`check_eq_of_held`).
-/

namespace Chronicle

/-! ### Tables of entities -/

namespace Kind

/-- Whether data of the entity of a message outlives the message. Deltas always do. -/
def keeps : (kind : Kind) → PackedMessage → kind.Data → Bool
  | .message, _, _ => true
  | .lease, m, datum => !m.deleteLeases.contains datum
  | .tag, m, datum => !m.deleteTags.contains datum

/-- What a message brings of a kind. -/
def brought : (kind : Kind) → PackedMessage → List kind.Data
  | .message, m => [m.delta]
  | .lease, m => m.addLeases
  | .tag, m => m.addTags

end Kind

namespace Tables

variable {s : PackedSource} {X : Identifier}

/-- What a message does to each of the tables that are kept for entities. -/
theorem exists_records_writeMessage (s : PackedSource) (t : Tables) (m : PackedMessage)
    (kind : Kind) :
    ∃ start, (writeMessage s t m).records (.entity kind) =
      (t.records (.entity kind)).filter
          (fun record ↦ record.entityId ≠ m.entityId || kind.keeps m record.data) ++
        recordsOf s m start (kind.brought m) := by
  cases kind with
  | message =>
    have hall : t.messages.filter (fun record ↦ record.entityId ≠ m.entityId || true) =
        t.messages := by simp
    refine ⟨_, (congrArg (· ++ _) hall).symm⟩
  | lease => exact ⟨_, rfl⟩
  | tag => exact ⟨_, rfl⟩

/-- The records that are kept for an entity, in the order of writing. -/
def recordsFor (t : Tables) (kind : Kind) (X : Identifier) : List (EntityRecord kind.Data) :=
  (t.records (.entity kind)).filter (·.entityId = X)

/-- A message leaves the records of other entities alone. -/
theorem recordsFor_writeMessage_of_ne (t : Tables) {m : PackedMessage} (hX : m.entityId ≠ X)
    (kind : Kind) : (writeMessage s t m).recordsFor kind X = t.recordsFor kind X := by
  obtain ⟨start, hrecords⟩ := exists_records_writeMessage s t m kind
  exact (congrArg _ hrecords).trans (filter_append_recordsOf_of_ne _ hX)

/-- Of the records of its own entity some stay, and new ones come behind them. -/
theorem exists_recordsFor_writeMessage (t : Tables) (m : PackedMessage) (kind : Kind) :
    ∃ start, (writeMessage s t m).recordsFor kind m.entityId =
      (t.recordsFor kind m.entityId).filter (kind.keeps m ·.data) ++
        recordsOf s m start (kind.brought m) := by
  obtain ⟨start, hrecords⟩ := exists_records_writeMessage s t m kind
  exact ⟨start, (congrArg _ hrecords).trans (filter_append_recordsOf_of_eq _ rfl)⟩

/-- The record of a source touches no entity. -/
theorem recordsFor_writeSource (t : Tables) (s : PackedSource) (kind : Kind) (X : Identifier) :
    (t.writeSource s).recordsFor kind X = t.recordsFor kind X := by
  cases kind <;> rfl

/-- A source leaves the records of an entity alone that it has no message of. -/
theorem recordsFor_write (t : Tables) (hX : ∀ c ∈ s.changes, c.entityId ≠ X) (kind : Kind) :
    (t.write s).recordsFor kind X = t.recordsFor kind X := by
  refine List.foldlRecOn (motive := fun t' : Tables ↦
    t'.recordsFor kind X = t.recordsFor kind X) s.messages _ (t.recordsFor_writeSource s kind X)
    fun t' h m hm ↦ ?_
  rw [recordsFor_writeMessage_of_ne t' (hX m.toChange (List.mem_map_of_mem hm)), h]

end Tables

/-! ### Leases stay with their holders -/

namespace Holdings

variable {D : Type} {held : Holdings} {cs : List (Change D)} {lease : Lease} {X : Identifier}

/-- What is held after some changes. -/
def afterAll (held : Holdings) (cs : List (Change D)) : Holdings := cs.foldl after held

theorem mem_after {c : Change D} :
    (lease, X) ∈ held.after c ↔
      ((lease, X) ∈ held ∧ ¬ (X = c.entityId ∧ lease ∈ c.deleteLeases)) ∨
        (X = c.entityId ∧ lease ∈ c.addLeases) := by
  rw [after, mem_take, mem_giveUp]

/-- What is held has nothing to do with deltas. -/
theorem afterAll_map_bare (held : Holdings) (cs : List (Change D)) :
    held.afterAll (cs.map Change.bare) = held.afterAll cs := by
  rw [afterAll, List.foldl_map]
  rfl

theorem afterAll_append (held : Holdings) (cs ds : List (Change D)) :
    held.afterAll (cs ++ ds) = (held.afterAll cs).afterAll ds :=
  List.foldl_append

/-- A lease stays with its holder, as long as the holder does not give it up itself. -/
theorem mem_afterAll_of_mem (h : (lease, X) ∈ held)
    (hkeep : ∀ c ∈ cs, c.entityId = X → lease ∉ c.deleteLeases) :
    (lease, X) ∈ held.afterAll cs := by
  induction cs generalizing held with
  | nil => exact h
  | cons c cs ih =>
    obtain ⟨hfirst, hrest⟩ := List.forall_mem_cons.1 hkeep
    refine ih (mem_after.2 (.inl ⟨h, ?_⟩)) hrest
    rintro ⟨hX, hdelete⟩
    exact hfirst hX.symm hdelete

/-- A lease that no change takes or deletes stays with whoever has it. -/
theorem mem_afterAll_iff (h : ∀ c ∈ cs, lease ∉ c.addLeases ∧ lease ∉ c.deleteLeases) :
    (lease, X) ∈ held.afterAll cs ↔ (lease, X) ∈ held := by
  induction cs generalizing held with
  | nil => rfl
  | cons c cs ih =>
    obtain ⟨⟨hadd, hdelete⟩, hrest⟩ := List.forall_mem_cons.1 h
    refine (ih hrest).trans ?_
    rw [mem_after]
    simp [hadd, hdelete]

end Holdings

namespace Check

variable {t : Tables} {c c' : Check} {held : Holdings} {X : Identifier} {lease : Lease}

/-- The account of a check after some messages is that of what is held after their changes. -/
theorem messages_tracks (h : c.holders.Tracks held) {ms : List PackedMessage}
    (hms : ms.foldlM (Check.message t) c = .ok c') :
    c'.holders.Tracks (held.afterAll (ms.map (·.toChange))) := by
  induction ms generalizing c held with
  | nil =>
    cases hms
    exact h
  | cons m ms ih =>
    rw [List.foldlM_cons, Except.bind_eq_ok_iff] at hms
    obtain ⟨c₁, hm, hrest⟩ := hms
    exact ih (message_tracks h hm) hrest

/-- Leases are granted up to one that is held. -/
theorem grantAll_eq_of_held {holders : Holders} (h : holders.Tracks held) (entityId : Identifier)
    (hheld : (lease, X) ∈ held) (taken rest : List Lease) :
    (taken ++ lease :: rest).foldlM (Holders.grant entityId) holders = (do
      let _ ← taken.foldlM (Holders.grant entityId) holders
      throw (.conflict (.lease lease))) := by
  rw [List.foldlM_append]
  cases htaken : taken.foldlM (Holders.grant entityId) holders with
  | error fault => rfl
  | ok granted =>
    have hstill : lease ∈ (held.take entityId taken).leases :=
      Holdings.mem_leases.2 ⟨X, Holdings.mem_take.2 (.inl hheld)⟩
    rw [Except.ok_bind, Except.ok_bind, List.foldlM_cons, Holders.grant_eq (h.of_grantAll htaken),
      if_pos hstill]
    rfl

/-- A message that takes a lease which is held, once it has given up its own, is refused for that
lease, unless it is refused for something ahead of it. -/
theorem message_eq_of_held (h : c.holders.Tracks held) {m : PackedMessage}
    {taken rest : List Lease} (hm : m.addLeases = taken ++ lease :: rest)
    (hheld : (lease, X) ∈ held.giveUp m.entityId m.deleteLeases) :
    Check.message t c m = (do
      let _ ← Check.message t c { m with addLeases := taken }
      throw (.conflict (.lease lease))) := by
  have hgrants := grantAll_eq_of_held (h.releaseAll m.entityId m.deleteLeases) m.entityId hheld
    taken rest
  rw [message_eq, message_eq, hm, hgrants]
  show (if m.entityVersion = .zero then _ else if m.claim ∈ c.followed then _
    else if m.product ∈ t.entityVersions then _ else _) = (if m.entityVersion = .zero then _
    else if m.claim ∈ c.followed then _ else if m.product ∈ t.entityVersions then _ else _) >>= _
  split_ifs with hzero hclaim hproduct
  · rfl
  · rfl
  · rfl
  · cases taken.foldlM (Holders.grant m.entityId)
        (m.deleteLeases.foldl (Holders.release m.entityId) c.holders) <;> rfl

end Check

/-- A source as far as to the `j`-th lease that its `i`-th message takes, which is left out with all
that follows. -/
def Source.upToLease {D A : Type} (s : Source D A) (i j : Nat) : Source D A :=
  { s with
    messages := s.messages.take i ++
      (s.messages[i]?.map fun m ↦ { m with addLeases := m.addLeases.take j }).toList }

namespace Tables

variable {t : Tables} {X : Identifier} {lease : Lease}

/-- If an entity holds a lease after some messages of a source and does not give it up itself, a
later message that takes the lease is refused for it, unless the source is refused for something
ahead of that. What other entities delete does not count. -/
theorem check_eq_of_held (h : (t.leases.map (·.data)).Nodup) {s : PackedSource}
    {ahead between behind : List PackedMessage} {m : PackedMessage} {taken rest : List Lease}
    (hs : s.messages = ahead ++ between ++ m :: behind)
    (hm : m.addLeases = taken ++ lease :: rest)
    (hheld : (lease, X) ∈ t.holdings.afterAll (ahead.map (·.toChange)))
    (hkeep : ∀ m' ∈ between ++ [m], m'.entityId = X → lease ∉ m'.deleteLeases) :
    t.check s = (do
      t.check (s.upToLease (ahead ++ between).length taken.length)
      throw (.conflict (.lease lease))) := by
  -- The lease is still where it was when the message comes to take it.
  have hstill : (lease, X) ∈
      (t.holdings.afterAll ((ahead ++ between).map (·.toChange))).giveUp m.entityId
        m.deleteLeases := by
    rw [Holdings.mem_giveUp, List.map_append, Holdings.afterAll_append]
    refine ⟨Holdings.mem_afterAll_of_mem hheld ?_, ?_⟩
    · rw [List.forall_mem_map]
      exact fun m' hm' ↦ hkeep m' (List.mem_append_left _ hm')
    · rintro ⟨hX, hdelete⟩
      exact hkeep m (List.mem_append_right _ (List.mem_singleton_self m)) hX.symm hdelete
  generalize ahead ++ between = before at hs hstill ⊢
  have hcut : s.upToLease before.length taken.length =
      { s with messages := before ++ [{ m with addLeases := taken }] } := by
    simp [Source.upToLease, hs, hm]
  rw [check_eq, check_eq, hcut, hs]
  show (if s.id ∈ t.sourceIds then _ else _) = (if s.id ∈ t.sourceIds then _ else _) >>= _
  split_ifs with hknown
  · rfl
  rw [List.foldlM_append, List.foldlM_append]
  cases hbefore : before.foldlM (Check.message t) (.start t) with
  | error fault => rfl
  | ok c =>
    have htracks := Check.messages_tracks (Holders.Tracks.ofRecords h) hbefore
    rw [Except.ok_bind, Except.ok_bind, List.foldlM_cons, List.foldlM_cons,
      Check.message_eq_of_held htracks hm hstill]
    cases Check.message t c { m with addLeases := taken } <;> rfl

/-! ### Commits -/

variable {D A : Type} [Packable D] [Packable A]

/-- What a commit asks before the `i`-th message of a source takes its `j`-th lease: that the
session writes, that all of the source can be packed, and that what is ahead is accepted. -/
def askedUpTo (t : Tables) (options : SessionOptions) (s : Source D A) (i j : Nat) :
    Except Fault Unit := do
  if options.readOnly then
    throw .readOnly
  let packed ← s.pack.outcome
  t.check (packed.upToLease i j)

/-- The same of a commit, whatever its payloads are. -/
theorem attempt_eq_of_held (h : (t.leases.map (·.data)).Nodup) (options : SessionOptions)
    {s : Source D A} {ahead between behind : List (Message D)} {m : Message D}
    {taken rest : List Lease} (hs : s.messages = ahead ++ between ++ m :: behind)
    (hm : m.addLeases = taken ++ lease :: rest)
    (hheld : (lease, X) ∈ t.holdings.afterAll (ahead.map (·.toChange)))
    (hkeep : ∀ m' ∈ between ++ [m], m'.entityId = X → lease ∉ m'.deleteLeases) :
    t.attempt options s =
      ((do
        t.askedUpTo options s (ahead ++ between).length taken.length
        throw (.conflict (.lease lease))), t) := by
  rw [attempt_eq]
  unfold accept askedUpTo
  cases options.readOnly with
  | true => rfl
  | false =>
    cases hpack : s.pack.outcome with
    | error fault => rfl
    | ok packed =>
      obtain ⟨ahead', between', m', behind', hs', hahead, hbetween, hm'⟩ :=
        Source.exists_messages_of_pack hpack hs
      have hlength : (ahead' ++ between').length = (ahead ++ between).length := by
        simpa using congrArg₂ (· + ·) (congrArg List.length hahead) (congrArg List.length hbetween)
      have hadds : m'.addLeases = taken ++ lease :: rest := (congrArg Change.addLeases hm').trans hm
      have hheld' : (lease, X) ∈ t.holdings.afterAll (ahead'.map (·.toChange)) := by
        rw [← Holdings.afterAll_map_bare, List.map_map] at hheld ⊢
        rwa [show ahead'.map (Change.bare ∘ (·.toChange)) = _ from hahead]
      have hkeep' : ∀ m₁ ∈ between' ++ [m'], m₁.entityId = X → lease ∉ m₁.deleteLeases := by
        have hmap : (between' ++ [m']).map Message.bare = (between ++ [m]).map Message.bare := by
          rw [List.map_append, List.map_append, hbetween, List.map_singleton, List.map_singleton,
            hm']
        have hall : ∀ c ∈ (between ++ [m]).map Message.bare,
            c.entityId = X → lease ∉ c.deleteLeases := List.forall_mem_map.2 hkeep
        exact List.forall_mem_map.1 (hmap ▸ hall)
      have hcheck := check_eq_of_held h hs' hadds hheld' hkeep'
      rw [hlength] at hcheck
      simp only [Bool.false_eq_true, if_false, Except.ok_bind, hcheck]
      cases t.check (packed.upToLease (ahead ++ between).length taken.length) <;> rfl

/-- **A commit touches only its own entities.** On every store that commits can reach, a source
leaves the messages, leases and tags that are kept for an entity it has no message of as they were,
in their order, whether it is taken or not, and whatever it deletes. Nor do its deletions free what
another entity holds for the rest of it: as long as the holder of a lease does not give the lease up
itself, a message that takes it is refused for it, unless the source is refused for something ahead
of that. -/
theorem commit_touches_own (h : Reachable t) (options : SessionOptions) (s : Source D A) :
    (∀ X, (∀ m ∈ s.messages, m.entityId ≠ X) → ∀ kind,
      (t.attempt options s).2.recordsFor kind X = t.recordsFor kind X) ∧
    ∀ (ahead between behind : List (Message D)) (m : Message D) (taken rest : List Lease)
      (lease : Lease) (X : Identifier), s.messages = ahead ++ between ++ m :: behind →
      m.addLeases = taken ++ lease :: rest →
      (lease, X) ∈ t.holdings.afterAll (ahead.map (·.toChange)) →
      (∀ m' ∈ between ++ [m], m'.entityId = X → lease ∉ m'.deleteLeases) →
      t.attempt options s =
        ((do
          t.askedUpTo options s (ahead ++ between).length taken.length
          throw (.conflict (.lease lease))), t) := by
  constructor
  · intro X hX kind
    rcases attempt_cases t options s with heq | ⟨packed, hpack, -, heq⟩
    · rw [heq]
    · rw [heq]
      refine t.recordsFor_write ?_ kind
      have hall : ∀ c ∈ s.changes.map Change.bare, c.entityId ≠ X := by
        simpa [Source.changes, Change.bare] using hX
      rw [← Source.map_bare_pack hpack] at hall
      exact fun c hc ↦ hall c.bare (List.mem_map_of_mem hc)
  · intro ahead between behind m taken rest lease X hs hm hheld hkeep
    exact attempt_eq_of_held h.sound.data_nodup options hs hm hheld hkeep

section Marked

open Inventory

/-- The tag that the sources below are about. -/
def fragile : Tag := ⟨"handling", "fragile"⟩

/-- Entity 7 takes the lease and the tag. -/
def marking : Source Delta Signature where
  id := .ofNat 1
  timeStamp := default
  agentSignature := .system
  messages := [
    { id := .ofNat 11, entityId := .ofNat 7, expectedPrevious := .zero, delta := .doNothing,
      addLeases := [spot], addTags := [fragile] }]

/-- Entity 8 deletes the lease and the tag of entity 7, and takes the same tag. -/
def prying : Source Delta Signature where
  id := .ofNat 2
  timeStamp := default
  agentSignature := .system
  messages := [
    { id := .ofNat 12, entityId := .ofNat 8, expectedPrevious := .zero, delta := .doNothing,
      deleteLeases := [spot], addTags := [fragile], deleteTags := [fragile] }]

/-- The same, and then entity 9 takes the lease. -/
def raiding : Source Delta Signature :=
  { prying with
    messages := prying.messages ++ [
      { id := .ofNat 13, entityId := .ofNat 9, expectedPrevious := .zero, delta := .doNothing,
        addLeases := [spot] }] }

/-- The tables after the lease and the tag were taken. -/
def marked : Tables := (Tables.empty.attempt {} marking).2

/-- What entity 7 has stays through both sources, of which one is taken and the other refused. -/
theorem commit_touches_own_marked :
    Reachable marked ∧
      (marked.attempt {} prying).1 = .ok () ∧
      (∀ m ∈ prying.messages, m.entityId ≠ .ofNat 7) ∧
      (∀ kind, (marked.attempt {} prying).2.recordsFor kind (.ofNat 7) =
        marked.recordsFor kind (.ofNat 7)) ∧
      (spot, .ofNat 7) ∈ marked.holdings ∧
      marked.askedUpTo {} raiding 1 0 = .ok () ∧
      marked.attempt {} raiding = (.error (.conflict (.lease spot)), marked) := by
  have hreach : Reachable marked := .commit {} marking .empty
  have hothers : ∀ m ∈ prying.messages, m.entityId ≠ .ofNat 7 := by decide
  have hheld : (spot, .ofNat 7) ∈ marked.holdings := by decide +kernel
  have hasked : marked.askedUpTo {} raiding 1 0 = .ok () := by decide +kernel
  have hkept := (commit_touches_own hreach {} prying).1 (.ofNat 7) hothers
  have hrefused := (commit_touches_own hreach {} raiding).2 [] prying.messages []
    { id := .ofNat 13, entityId := .ofNat 9, expectedPrevious := .zero, delta := .doNothing,
      addLeases := [spot] } [] [] spot (.ofNat 7) rfl rfl hheld (by decide)
  refine ⟨hreach, by decide +kernel, hothers, hkept, hheld, hasked, hrefused.trans ?_⟩
  show (marked.askedUpTo {} raiding 1 0 >>= fun _ ↦ _, marked) = _
  rw [hasked]
  rfl

end Marked

end Tables

end Chronicle
