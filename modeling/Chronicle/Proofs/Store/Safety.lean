import Chronicle.Inventory.Item
import Chronicle.Proofs.Store.Writes

/-!
# Safety of commits

Whatever is committed, by whom and in what order, a store stays sound (`Tables.Sound`): no lease is
held twice, no entity has a version twice or version zero, no source is there twice, and the two
indexes list what the tables hold. A message that fits what is held keeps a store sound
(`Sound.writeMessage`), and an accepted source consists of such messages (`Sound.write`). What every
accepted source keeps holds of every state that commits can reach (`Reachable.of_write`), and so
these are all sound (`Reachable.sound`).
-/

namespace Chronicle.Tables

/-! ### Runs -/

section Attempt

variable {D A : Type} [Packable D] [Packable A] {t : Tables}

/-- The answer of a commit and the tables after it. A source that is not taken changes nothing. -/
def attempt (t : Tables) (options : SessionOptions) (s : Source D A) :
    Except Fault Unit × Tables :=
  match (t.commit options s).outcome with
  | .ok t' => (.ok (), t')
  | .error fault => (.error fault, t)

/-- What a commit asks of a source in a session, and the packed source if it is taken. -/
def accept (t : Tables) (options : SessionOptions) (s : Source D A) :
    Except Fault PackedSource := do
  if options.readOnly then
    throw .readOnly
  let packed ← s.pack.outcome
  t.check packed
  pure packed

theorem accept_eq_ok_iff {options : SessionOptions} {s : Source D A} {packed : PackedSource} :
    t.accept options s = .ok packed ↔
      options.readOnly = false ∧ s.pack.outcome = .ok packed ∧ t.check packed = .ok () := by
  unfold accept
  rcases options.readOnly with - | -
  · simp [Except.bind_eq_ok_iff]
  · simp

/-- A commit writes the source if it is taken, and else answers with the fault. -/
theorem attempt_eq (t : Tables) (options : SessionOptions) (s : Source D A) :
    t.attempt options s =
      match t.accept options s with
      | .ok packed => (.ok (), t.write packed)
      | .error fault => (.error fault, t) := by
  unfold attempt commit accept
  cases options.readOnly with
  | true => simp
  | false =>
    cases hpack : s.pack.outcome with
    | error fault => simp [hpack]
    | ok packed => cases hcheck : t.check packed <;> simp [hpack, hcheck]

theorem attempt_of_accepted {options : SessionOptions} {s : Source D A} {packed : PackedSource}
    (h : t.accept options s = .ok packed) : t.attempt options s = (.ok (), t.write packed) := by
  rw [attempt_eq, h]

theorem attempt_of_refused {options : SessionOptions} {s : Source D A} {fault : Fault}
    (h : t.accept options s = .error fault) : t.attempt options s = (.error fault, t) := by
  rw [attempt_eq, h]

/-- The tables after a commit are those before it, or those with an accepted source written. -/
theorem attempt_cases (t : Tables) (options : SessionOptions) (s : Source D A) :
    (t.attempt options s).2 = t ∨
      ∃ packed, s.pack.outcome = .ok packed ∧ t.check packed = .ok () ∧
        (t.attempt options s).2 = t.write packed := by
  cases haccept : t.accept options s with
  | error fault => exact .inl (by rw [attempt_of_refused haccept])
  | ok packed =>
    obtain ⟨-, hpack, hcheck⟩ := accept_eq_ok_iff.1 haccept
    exact .inr ⟨packed, hpack, hcheck, by rw [attempt_of_accepted haccept]⟩

end Attempt

/-- The tables that commits lead to from the empty ones: of any sources of any payloads, in any
sessions, whether they are taken or not. -/
inductive Reachable : Tables → Prop where
  | empty : Reachable .empty
  | commit {D A : Type} [Packable D] [Packable A] {t : Tables} (options : SessionOptions)
      (s : Source D A) : Reachable t → Reachable (t.attempt options s).2

/-- What holds of the empty tables, and of tables that an accepted source is written to if it held
before, holds of all tables that commits can reach. -/
@[elab_as_elim]
theorem Reachable.of_write {P : Tables → Prop} {t : Tables} (h : Reachable t) (empty : P .empty)
    (write : ∀ {t : Tables} {s : PackedSource}, Reachable t → t.check s = .ok () → P t →
      P (t.write s)) : P t := by
  induction h with
  | empty => exact empty
  | commit options s hreach ih =>
    rcases attempt_cases _ options s with heq | ⟨packed, -, hcheck, heq⟩
    · rw [heq]
      exact ih
    · rw [heq]
      exact write hreach hcheck ih

/-! ### Soundness -/

/-- What holds of the tables of a store at any time. -/
structure Sound (t : Tables) : Prop where
  /-- No lease is held twice. -/
  leases : t.holdings.leases.Nodup
  /-- The index of versions lists the versions of the table of messages. -/
  index : t.entityVersions = (t.messages.map (·.product)).reverse
  /-- No entity has a version twice. -/
  versions : t.entityVersions.Nodup
  /-- Version zero is never committed. -/
  positive : ∀ record ∈ t.messages, record.entityVersion ≠ .zero
  /-- The index of sources lists the sources of the table of sources. -/
  sourceIndex : t.sourceIds = (t.sources.map (·.sourceId)).reverse
  /-- No source is there twice. -/
  sources : t.sourceIds.Nodup

namespace Sound

variable {t : Tables} {s : PackedSource} {m : PackedMessage}

theorem empty : Sound .empty where
  leases := .nil
  index := rfl
  versions := .nil
  positive _ h := nomatch h
  sourceIndex := rfl
  sources := .nil

theorem data_nodup (h : t.Sound) : (t.leases.map (·.data)).Nodup := by
  simpa [holdings, Holdings.leases, Function.comp_def] using h.leases

theorem nodup_products (h : t.Sound) : (t.messages.map (·.product)).Nodup := by
  rw [← List.nodup_reverse, ← h.index]
  exact h.versions

theorem nodup_sourceIds (h : t.Sound) : (t.sources.map (·.sourceId)).Nodup := by
  rw [← List.nodup_reverse, ← h.sourceIndex]
  exact h.sources

/-- The record of a new source keeps a store sound. -/
theorem writeSource (h : t.Sound) (hnew : s.id ∉ t.sourceIds) : (t.writeSource s).Sound where
  leases := h.leases
  index := h.index
  versions := h.versions
  positive := h.positive
  sourceIndex := by simp [Tables.writeSource, h.sourceIndex]
  sources := List.nodup_cons.2 ⟨hnew, h.sources⟩

/-- So does a message that leads to a version that is free and takes leases that are. -/
theorem writeMessage (h : t.Sound) (hzero : m.entityVersion ≠ .zero)
    (hnew : m.product ∉ t.entityVersions) (hnodup : m.addLeases.Nodup)
    (hfree : ∀ lease ∈ m.addLeases,
      lease ∉ (t.holdings.giveUp m.entityId m.deleteLeases).leases) :
    (Tables.writeMessage s t m).Sound := by
  obtain ⟨record, hmessages, hrecord⟩ := exists_messages_writeMessage s t m
  have hproduct : record.product = m.product := by
    rw [EntityRecord.product, hrecord.entityId, hrecord.entityVersion]
    rfl
  constructor
  case leases =>
    rw [holdings_writeMessage, Holdings.after, Holdings.leases_take]
    refine (Holdings.nodup_leases_giveUp h.leases _ _).append hnodup ?_
    exact fun lease hheld hadd ↦ hfree lease hadd hheld
  case index => simp [hmessages, hproduct, h.index]
  case versions => exact List.nodup_cons.2 ⟨hnew, h.versions⟩
  case positive =>
    intro r hr
    rw [hmessages, List.mem_append, List.mem_singleton] at hr
    rcases hr with hr | rfl
    · exact h.positive r hr
    · exact hrecord.entityVersion ▸ hzero
  case sourceIndex => exact h.sourceIndex
  case sources => exact h.sources

/-- An accepted source keeps a store sound. The induction is on its messages, over the tables as
they are after the messages ahead. -/
theorem write (h : t.Sound) (hcheck : t.check s = .ok ()) : (t.write s).Sound := by
  obtain ⟨hid, hversions, hclaims, hfits⟩ := (check_eq_ok_iff h.data_nodup s).1 hcheck
  suffices ∀ (ms : List PackedMessage) (t : Tables), t.Sound →
      (∀ m ∈ ms, m.entityVersion ≠ .zero ∧ m.product ∉ t.entityVersions) →
      (ms.map (·.claim)).Nodup → Fits t.holdings (ms.map (·.toChange)) →
      (ms.foldl (Tables.writeMessage s) t).Sound from
    this s.messages _ (h.writeSource hid) hversions hclaims hfits
  intro ms
  induction ms with
  | nil => exact fun _ h _ _ _ ↦ h
  | cons m rest ih =>
    intro t h hversions hclaims hfits
    obtain ⟨⟨hzero, hnew⟩, hversions⟩ := List.forall_mem_cons.1 hversions
    obtain ⟨hclaim, hclaims⟩ := List.nodup_cons.1 hclaims
    obtain ⟨hnodup, hfree, hfits⟩ := hfits
    refine ih _ (h.writeMessage hzero hnew hnodup hfree) (fun m' hm' ↦ ⟨(hversions m' hm').1, ?_⟩)
      hclaims ((holdings_writeMessage s t m).symm ▸ hfits)
    rw [entityVersions_writeMessage, List.mem_cons, not_or]
    exact ⟨fun heq ↦ hclaim (List.mem_map.2 ⟨m', hm', Change.product_eq_iff.1 heq⟩),
      (hversions m' hm').2⟩

/-- The source that is accepted is new. -/
theorem notMem_sourceIds (h : t.Sound) (hcheck : t.check s = .ok ()) : s.id ∉ t.sourceIds :=
  ((check_eq_ok_iff h.data_nodup s).1 hcheck).1

end Sound

theorem Reachable.sound {t : Tables} (h : Reachable t) : t.Sound :=
  h.of_write .empty fun _ hcheck h ↦ h.write hcheck

/-! ### Nothing is committed twice -/

/-- **Safety.** However a store came about, no lease is in two records, and so at most one entity
holds it; no version of an entity is in two messages, and none is zero; and no source is in two
records. -/
theorem nothing_committed_twice {t : Tables} (h : Reachable t) :
    ((t.leases.map (·.data)).Nodup ∧
      ∀ a ∈ t.leases, ∀ b ∈ t.leases, a.data = b.data → a.entityId = b.entityId) ∧
    ((t.messages.map fun r ↦ (r.entityId, r.entityVersion)).Nodup ∧
      ∀ r ∈ t.messages, r.entityVersion ≠ .zero) ∧
    (t.sources.map (·.sourceId)).Nodup := by
  have hs := h.sound
  refine ⟨⟨hs.data_nodup, fun a ha b hb hab ↦ ?_⟩, ⟨?_, hs.positive⟩, ?_⟩
  · rw [List.inj_on_of_nodup_map hs.data_nodup ha hb hab]
  · have := hs.versions
    rwa [hs.index, List.nodup_reverse] at this
  · have := hs.sources
    rwa [hs.sourceIndex, List.nodup_reverse] at this

section Handover

open Inventory

/-- The lease that the sources below are about. -/
def spot : Lease := ⟨"shelf", "spot", "a1"⟩

/-- Entity 7 takes the lease. -/
def taking : Source Delta Signature where
  id := .ofNat 1
  timeStamp := default
  agentSignature := .system
  messages := [
    { id := .ofNat 11, entityId := .ofNat 7, expectedPrevious := .zero, delta := .doNothing,
      addLeases := [spot] }]

/-- Entity 7 gives the lease up and entity 8 takes it, in one source. -/
def handingOver : Source Delta Signature where
  id := .ofNat 2
  timeStamp := default
  agentSignature := .system
  messages := [
    { id := .ofNat 12, entityId := .ofNat 7, expectedPrevious := ⟨1⟩, delta := .doNothing,
      deleteLeases := [spot] },
    { id := .ofNat 13, entityId := .ofNat 8, expectedPrevious := .zero, delta := .doNothing,
      addLeases := [spot] }]

/-- Entity 7 wants the lease back without asking entity 8. -/
def contesting : Source Delta Signature where
  id := .ofNat 3
  timeStamp := default
  agentSignature := .system
  messages := [
    { id := .ofNat 14, entityId := .ofNat 7, expectedPrevious := ⟨2⟩, delta := .doNothing,
      deleteLeases := [spot], addLeases := [spot] }]

/-- The tables after the lease was taken, handed over and contested. -/
def handedOver : Tables :=
  (((Tables.empty.attempt {} taking).2.attempt {} handingOver).2.attempt {} contesting).2

theorem reachable_handedOver : Reachable handedOver :=
  .commit {} contesting (.commit {} handingOver (.commit {} taking .empty))

theorem nothing_committed_twice_handedOver :
    Reachable handedOver ∧ handedOver.holdings = [(spot, .ofNat 8)] ∧
      handedOver.messages.length = 3 ∧
      ((handedOver.leases.map (·.data)).Nodup ∧
        ∀ a ∈ handedOver.leases, ∀ b ∈ handedOver.leases,
          a.data = b.data → a.entityId = b.entityId) ∧
      ((handedOver.messages.map fun r ↦ (r.entityId, r.entityVersion)).Nodup ∧
        ∀ r ∈ handedOver.messages, r.entityVersion ≠ .zero) ∧
      (handedOver.sources.map (·.sourceId)).Nodup :=
  ⟨reachable_handedOver, by decide, by decide, nothing_committed_twice reachable_handedOver⟩

end Handover

end Chronicle.Tables
