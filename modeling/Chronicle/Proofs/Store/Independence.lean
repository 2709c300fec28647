import Chronicle.Proofs.Store.Footprint
import Mathlib.Data.List.Perm.Basic

/-!
# Sources that commute

Two sources are independent if they have different identifiers, no entity in common, and neither
takes a lease that the other takes or deletes. It does not matter then which of them is committed
first (`attempt_comm`): each gets the answer that it gets alone, and in the end the tables hold the
same, numbers and order apart.

* The check of a source sees no more of the tables than whether its identifier is known, which of
  the versions it leads to are there, and who holds the leases it takes (`check_congr`). An
  independent source that is written before changes none of that (`check_write`).
* What a source writes of an entity depends on the records of that entity only, their numbers apart
  (`AlikeFor.write`), and the records of the other source's entities it does not touch
  (`recordsFor_write`). So in both orders the records of each entity come out alike; and tables with
  the same records of each entity are rearrangements of one another (`perm_of_filter_eq`).
-/

namespace Chronicle

variable {D D' A A' : Type}

/-! ### Independent sources -/

/-- Two changes are apart if they are of different entities and neither takes a lease that the other
takes or deletes. -/
structure Change.Apart (c : Change D) (c' : Change D') : Prop where
  entityId : c.entityId ≠ c'.entityId
  left : ∀ lease ∈ c.addLeases, lease ∉ c'.addLeases ∧ lease ∉ c'.deleteLeases
  right : ∀ lease ∈ c'.addLeases, lease ∉ c.addLeases ∧ lease ∉ c.deleteLeases

instance (c : Change D) (c' : Change D') : Decidable (c.Apart c') :=
  decidable_of_iff (c.entityId ≠ c'.entityId ∧
      (∀ lease ∈ c.addLeases, lease ∉ c'.addLeases ∧ lease ∉ c'.deleteLeases) ∧
      ∀ lease ∈ c'.addLeases, lease ∉ c.addLeases ∧ lease ∉ c.deleteLeases)
    ⟨fun ⟨hid, hleft, hright⟩ ↦ ⟨hid, hleft, hright⟩,
      fun ⟨hid, hleft, hright⟩ ↦ ⟨hid, hleft, hright⟩⟩

/-- Two sources are independent if they have different identifiers and their changes are apart. -/
structure Source.Independent (s : Source D A) (s' : Source D' A') : Prop where
  id : s.id ≠ s'.id
  apart : ∀ c ∈ s.changes, ∀ c' ∈ s'.changes, c.Apart c'

instance (s : Source D A) (s' : Source D' A') : Decidable (s.Independent s') :=
  decidable_of_iff (s.id ≠ s'.id ∧ ∀ c ∈ s.changes, ∀ c' ∈ s'.changes, c.Apart c')
    ⟨fun ⟨hid, hapart⟩ ↦ ⟨hid, hapart⟩, fun ⟨hid, hapart⟩ ↦ ⟨hid, hapart⟩⟩

namespace Source.Independent

theorem symm {s : Source D A} {s' : Source D' A'} (h : s.Independent s') : s'.Independent s where
  id := h.id.symm
  apart c hc c' hc' :=
    let hcc := h.apart c' hc' c hc
    ⟨hcc.entityId.symm, hcc.right, hcc.left⟩

/-- Packed sources are independent if the sources are. -/
theorem pack [Packable D] [Packable A] [Packable D'] [Packable A'] {s : Source D A}
    {s' : Source D' A'} {packed packed' : PackedSource} (h : s.Independent s')
    (hpack : s.pack.outcome = .ok packed) (hpack' : s'.pack.outcome = .ok packed') :
    packed.Independent packed' where
  id := by
    rw [(Source.pack_eq_ok_iff.1 hpack).1, (Source.pack_eq_ok_iff.1 hpack').1]
    exact h.id
  apart := by
    -- Whether changes are apart can be told without their deltas.
    have hbare : ∀ b ∈ s.changes.map Change.bare, ∀ b' ∈ s'.changes.map Change.bare,
        b.Apart b' := by
      rw [List.forall_mem_map]
      intro c hc
      rw [List.forall_mem_map]
      intro c' hc'
      obtain ⟨hid, hleft, hright⟩ := h.apart c hc c' hc'
      exact ⟨hid, hleft, hright⟩
    rw [← Source.map_bare_pack hpack, ← Source.map_bare_pack hpack'] at hbare
    intro c hc c' hc'
    obtain ⟨hid, hleft, hright⟩ :=
      hbare c.bare (List.mem_map_of_mem hc) c'.bare (List.mem_map_of_mem hc')
    exact ⟨hid, hleft, hright⟩

end Source.Independent

/-! ### What a check depends on -/

/-- Two accounts agree on some leases if these have the same holders in both. -/
def Holders.AgreeOn (leases : List Lease) (a b : Holders) : Prop :=
  ∀ lease ∈ leases, a.holder? lease = b.holder? lease

namespace Holders.AgreeOn

variable {leases : List Lease} {a b : Holders}

/-- They still do when an entity gives up leases, whichever these are. -/
theorem releaseAll (h : AgreeOn leases a b) (entityId : Identifier) (deleted : List Lease) :
    AgreeOn leases (deleted.foldl (Holders.release entityId) a)
      (deleted.foldl (Holders.release entityId) b) := by
  induction deleted generalizing a b with
  | nil => exact h
  | cons lease rest ih =>
    refine ih fun l hl ↦ ?_
    rw [holder?_release, holder?_release, h l hl]
    rcases eq_or_ne l lease with rfl | hne
    · rw [h l hl]
    · simp [hne]

/-- A lease among them is granted in both accounts or in neither. -/
theorem grant (h : AgreeOn leases a b) (entityId : Identifier) {lease : Lease}
    (hlease : lease ∈ leases) :
    Except.Agree (AgreeOn leases) (a.grant entityId lease) (b.grant entityId lease) := by
  unfold Holders.grant
  rw [h lease hlease]
  split_ifs
  · exact .error _
  · refine .ok fun l hl ↦ ?_
    rw [holder?_cons, holder?_cons, h l hl]

end Holders.AgreeOn

/-- Two checks agree on some leases if they have seen the same versions followed and their accounts
agree. -/
structure Check.AgreeOn (leases : List Lease) (c d : Check) : Prop where
  followed : c.followed = d.followed
  holders : c.holders.AgreeOn leases d.holders

/-- Checks that agree on the leases a message takes get on alike with it, whatever tables they
compare it with, as long as both or neither have the version it leads to. -/
theorem Check.AgreeOn.message {leases : List Lease} {t t' : Tables} {c d : Check}
    (h : c.AgreeOn leases d) {m : PackedMessage} (hadd : ∀ lease ∈ m.addLeases, lease ∈ leases)
    (hversion : m.product ∈ t.entityVersions ↔ m.product ∈ t'.entityVersions) :
    Except.Agree (AgreeOn leases) (Check.message t c m) (Check.message t' d m) := by
  rw [message_eq, message_eq, h.followed]
  simp only [hversion]
  split_ifs
  · exact .error _
  · exact .error _
  · exact .error _
  · have hgrants : Except.Agree (Holders.AgreeOn leases)
        (m.addLeases.foldlM (Holders.grant m.entityId)
          (m.deleteLeases.foldl (Holders.release m.entityId) c.holders))
        (m.addLeases.foldlM (Holders.grant m.entityId)
          (m.deleteLeases.foldl (Holders.release m.entityId) d.holders)) :=
      Except.Agree.foldlM (fun lease hlease _ _ hab ↦ hab.grant m.entityId (hadd lease hlease))
        (h.holders.releaseAll m.entityId m.deleteLeases)
    exact hgrants.map fun _ _ hab ↦ ⟨rfl, hab⟩

namespace Tables

variable {t t' : Tables} {s s' : PackedSource}

/-- **What a check depends on.** Tables that both know a source or both do not, that have the same
of the versions it leads to, and in which the leases it takes have the same holders, answer it
alike. -/
theorem check_congr (hid : s.id ∈ t.sourceIds ↔ s.id ∈ t'.sourceIds)
    (hversions : ∀ c ∈ s.changes, c.product ∈ t.entityVersions ↔ c.product ∈ t'.entityVersions)
    (hholders : ∀ c ∈ s.changes, ∀ lease ∈ c.addLeases,
      (Holders.ofRecords t.leases).holder? lease = (Holders.ofRecords t'.leases).holder? lease) :
    t.check s = t'.check s := by
  have hstart : Check.AgreeOn (s.changes.flatMap (·.addLeases)) (.start t) (.start t') := by
    refine ⟨rfl, fun lease hlease ↦ ?_⟩
    obtain ⟨c, hc, hadd⟩ := List.mem_flatMap.1 hlease
    exact hholders c hc lease hadd
  have hmessages : Except.Agree (Check.AgreeOn (s.changes.flatMap (·.addLeases)))
      (s.messages.foldlM (Check.message t) (.start t))
      (s.messages.foldlM (Check.message t') (.start t')) := by
    refine .foldlM (fun m hm _ _ h ↦ ?_) hstart
    have hchange : m.toChange ∈ s.changes := List.mem_map_of_mem hm
    exact h.message (fun lease hlease ↦ List.mem_flatMap.2 ⟨_, hchange, hlease⟩)
      (hversions m.toChange hchange)
  have hanswers : (fun _ ↦ ()) <$> s.messages.foldlM (Check.message t) (.start t) =
      (fun _ ↦ ()) <$> s.messages.foldlM (Check.message t') (.start t') :=
    (hmessages.map fun _ _ _ ↦ rfl).eq
  rw [check_eq, check_eq, hanswers]
  simp only [hid]

/-- What is held after a source is what its changes leave. -/
theorem holdings_write (t : Tables) (s : PackedSource) :
    (t.write s).holdings = t.holdings.afterAll s.changes := by
  rw [write, Holdings.afterAll, Source.changes, List.foldl_map]
  exact (List.foldl_hom holdings fun t m ↦ (holdings_writeMessage s t m).symm).symm

/-- A source is answered as before once an independent one is written. -/
theorem check_write (h : t.Sound) (hcheck : t.check s' = .ok ()) (hind : s.Independent s') :
    (t.write s').check s = t.check s := by
  refine check_congr ?_ ?_ ?_
  · rw [sourceIds_write, List.mem_cons, or_iff_right hind.id]
  · intro c hc
    rw [entityVersions_write, List.mem_append, or_iff_right]
    intro hmem
    obtain ⟨m, hm, hproduct⟩ := List.mem_map.1 (List.mem_reverse.1 hmem)
    have happart := hind.apart c hc m.toChange (List.mem_map_of_mem hm)
    exact happart.entityId (congrArg Prod.fst hproduct).symm
  · intro c hc lease hlease
    have hbefore : (Holders.ofRecords t.leases).Tracks t.holdings := .ofRecords h.data_nodup
    have hafter : (Holders.ofRecords (t.write s').leases).Tracks (t.write s').holdings :=
      .ofRecords (h.write hcheck).data_nodup
    refine Option.ext fun X ↦ ?_
    rw [hafter.holder_iff, hbefore.holder_iff, holdings_write]
    exact Holdings.mem_afterAll_iff fun c' hc' ↦ (hind.apart c hc c' hc').left lease hlease

end Tables

/-! ### Records without numbers -/

/-- A record without its place in the order of writing. -/
def EntityRecord.unnumbered {α : Type} (record : EntityRecord α) : EntityRecord α :=
  { record with sequence := 0 }

/-- The record of a source without its place in the order of writing. -/
def SourceRecord.unnumbered (record : SourceRecord) : SourceRecord := { record with sequence := 0 }

/-- Lists that have the same elements of each key, in the same order, are rearrangements of one
another. -/
theorem perm_of_filter_eq {α κ : Type} [DecidableEq κ] (key : α → κ) {xs ys : List α}
    (h : ∀ k, xs.filter (key · = k) = ys.filter (key · = k)) : xs.Perm ys := by
  classical
  rw [List.perm_iff_count]
  intro a
  have hcount := congrArg (List.count a) (h (key a))
  rwa [List.count_filter (by simp), List.count_filter (by simp)] at hcount

namespace Tables

variable {t t' : Tables} {s s' : PackedSource} {X : Identifier}

/-- Tables are alike for an entity if they keep the same for it, numbers apart. -/
def AlikeFor (X : Identifier) (t t' : Tables) : Prop :=
  ∀ kind, (t.recordsFor kind X).map EntityRecord.unnumbered =
    (t'.recordsFor kind X).map EntityRecord.unnumbered

theorem map_unnumbered_recordsOf {α : Type} (s : PackedSource) (m : PackedMessage)
    (start start' : Nat) (data : List α) :
    (recordsOf s m start data).map EntityRecord.unnumbered =
      (recordsOf s m start' data).map EntityRecord.unnumbered := by
  rw [recordsOf, recordsOf, List.map_map, List.map_map]
  rfl

namespace AlikeFor

/-- Whether data stays has nothing to do with numbers. -/
theorem map_unnumbered_filter {α : Type} (records : List (EntityRecord α)) (keeps : α → Bool) :
    (records.filter (keeps ·.data)).map EntityRecord.unnumbered =
      (records.map EntityRecord.unnumbered).filter (keeps ·.data) := by
  rw [List.filter_map]
  rfl

/-- What a message writes of an entity depends on the records of the entity only. -/
theorem writeMessage (h : AlikeFor X t t') (m : PackedMessage) :
    AlikeFor X (Tables.writeMessage s t m) (Tables.writeMessage s t' m) := by
  intro kind
  rcases eq_or_ne m.entityId X with rfl | hX
  · obtain ⟨start, hrecords⟩ := exists_recordsFor_writeMessage (s := s) t m kind
    obtain ⟨start', hrecords'⟩ := exists_recordsFor_writeMessage (s := s) t' m kind
    rw [hrecords, hrecords', List.map_append, List.map_append,
      map_unnumbered_filter _ (kind.keeps m), map_unnumbered_filter _ (kind.keeps m), h kind,
      map_unnumbered_recordsOf s m start start']
  · rw [recordsFor_writeMessage_of_ne t hX, recordsFor_writeMessage_of_ne t' hX, h kind]

theorem write (h : AlikeFor X t t') (s : PackedSource) : AlikeFor X (t.write s) (t'.write s) := by
  have hstart : AlikeFor X (t.writeSource s) (t'.writeSource s) := by
    intro kind
    rw [recordsFor_writeSource, recordsFor_writeSource, h kind]
  show AlikeFor X (s.messages.foldl _ _) (s.messages.foldl _ _)
  generalize t.writeSource s = u, t'.writeSource s = u' at hstart
  induction s.messages generalizing u u' with
  | nil => exact hstart
  | cons m rest ih => exact ih _ _ (hstart.writeMessage m)

end AlikeFor

/-! ### Either order -/

/-- Tables hold the same, numbers and the order of the tables apart; and what they keep for each
entity is in the same order, too. -/
structure SameContent (t t' : Tables) : Prop where
  sourceIds : t.sourceIds.Perm t'.sourceIds
  entityVersions : t.entityVersions.Perm t'.entityVersions
  sources : (t.sources.map SourceRecord.unnumbered).Perm (t'.sources.map SourceRecord.unnumbered)
  records : ∀ kind, ((t.records (.entity kind)).map EntityRecord.unnumbered).Perm
    ((t'.records (.entity kind)).map EntityRecord.unnumbered)
  recordsFor : ∀ X, AlikeFor X t t'

theorem SameContent.refl (t : Tables) : t.SameContent t where
  sourceIds := .refl _
  entityVersions := .refl _
  sources := .refl _
  records _ := .refl _
  recordsFor _ _ := rfl

/-- Tables that are alike for every entity hold the same records. -/
theorem perm_of_alikeFor (h : ∀ X, AlikeFor X t t') (kind : Kind) :
    ((t.records (.entity kind)).map EntityRecord.unnumbered).Perm
      ((t'.records (.entity kind)).map EntityRecord.unnumbered) := by
  refine perm_of_filter_eq EntityRecord.entityId fun X ↦ ?_
  rw [List.filter_map, List.filter_map]
  exact h X kind

/-- Independent sources that are written in either order leave the same. -/
theorem write_comm (t : Tables) (hind : s.Independent s') :
    ((t.write s).write s').SameContent ((t.write s').write s) := by
  -- One of the two has no message of the entity, and so leaves its records alone.
  have halike : ∀ X, AlikeFor X ((t.write s).write s') ((t.write s').write s) := by
    intro X
    by_cases hX : ∀ c ∈ s.changes, c.entityId ≠ X
    · have hfirst : AlikeFor X (t.write s) t := by
        intro kind
        rw [recordsFor_write t hX]
      intro kind
      rw [hfirst.write s' kind, recordsFor_write (t.write s') hX]
    · have hX' : ∀ c' ∈ s'.changes, c'.entityId ≠ X := by
        push Not at hX
        obtain ⟨c, hc, rfl⟩ := hX
        exact fun c' hc' ↦ (hind.apart c hc c' hc').entityId.symm
      have hsecond : AlikeFor X t (t.write s') := by
        intro kind
        rw [recordsFor_write t hX']
      intro kind
      rw [recordsFor_write (t.write s) hX', hsecond.write s kind]
  constructor
  case sourceIds =>
    rw [sourceIds_write, sourceIds_write, sourceIds_write, sourceIds_write]
    exact .swap _ _ _
  case entityVersions =>
    rw [entityVersions_write, entityVersions_write, entityVersions_write, entityVersions_write,
      ← List.append_assoc, ← List.append_assoc]
    exact List.perm_append_comm.append_right _
  case sources =>
    simp only [sources_write, List.append_assoc, List.map_append]
    exact List.perm_append_comm.append_left _
  case records => exact perm_of_alikeFor halike
  case recordsFor => exact halike

section Commit

variable [Packable D] [Packable A] [Packable D'] [Packable A'] {source : Source D A}
  {source' : Source D' A'}

/-- A source is taken as before, or refused as before, once an independent one is written. -/
theorem accept_write (h : t.Sound) (hind : source.Independent source')
    {options' : SessionOptions} (haccept : t.accept options' source' = .ok s')
    (options : SessionOptions) :
    (t.write s').accept options source = t.accept options source := by
  obtain ⟨-, hpack', hcheck'⟩ := accept_eq_ok_iff.1 haccept
  unfold accept
  rcases hpack : source.pack.outcome with fault | s
  · rfl
  · have hcheck := check_write h hcheck' (hind.pack hpack hpack')
    simp only [Except.ok_bind, hcheck]

/-- **Independent commits commute.** On every store that commits can reach, two sources with
different identifiers, no entity in common, and no lease that one takes and the other takes or
deletes, each get the same answer whichever is committed first, and leave tables with the same
sources, versions and records, numbers and the order of the tables apart; and the records of each
entity are in the same order. -/
theorem attempt_comm (h : Reachable t) (options options' : SessionOptions)
    (hind : source.Independent source') :
    ((t.attempt options' source').2.attempt options source).1 = (t.attempt options source).1 ∧
      ((t.attempt options source).2.attempt options' source').1 =
        (t.attempt options' source').1 ∧
      ((t.attempt options source).2.attempt options' source').2.SameContent
        ((t.attempt options' source').2.attempt options source).2 := by
  have hs := h.sound
  rcases haccept : t.accept options source with fault | s <;>
    rcases haccept' : t.accept options' source' with fault' | s'
  · simp only [attempt_of_refused haccept, attempt_of_refused haccept', true_and]
    exact .refl t
  · have hafter := (accept_write hs hind haccept' options).trans haccept
    simp only [attempt_of_refused haccept, attempt_of_accepted haccept',
      attempt_of_refused hafter, true_and]
    exact .refl _
  · have hafter := (accept_write hs hind.symm haccept options').trans haccept'
    simp only [attempt_of_accepted haccept, attempt_of_refused haccept',
      attempt_of_refused hafter, true_and]
    exact .refl _
  · have hafter := (accept_write hs hind haccept' options).trans haccept
    have hafter' := (accept_write hs hind.symm haccept options').trans haccept'
    obtain ⟨-, hpack, -⟩ := accept_eq_ok_iff.1 haccept
    obtain ⟨-, hpack', -⟩ := accept_eq_ok_iff.1 haccept'
    simp only [attempt_of_accepted haccept, attempt_of_accepted haccept',
      attempt_of_accepted hafter, attempt_of_accepted hafter', true_and]
    exact write_comm t (hind.pack hpack hpack')

end Commit

section Marked

open Inventory

/-- Entity 7 gives up the lease and the tag, and takes another lease. -/
def moving : Source Delta Signature where
  id := .ofNat 3
  timeStamp := default
  agentSignature := .system
  messages := [
    { id := .ofNat 14, entityId := .ofNat 7, expectedPrevious := ⟨1⟩, delta := .doNothing,
      addLeases := [⟨"shelf", "spot", "b2"⟩], deleteLeases := [spot], deleteTags := [fragile] }]

/-- One source deletes the lease that its holder gives up in the other. Both are taken, in either
order. -/
theorem attempt_comm_marked :
    Reachable marked ∧ prying.Independent moving ∧
      (marked.attempt {} prying).1 = .ok () ∧ (marked.attempt {} moving).1 = .ok () ∧
      ((marked.attempt {} moving).2.attempt {} prying).1 = (marked.attempt {} prying).1 ∧
      ((marked.attempt {} prying).2.attempt {} moving).1 = (marked.attempt {} moving).1 ∧
      ((marked.attempt {} prying).2.attempt {} moving).2.SameContent
        ((marked.attempt {} moving).2.attempt {} prying).2 := by
  have hreach : Reachable marked := .commit {} marking .empty
  have hind : prying.Independent moving := by decide
  exact ⟨hreach, hind, by decide +kernel, by decide +kernel, attempt_comm hreach {} {} hind⟩

end Marked

end Tables

end Chronicle
