import Chronicle.Proofs.Sessions.Collecting
import Chronicle.Proofs.Store.Projection

/-!
# Differences telescope

A message that is drafted says which leases and tags its entity loses by the delta and which it
gains (`IsDifference`). One message leads to the state that the next one is drafted from, and so all
differences in between cancel: what the messages of an entity delete and add, one after the other,
turns the leases and tags of the state before the first into those of the state after the last.

A journal is kept of all that a transaction has recorded, be it built into sources or still pending,
and of the states in which its entities were constructed or loaded (`Journal`). Building a source
moves messages and changes none, so that the journal holds what an account would hold that never
builds any (`Journal.unbuilt_follow`); and such an account is balanced. This gives
`differences_telescope`, for any number of entities and however many sources were built meanwhile.

What is attached to messages by hand is left out here, for it need not come from any state.
-/

namespace Chronicle

variable {E D A α : Type}

/-! ### Differences of lists -/

/-- What a list loses and what it gains to become another. Each keeps the order of the list that it
comes from. Nothing is lost that is in the other, and nothing gained that is in the one. As sets,
the one without what is lost and with what is gained is the other. -/
structure IsDifference [DecidableEq α] (before after lost gained : List α) : Prop where
  lost_sublist : lost.Sublist before
  gained_sublist : gained.Sublist after
  lost_disjoint : lost.Disjoint after
  gained_disjoint : gained.Disjoint before
  turns : before.toFinset \ lost.toFinset ∪ gained.toFinset = after.toFinset

/-- Also where the lists repeat elements. -/
theorem isDifference_difference [DecidableEq α] (before after : List α) :
    IsDifference before after (difference before after).1 (difference before after).2 where
  lost_sublist := List.filter_sublist
  gained_sublist := by
    rw [difference, List.partition_eq_filter_filter]
    exact List.filter_sublist
  lost_disjoint _ hlost hafter := (mem_difference_fst.1 hlost).2 hafter
  gained_disjoint _ hgained hbefore := (mem_difference_snd.1 hgained).2 hbefore
  turns := by
    ext a
    simp only [Finset.mem_union, Finset.mem_sdiff, List.mem_toFinset, mem_difference_fst,
      mem_difference_snd]
    tauto

/-! ### Messages that telescope -/

section Messages

variable [Entity E D]

/-- A change says of the state that it is recorded in what is drafted of its delta. -/
def Change.Drafted (e : E) (c : Change D) : Prop :=
  Transaction.draft c.entityId e (Entity.reduce e c.delta) c.delta = c

theorem Change.Drafted.isDifference [DecidableEq α] (p : Projection α) {e : E} {c : Change D}
    (h : c.Drafted e) :
    IsDifference (p.state e) (p.state (Entity.reduce e c.delta)) (p.deleted c) (p.added c) := by
  obtain ⟨hdeleted, hadded⟩ := p.draft c.entityId e (Entity.reduce e c.delta) c.delta
  rw [h] at hdeleted hadded
  rw [hdeleted, hadded]
  exact isDifference_difference _ _

/-- **Differences telescope.** Along drafted changes, the set of what one state has is turned into
the set of what the last one has. -/
theorem Leads.foldl_turn [DecidableEq α] (p : Projection α) {start e : E} {cs : List (Change D)}
    (h : Leads Change.Drafted start cs e) :
    cs.foldl p.turn (p.state start).toFinset = (p.state e).toFinset := by
  induction h with
  | nil e => rfl
  | @cons start e c cs hc _ ih =>
    have hturn : p.turn (p.state start).toFinset c =
        (p.state (Entity.reduce start c.delta)).toFinset := (hc.isDifference p).turns
    rw [List.foldl_cons, hturn, ih]

/-- A change says what the leases and tags of one state lose and gain to become those of another. -/
structure Change.Bridges (c : Change D) (before after : E) : Prop where
  leases : IsDifference (Entity.leases before) (Entity.leases after) c.deleteLeases c.addLeases
  tags : IsDifference (Entity.tags before) (Entity.tags after) c.deleteTags c.addTags

theorem Change.Drafted.bridges {e : E} {c : Change D} (h : c.Drafted e) :
    c.Bridges e (Entity.reduce e c.delta) where
  leases := h.isDifference .leases
  tags := h.isDifference .tags

/-- Some changes lead from one state to another. Each bridges the state that the ones before it lead
to and the next, and what they delete and add, one after the other, turns the leases and the tags of
the one state into those of the other. -/
structure Telescopes (start : E) (cs : List (Change D)) (e : E) : Prop where
  replay : Entity.replay start (cs.map (·.delta)) = e
  bridges : ∀ earlier c later, cs = earlier ++ c :: later →
    let before := Entity.replay start (earlier.map (·.delta))
    c.Bridges before (Entity.reduce before c.delta)
  leases : cs.foldl Projection.leases.turn (Entity.leases start).toFinset =
    (Entity.leases e).toFinset
  tags : cs.foldl Projection.tags.turn (Entity.tags start).toFinset = (Entity.tags e).toFinset

theorem Leads.telescopes {start e : E} {cs : List (Change D)}
    (h : Leads Change.Drafted start cs e) : Telescopes start cs e where
  replay := h.eq_replay
  bridges earlier c later hcs := by
    rw [hcs] at h
    exact h.related.bridges
  leases := h.foldl_turn .leases
  tags := h.foldl_turn .tags

end Messages

namespace Transaction

variable [Entity E D]

/-! ### Journals -/

/-- An account with what it no longer holds: the state that each known entity was constructed or
loaded in, its origin, and the sources that were built, in order. -/
structure Journal (E D A : Type) extends Account E D where
  origins : Catalog E := {}
  sources : List (Source D A) := []

namespace Journal

/-- The origins after a call that succeeds. -/
def originsAfter (journal : Journal E D A) : Call E D A → Catalog E
  | .create X _ _ => journal.origins.put X (Entity.construct X)
  | .load X e => journal.origins.put X e
  | .append _ _ _ | .attach _ _ | .build _ _ => journal.origins
  | .appendOrCreate X _ _ =>
    if journal.transaction.isKnown X then journal.origins
    else journal.origins.put X (Entity.construct X)

/-- The sources that have been built after a call that succeeds. -/
def sourcesAfter (journal : Journal E D A) : Call E D A → List (Source D A)
  | .build agent sourceId => journal.sources ++ [(journal.transaction.build agent sourceId).1]
  | _ => journal.sources

/-- The journal after a call. One that fails changes nothing. -/
def follow (journal : Journal E D A) (call : Call E D A) : Journal E D A :=
  match call.apply journal.transaction with
  | .error _ => journal
  | .ok _ =>
    { journal.toAccount.follow call with
      origins := journal.originsAfter call
      sources := journal.sourcesAfter call }

/-- The journal after some calls, from that of a transaction that knows nothing. -/
def after (calls : List (Call E D A)) : Journal E D A := calls.foldl follow {}

/-- All that was recorded, in order: what was built into sources, and what is pending. -/
def recorded (journal : Journal E D A) : List (Change D) :=
  journal.sources.flatMap Source.changes ++ journal.transaction.changes

theorem follow_of_error {journal : Journal E D A} {call : Call E D A} {fault : Fault}
    (h : call.apply journal.transaction = .error fault) : journal.follow call = journal := by
  rw [follow, h]

theorem follow_of_ok {journal : Journal E D A} {call : Call E D A} {t : Transaction E D}
    (h : call.apply journal.transaction = .ok t) :
    journal.follow call =
      { transaction := t
        bases := journal.basesAfter call
        appended := journal.appendedAfter call
        origins := journal.originsAfter call
        sources := journal.sourcesAfter call } := by
  rw [follow, h, Account.follow_of_ok h]

theorem toAccount_follow (journal : Journal E D A) (call : Call E D A) :
    (journal.follow call).toAccount = journal.toAccount.follow call := by
  cases hcall : call.apply journal.transaction with
  | error fault => rw [follow_of_error hcall, Account.follow_of_error hcall]
  | ok t => rw [follow_of_ok hcall, Account.follow_of_ok hcall]

/-- A journal is kept of what happens to the account. -/
theorem toAccount_after (calls : List (Call E D A)) :
    (after calls).toAccount = Account.after calls :=
  (List.foldl_hom toAccount fun journal call ↦ (toAccount_follow journal call).symm).symm

/-! ### Accounts without sources -/

/-- The account as it would be if no source had been built. -/
def unbuilt (journal : Journal E D A) : Account E D where
  transaction :=
    { known := journal.transaction.known
      pending := journal.sources.flatMap (·.messages) ++ journal.transaction.pending }
  bases := journal.origins
  appended := journal.recorded.map fun c ↦ (c.entityId, c.delta)

omit [Entity E D] in
theorem changes_unbuilt (journal : Journal E D A) :
    journal.unbuilt.transaction.changes = journal.recorded := by
  rw [changes, unbuilt, List.map_append, List.map_flatMap]
  rfl

/-- What is appended to the transaction is appended to that of the account. -/
theorem unbuilt_appended (journal : Journal E D A) (known bases origins : Catalog E)
    (appended : List (Identifier × D)) (X : Identifier) (e : E) (delta : D) (id : Identifier) :
    unbuilt
        { transaction := Transaction.appended { journal.transaction with known } X e delta id
          bases, appended, origins
          sources := journal.sources } =
      { transaction := Transaction.appended { journal.unbuilt.transaction with known } X e delta id
        bases := origins
        appended := journal.unbuilt.appended ++ [(X, delta)] } := by
  simp [unbuilt, recorded, Transaction.appended, changes, draft]

/-- Building a source makes no difference to that account, and any other call that attaches nothing
does to it what it does. -/
theorem unbuilt_follow (journal : Journal E D A) {call : Call E D A}
    (hplain : ∀ X attachment, call ≠ .attach X attachment) :
    (journal.follow call).unbuilt = journal.unbuilt ∨
      (journal.follow call).unbuilt = journal.unbuilt.follow call := by
  cases hcall : call.apply journal.transaction with
  | error fault =>
    rw [follow_of_error hcall]
    exact .inl rfl
  | ok t =>
    rw [follow_of_ok hcall]
    cases call with
    | create X delta id =>
      obtain ⟨hnew, rfl⟩ := create_eq_ok_iff.1 hcall
      have hsame : Call.apply journal.unbuilt.transaction (A := A) (.create X delta id) = .ok _ :=
        create_eq_ok_iff.2 ⟨hnew, rfl⟩
      rw [Account.follow_of_ok hsame]
      exact .inr (journal.unbuilt_appended ..)
    | load X e =>
      obtain ⟨hnew, rfl⟩ := load_eq_ok_iff.1 hcall
      have hsame : Call.apply journal.unbuilt.transaction (A := A) (.load X e) = .ok _ :=
        load_eq_ok_iff.2 ⟨hnew, rfl⟩
      rw [Account.follow_of_ok hsame]
      exact .inr rfl
    | append X delta id =>
      obtain ⟨e, he, rfl⟩ := append_eq_ok_iff.1 hcall
      have hsame : Call.apply journal.unbuilt.transaction (A := A) (.append X delta id) = .ok _ :=
        append_eq_ok_iff.2 ⟨e, he, rfl⟩
      rw [Account.follow_of_ok hsame]
      exact .inr (journal.unbuilt_appended ..)
    | appendOrCreate X delta id =>
      rw [Call.apply, appendOrCreate] at hcall
      split_ifs at hcall with hknown
      · obtain ⟨e, he, rfl⟩ := append_eq_ok_iff.1 hcall
        have hsame : Call.apply journal.unbuilt.transaction (A := A) (.appendOrCreate X delta id) =
            .ok _ := (if_pos hknown).trans (append_eq_ok_iff.2 ⟨e, he, rfl⟩)
        rw [Account.follow_of_ok hsame]
        exact .inr (journal.unbuilt_appended ..)
      · obtain ⟨hnew, rfl⟩ := create_eq_ok_iff.1 hcall
        have hsame : Call.apply journal.unbuilt.transaction (A := A) (.appendOrCreate X delta id) =
            .ok _ := (if_neg hknown).trans (create_eq_ok_iff.2 ⟨hnew, rfl⟩)
        rw [Account.follow_of_ok hsame]
        exact .inr (journal.unbuilt_appended ..)
    | attach X attachment => exact absurd rfl (hplain X attachment)
    | build agent sourceId =>
      cases hcall
      left
      simp [unbuilt, recorded, sourcesAfter, originsAfter, clear, changes]

/-- So that account is balanced. -/
theorem balanced_unbuilt {calls : List (Call E D A)}
    (hplain : ∀ X attachment, .attach X attachment ∉ calls) :
    (after calls).unbuilt.Balanced Change.Drafted := by
  induction calls using List.reverseRecOn with
  | nil => exact .empty _
  | append_singleton calls call ih =>
    have hlast : ∀ X attachment, call ≠ .attach X attachment := fun X attachment heq ↦
      hplain X attachment (by simp [heq])
    have hearlier : (after calls).unbuilt.Balanced Change.Drafted := ih fun X attachment hmem ↦
      hplain X attachment (by simp [hmem])
    rw [after, List.foldl_concat]
    rcases unbuilt_follow (after calls) hlast with heq | heq
    · exact heq ▸ hearlier
    · exact heq ▸ hearlier.follow (fun _ _ _ ↦ rfl) call fun X attachment hattach ↦
        absurd hattach (hlast X attachment)

/-- And so is the account that does build. -/
theorem balanced {calls : List (Call E D A)}
    (hplain : ∀ X attachment, .attach X attachment ∉ calls) :
    (after calls).toAccount.Balanced Change.Drafted := by
  rw [toAccount_after]
  exact Account.balanced_after calls (fun _ _ _ ↦ rfl) fun X attachment hmem ↦
    absurd hmem (hplain X attachment)

end Journal

/-! ### Recording differences -/

/-- The message that is appended bridges the state that the delta is appended to and the next. -/
theorem bridges_appended (t : Transaction E D) (X : Identifier) (e : E) (delta : D)
    (id : Identifier) :
    ∃ c, (t.appended X e delta id).changes = t.changes ++ [c] ∧ c.entityId = X ∧ c.delta = delta ∧
      c.Bridges e (Entity.reduce e delta) := by
  have hdrafted : (draft X e (Entity.reduce e delta) delta).Drafted e := rfl
  exact ⟨_, List.map_append, rfl, rfl, hdrafted.bridges⟩

/-- One message is recorded when an entity is appended to, and it bridges the state that was known,
or else was constructed, and the one that is known then. -/
theorem bridges_of_append {t t' : Transaction E D} {X : Identifier} {delta : D} {id : Identifier}
    (h : t.append X delta id = .ok t' ∨ t.create X delta id = .ok t') :
    ∃ c before after, t'.changes = t.changes ++ [c] ∧ c.entityId = X ∧ c.delta = delta ∧
      (t.get? X).getD (Entity.construct X) = before ∧ t'.get? X = some after ∧
      c.Bridges before after := by
  rcases h with h | h
  · obtain ⟨e, he, rfl⟩ := append_eq_ok_iff.1 h
    obtain ⟨c, hchanges, hid, hdelta, hbridges⟩ := bridges_appended t X e delta id
    exact ⟨c, e, Entity.reduce e delta, hchanges, hid, hdelta, by rw [he]; rfl, by simp, hbridges⟩
  · obtain ⟨hnew, rfl⟩ := create_eq_ok_iff.1 h
    obtain ⟨c, hchanges, hid, hdelta, hbridges⟩ :=
      bridges_appended { t with known := t.known.put X (Entity.construct X) } X
        (Entity.construct X) delta id
    exact ⟨c, Entity.construct X, Entity.reduce (Entity.construct X) delta, hchanges, hid, hdelta,
      by rw [hnew]; rfl, by simp, hbridges⟩

/-- **The differences of entities telescope.** Nothing is asked of the entities. Let a transaction
be asked to create, load, append and build, in any order, with nothing attached. Whenever something
is appended, one message is recorded, which says what the leases and tags of the state before lose
and gain to become those of the state after. All that was ever recorded is of known entities, and of
each of them it telescopes from the state that was constructed or loaded to the known one, whichever
sources it was built into; and so does what is pending, from the state that was known when the last
source was built. -/
theorem differences_telescope {calls : List (Call E D A)}
    (hplain : ∀ X attachment, .attach X attachment ∉ calls) :
    let journal := Journal.after calls
    let t := journal.transaction
    (∀ X delta id t', t.append X delta id = .ok t' ∨ t.create X delta id = .ok t' →
      ∃ c before after, t'.changes = t.changes ++ [c] ∧ c.entityId = X ∧ c.delta = delta ∧
        (t.get? X).getD (Entity.construct X) = before ∧ t'.get? X = some after ∧
        c.Bridges before after) ∧
    (∀ c ∈ journal.recorded, t.isKnown c.entityId) ∧
    ∀ X e, t.get? X = some e →
      ∃ origin base, journal.origins.get? X = some origin ∧ journal.bases.get? X = some base ∧
        Telescopes origin (changesOf X journal.recorded) e ∧ Telescopes base (t.pendingOf X) e := by
  intro journal t
  have hunbuilt : journal.unbuilt.Balanced Change.Drafted := Journal.balanced_unbuilt hplain
  refine ⟨fun X delta id t' ↦ bridges_of_append, fun c hc ↦ ?_, fun X e he ↦ ?_⟩
  · exact hunbuilt.known (c.entityId, c.delta) (List.mem_map_of_mem hc)
  · obtain ⟨origin, horigin, hall⟩ := hunbuilt.leads X e he
    rw [pendingOf, Journal.changes_unbuilt] at hall
    obtain ⟨base, hbase, hpending⟩ := (Journal.balanced hplain).leads X e he
    exact ⟨origin, base, horigin, hbase, hall.telescopes, hpending.telescopes⟩

section Rearranged

open Inventory

/-- Another lease of the kind. -/
def corner : Lease := ⟨"shelf", "spot", "b2"⟩

/-- An item that holds a lease twice over. -/
def doubled : Item := { Item.construct (.ofNat 7) with leases := [Tables.spot, Tables.spot] }

/-- Entity 7 is loaded with a lease twice over, gains another one twice in a first source, and then
loses the former and is reserved while entity 8, which was reserved, is released. Entity 9 is not
known, and 7 cannot be created again. -/
def rearranged : List (Call Item Delta Signature) := [
  .load (.ofNat 7) doubled,
  .create (.ofNat 8) (.reserve "c") (.ofMessage 1),
  .append (.ofNat 7) (.setLeases [corner, Tables.spot, corner]) (.ofMessage 2),
  .build ⟨default, .system⟩ (.ofNat 1),
  .append (.ofNat 9) .doNothing (.ofMessage 3),
  .create (.ofNat 7) .release (.ofMessage 4),
  .append (.ofNat 7) (.setLeases [corner]) (.ofMessage 5),
  .appendOrCreate (.ofNat 8) .release (.ofMessage 6),
  .append (.ofNat 7) (.reserve "c") (.ofMessage 7)]

theorem differences_telescope_rearranged :
    let journal := Journal.after rearranged
    let t := journal.transaction
    let last : Item := { doubled with
      version := ⟨3⟩, reservation := some "c", leases := [corner] }
    let middle : Item := { doubled with version := ⟨1⟩, leases := [corner, Tables.spot, corner] }
    (∀ X attachment, .attach X attachment ∉ rearranged) ∧
    (changesOf (.ofNat 7) journal.recorded).map (fun c ↦ (c.deleteLeases, c.addLeases)) =
      [([], [corner, corner]), ([Tables.spot], []), ([], [⟨"test", "reservation", "c"⟩])] ∧
    (t.pendingOf (.ofNat 8)).map (fun c ↦ (c.deleteLeases, c.addLeases)) =
      [([⟨"test", "reservation", "c"⟩], [])] ∧
    t.get? (.ofNat 7) = some last ∧
    Telescopes doubled (changesOf (.ofNat 7) journal.recorded) last ∧
    Telescopes middle (t.pendingOf (.ofNat 7)) last := by
  intro journal t last middle
  have hplain : ∀ X attachment, .attach X attachment ∉ rearranged := by simp [rearranged]
  have hlast : t.get? (.ofNat 7) = some last := by decide +kernel
  have horigin : journal.origins.get? (.ofNat 7) = some doubled := by decide +kernel
  have hbase : journal.bases.get? (.ofNat 7) = some middle := by decide +kernel
  obtain ⟨-, -, htelescope⟩ := differences_telescope hplain
  obtain ⟨origin, base, horigin', hbase', hall, hpending⟩ := htelescope (.ofNat 7) last hlast
  obtain rfl := Option.some.inj (horigin'.symm.trans horigin)
  obtain rfl := Option.some.inj (hbase'.symm.trans hbase)
  exact ⟨hplain, by decide +kernel, by decide +kernel, hlast, hall, hpending⟩

end Rearranged

end Transaction

end Chronicle
