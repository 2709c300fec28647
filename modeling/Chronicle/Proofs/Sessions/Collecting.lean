import Chronicle.Inventory.Item
import Chronicle.Proofs.Sessions.Provenance
import Chronicle.Proofs.Store.Packing

/-!
# Collecting messages

A transaction is asked to create entities, to load them, to append to them, to attach leases and
tags and to build sources, in any order, and some of it fails (`Call`). An account is kept beside it
of what a source is built from (`Account`): which state each known entity started from, its base,
and what was appended since the last source was built.

An account that holds what the transaction holds is balanced (`Account.Balanced`): the pending
messages of an entity lead from its base to the known state. Each call keeps it balanced
(`Account.Balanced.follow`), and so it is balanced after any calls. From this follows
`collected_exact`: the messages of an entity follow its versions one after the other, from that of
the base on, and so no source is ever rejected for duplicates.
-/

namespace Chronicle

namespace Transaction

/-! ### Calls -/

/-- What can be asked of a transaction. A view of a single entity asks for the same of its entity,
except that what it appends is appended by `appendOrCreate`. -/
inductive Call (E D A : Type) where
  | create (entityId : Identifier) (delta : D) (messageId : Identifier)
  | load (entityId : Identifier) (e : E)
  | append (entityId : Identifier) (delta : D) (messageId : Identifier)
  | appendOrCreate (entityId : Identifier) (delta : D) (messageId : Identifier)
  | attach (entityId : Identifier) (attachment : Attachment)
  | build (agent : Agent A) (sourceId : Identifier)

variable {E D A : Type} [Entity E D]

/-- The transaction after a call that succeeds. -/
def Call.apply (t : Transaction E D) : Call E D A → Except Fault (Transaction E D)
  | .create X delta id => t.create X delta id
  | .load X e => t.load X e
  | .append X delta id => t.append X delta id
  | .appendOrCreate X delta id => t.appendOrCreate X delta id
  | .attach X attachment => t.attach X attachment.apply
  | .build agent sourceId => .ok (t.build agent sourceId).2

/-- A transaction, the base of each known entity, and what was appended since the last source was
built, in order. The base is the state that was constructed or loaded, or else the one that was
known when the source was built. -/
structure Account (E D : Type) where
  transaction : Transaction E D := {}
  bases : Catalog E := {}
  appended : List (Identifier × D) := []

namespace Account

/-- The bases after a call that succeeds. -/
def basesAfter (account : Account E D) : Call E D A → Catalog E
  | .create X _ _ => account.bases.put X (Entity.construct X)
  | .load X e => account.bases.put X e
  | .append _ _ _ | .attach _ _ => account.bases
  | .appendOrCreate X _ _ =>
    if account.transaction.isKnown X then account.bases
    else account.bases.put X (Entity.construct X)
  | .build _ _ => account.transaction.known

/-- What has been appended after a call that succeeds. -/
def appendedAfter (account : Account E D) : Call E D A → List (Identifier × D)
  | .create X delta _ | .append X delta _ | .appendOrCreate X delta _ =>
    account.appended ++ [(X, delta)]
  | .load _ _ | .attach _ _ => account.appended
  | .build _ _ => []

/-- The account after a call. One that fails changes nothing. -/
def follow (account : Account E D) (call : Call E D A) : Account E D :=
  match call.apply account.transaction with
  | .error _ => account
  | .ok transaction =>
    { transaction, bases := account.basesAfter call, appended := account.appendedAfter call }

/-- The account after some calls, from that of a transaction that knows nothing. -/
def after (calls : List (Call E D A)) : Account E D := calls.foldl follow {}

/-! ### Balanced accounts -/

/-- Whatever is related to each state and the message that is recorded in it (`P`), the pending
messages of an entity lead from its base to the known state; they are what was appended, and nothing
was appended to an entity that is not known. -/
structure Balanced (P : E → Change D → Prop) (account : Account E D) : Prop where
  leads : ∀ X e, account.transaction.get? X = some e →
    ∃ base, account.bases.get? X = some base ∧ Leads P base (account.transaction.pendingOf X) e
  appended : account.transaction.pending.map (fun m ↦ (m.entityId, m.delta)) = account.appended
  known : ∀ entry ∈ account.appended, account.transaction.isKnown entry.1

namespace Balanced

variable {P : E → Change D → Prop} {account : Account E D} {X : Identifier} {e : E} {delta : D}

theorem empty (P : E → Change D → Prop) : Balanced P {} where
  leads := nofun
  appended := rfl
  known := nofun

/-- A message is only pending of an entity that is known. -/
theorem isKnown (h : account.Balanced P) {m : Message D} (hm : m ∈ account.transaction.pending) :
    account.transaction.isKnown m.entityId :=
  h.known (m.entityId, m.delta) (h.appended ▸ List.mem_map_of_mem hm)

theorem pendingOf_eq_nil (h : account.Balanced P) (hX : account.transaction.get? X = none) :
    account.transaction.pendingOf X = [] := by
  rw [pendingOf, changesOf, List.filter_eq_nil_iff, changes, List.forall_mem_map]
  intro m hm hmX
  have hknown := h.isKnown hm
  rw [of_decide_eq_true hmX, Transaction.isKnown, Catalog.contains, ← get?, hX] at hknown
  cases hknown

/-- An entity becomes known that was not, and has its state as its base. -/
theorem put (h : account.Balanced P) (hX : account.transaction.get? X = none) (e : E) :
    Balanced P
      { transaction := { account.transaction with known := account.transaction.known.put X e }
        bases := account.bases.put X e
        appended := account.appended } where
  leads Y f hf := by
    by_cases hY : Y = X
    · subst hY
      obtain rfl : e = f := by simpa [get?] using hf
      refine ⟨e, by simp, ?_⟩
      show Leads P e (account.transaction.pendingOf Y) e
      rw [h.pendingOf_eq_nil hX]
      exact .nil e
    · have hget : account.transaction.get? Y = some f := by simpa [get?, hY] using hf
      obtain ⟨base, hbase, hleads⟩ := h.leads Y f hget
      exact ⟨base, by simpa [hY] using hbase, hleads⟩
  appended := h.appended
  known entry hentry := by
    have hknown := h.known entry hentry
    simp only [Transaction.isKnown, Catalog.contains, Catalog.get?_put] at hknown ⊢
    split
    · rfl
    · exact hknown

/-- A message is appended that is related to the known state. -/
theorem append (h : account.Balanced P) (hX : account.transaction.get? X = some e)
    (hP : P e (draft X e (Entity.reduce e delta) delta)) (id : Identifier) :
    Balanced P
      { transaction := account.transaction.appended X e delta id
        bases := account.bases
        appended := account.appended ++ [(X, delta)] } where
  leads Y f hf := by
    by_cases hY : Y = X
    · subst hY
      obtain rfl : Entity.reduce e delta = f := by simpa using hf
      obtain ⟨base, hbase, hleads⟩ := h.leads Y e hX
      refine ⟨base, hbase, ?_⟩
      rw [pendingOf_appended_self]
      exact hleads.concat hP
    · have hget : account.transaction.get? Y = some f := by simpa [hY] using hf
      rw [pendingOf_appended_of_ne hY]
      exact h.leads Y f hget
  appended := by
    rw [Transaction.appended, List.map_append, h.appended]
    rfl
  known entry hentry := by
    have hget := account.transaction.get?_appended X e delta id entry.1
    rw [Transaction.isKnown, Catalog.contains, ← get?, hget]
    split
    · rfl
    case isFalse hne =>
      rcases List.mem_append.1 hentry with hentry | hentry
      · exact h.known entry hentry
      · rw [List.mem_singleton.1 hentry] at hne
        exact absurd rfl hne

/-- Something is attached that leaves the message related to its state. -/
theorem attach (h : account.Balanced P) {attachment : Attachment} {pending : List (Message D)}
    (hP : ∀ e (m : Message D), P e m.toChange → P e (attachment.apply m).toChange)
    (hchange : changeLast X attachment.apply account.transaction.pending = some pending) :
    Balanced P { account with transaction := { account.transaction with pending } } := by
  have hsame := forall₂_changeLast hchange
  obtain ⟨before, m, behind, hpending, -, -, rfl⟩ := changeLast_eq_some_iff.1 hchange
  obtain ⟨hid, hdelta⟩ := attachment.toChange_apply m
  refine ⟨fun Y f hf ↦ ?_, ?_, h.known⟩
  · obtain ⟨base, hbase, hleads⟩ := h.leads Y f hf
    exact ⟨base, hbase, hleads.of_forall₂ (attachment.forall₂_changesOf hP hsame Y)⟩
  · rw [← h.appended, hpending]
    simp [hid, hdelta]

/-- Once a source is built, each entity starts from what is known of it. -/
theorem clear (P : E → Change D → Prop) (t : Transaction E D) :
    Balanced P { transaction := t.clear, bases := t.known } where
  leads _ e he := ⟨e, he, .nil e⟩
  appended := rfl
  known := nofun

/-- An entity is constructed that was not known, and a message is appended to it. -/
theorem create (h : account.Balanced P) (hX : account.transaction.get? X = none)
    (hP : ∀ e, P e (draft X e (Entity.reduce e delta) delta)) (id : Identifier) :
    Balanced P
      { transaction := Transaction.appended
          { account.transaction with
            known := account.transaction.known.put X (Entity.construct X) }
          X (Entity.construct X) delta id
        bases := account.bases.put X (Entity.construct X)
        appended := account.appended ++ [(X, delta)] } :=
  (h.put hX (Entity.construct X)).append (by simp [get?]) (hP _) id

end Balanced

theorem follow_of_error {account : Account E D} {call : Call E D A} {fault : Fault}
    (h : call.apply account.transaction = .error fault) : account.follow call = account := by
  rw [follow, h]

theorem follow_of_ok {account : Account E D} {call : Call E D A} {t : Transaction E D}
    (h : call.apply account.transaction = .ok t) :
    account.follow call =
      { transaction := t
        bases := account.basesAfter call
        appended := account.appendedAfter call } := by
  rw [follow, h]

/-- **Accounts stay balanced.** What is appended must be related to the state it is recorded in, and
stay so with what is attached to it. -/
theorem Balanced.follow {P : E → Change D → Prop} {account : Account E D} (h : account.Balanced P)
    (hdraft : ∀ X e (delta : D), P e (draft X e (Entity.reduce e delta) delta))
    (call : Call E D A)
    (hattach : ∀ X attachment, call = .attach X attachment →
      ∀ e (m : Message D), P e m.toChange → P e (attachment.apply m).toChange) :
    (account.follow call).Balanced P := by
  cases hcall : call.apply account.transaction with
  | error fault =>
    rw [follow_of_error hcall]
    exact h
  | ok t =>
    rw [follow_of_ok hcall]
    cases call with
    | create X delta id =>
      obtain ⟨hnew, rfl⟩ := create_eq_ok_iff.1 hcall
      exact h.create hnew (fun e ↦ hdraft X e delta) id
    | load X e =>
      obtain ⟨hnew, rfl⟩ := load_eq_ok_iff.1 hcall
      exact h.put hnew e
    | append X delta id =>
      obtain ⟨e, he, rfl⟩ := append_eq_ok_iff.1 hcall
      exact h.append he (hdraft X e delta) id
    | appendOrCreate X delta id =>
      rw [Call.apply, appendOrCreate] at hcall
      rw [basesAfter]
      split_ifs at hcall ⊢ with hknown
      · obtain ⟨e, he, rfl⟩ := append_eq_ok_iff.1 hcall
        exact h.append he (hdraft X e delta) id
      · obtain ⟨hnew, rfl⟩ := create_eq_ok_iff.1 hcall
        exact h.create hnew (fun e ↦ hdraft X e delta) id
    | attach X attachment =>
      obtain ⟨pending, hchange, rfl⟩ := attach_eq_ok_iff.1 hcall
      exact h.attach (hattach X attachment rfl) hchange
    | build agent sourceId =>
      cases hcall
      exact .clear P account.transaction

/-- So the account is balanced after any calls. -/
theorem balanced_after {P : E → Change D → Prop} (calls : List (Call E D A))
    (hdraft : ∀ X e (delta : D), P e (draft X e (Entity.reduce e delta) delta))
    (hattach : ∀ X attachment, .attach X attachment ∈ calls →
      ∀ e (m : Message D), P e m.toChange → P e (attachment.apply m).toChange) :
    (after calls).Balanced P := by
  induction calls using List.reverseRecOn with
  | nil => exact .empty P
  | append_singleton calls call ih =>
    rw [after, List.foldl_concat]
    refine Balanced.follow (ih fun X attachment hmem ↦ hattach X attachment (by simp [hmem])) hdraft
      call fun X attachment heq ↦ hattach X attachment (by simp [heq])

end Account

/-! ### Versions of pending messages -/

section Versions

/-- A message follows the state that it is recorded in. -/
def Follows (e : E) (c : Change D) : Prop := c.expectedPrevious = Entity.version e

theorem balanced_follows (calls : List (Call E D A)) : (Account.after calls).Balanced Follows :=
  Account.balanced_after calls (fun _ _ _ ↦ rfl) fun _ attachment _ _ m hm ↦
    (congrArg Prod.snd (attachment.claim_apply m)).trans hm

variable (hnext : ∀ (e : E) (delta : D),
  Entity.version (Entity.reduce e delta) = (Entity.version e).next)
include hnext

/-- Messages that lead from state to state, each following its own, follow successive versions. -/
theorem map_expectedPrevious_of_leads {base e : E} {cs : List (Change D)}
    (h : Leads Follows base cs e) :
    cs.map (·.expectedPrevious) = List.iterate Version.next (Entity.version base) cs.length := by
  induction h with
  | nil e => rfl
  | cons hc _ ih => rw [List.map_cons, ih, hnext, List.length_cons, List.iterate, hc]

/-- So no two pending messages follow the same version of the same entity, unless there are so many
that the versions start again. -/
theorem nodup_claims {account : Account E D} (h : account.Balanced Follows)
    (hroom : ∀ X, (account.transaction.pendingOf X).length < 2 ^ 64) :
    (account.transaction.changes.map (·.claim)).Nodup := by
  refine nodup_of_nodup_versionsOf fun X ↦ ?_
  show (account.transaction.claims X).Nodup
  cases hX : account.transaction.get? X with
  | none =>
    rw [claims_eq, h.pendingOf_eq_nil hX]
    exact .nil
  | some e =>
    rw [claims_eq]
    obtain ⟨base, -, hleads⟩ := h.leads X e hX
    have hversions : ((account.transaction.pendingOf X).map (·.expectedPrevious)).Nodup := by
      rw [map_expectedPrevious_of_leads hnext hleads]
      exact Version.nodup_iterate_next _ (hroom X).le
    have hinj : Function.Injective Version.toNat := fun _ _ ↦ Version.toNat_inj.1
    have hnumbers := hversions.map hinj
    rwa [List.map_map] at hnumbers

end Versions

/-- **Transactions collect what is appended.** Let each delta lead to the next version. After any
calls, of which some may have failed, the pending messages of each known entity follow the version
of its base and those after it, and lead from the base to the known state. What is pending is what
was appended since the last source was built, in order, and all of it is of entities that are known.
What is attached changes the last pending message of its entity and nothing else. A source is built
of all that is pending, and all that is known stays known; unless there are so many messages of an
entity that its versions start again, no store, whatever it holds, rejects the source for
duplicates. -/
theorem collected_exact [Packable D] [Packable A]
    (hnext : ∀ (e : E) (delta : D),
      Entity.version (Entity.reduce e delta) = (Entity.version e).next)
    (calls : List (Call E D A)) :
    let account := Account.after calls
    let t := account.transaction
    (∀ X e, t.get? X = some e → ∃ base, account.bases.get? X = some base ∧
      (t.pendingOf X).map (·.expectedPrevious) =
        List.iterate Version.next (Entity.version base) (t.pendingOf X).length ∧
      e = Entity.replay base ((t.pendingOf X).map (·.delta))) ∧
    t.pending.map (fun m ↦ (m.entityId, m.delta)) = account.appended ∧
    (∀ m ∈ t.pending, t.isKnown m.entityId) ∧
    (∀ (X : Identifier) (attachment : Attachment) (t' : Transaction E D),
      t.attach X attachment.apply = .ok t' ↔
        ∃ before m after, t.pending = before ++ m :: after ∧ m.entityId = X ∧
          (∀ later ∈ after, later.entityId ≠ X) ∧
          t' = ⟨t.known, before ++ attachment.apply m :: after⟩) ∧
    ∀ (agent : Agent A) (sourceId : Identifier),
      let source := (t.build agent sourceId).1
      source.messages = t.pending ∧ (t.build agent sourceId).2 = ⟨t.known, []⟩ ∧
      ((∀ X, (t.pendingOf X).length < 2 ^ 64) →
        ∀ (tables : Tables) (options : SessionOptions) (X : Identifier) (v : Version),
          (tables.commit options source).outcome ≠ .error (.conflict (.duplicateInBatch X v))) := by
  intro account t
  have hbalanced : account.Balanced Follows := balanced_follows calls
  refine ⟨fun X e he ↦ ?_, hbalanced.appended, fun _ ↦ hbalanced.isKnown, fun X attachment t' ↦ ?_,
    fun agent sourceId ↦ ⟨rfl, rfl, fun hroom tables options X v ↦ ?_⟩⟩
  · obtain ⟨base, hbase, hleads⟩ := hbalanced.leads X e he
    exact ⟨base, hbase, map_expectedPrevious_of_leads hnext hleads, hleads.eq_replay.symm⟩
  · rw [attach_eq_ok_iff]
    constructor
    · rintro ⟨pending, hchange, rfl⟩
      obtain ⟨before, m, after, hpending, hm, hafter, rfl⟩ := changeLast_eq_some_iff.1 hchange
      exact ⟨before, m, after, hpending, hm, hafter, rfl⟩
    · rintro ⟨before, m, after, hpending, hm, hafter, rfl⟩
      exact ⟨_, changeLast_eq_some_iff.2 ⟨before, m, after, hpending, hm, hafter, rfl⟩, rfl⟩
  · refine tables.commit_ne_duplicate options ?_ X v
    rw [changes_build]
    exact nodup_claims hnext hbalanced hroom

section Interleaved

open Inventory

/-- Entities 7 and 8 are appended to by turns, the one constructed and the other loaded in its last
version. Entity 9 is not known, and 7 cannot be created again. -/
def interleaved : List (Call Item Delta Signature) := [
  .appendOrCreate (.ofNat 7) (.count 3) (.ofMessage 1),
  .load (.ofNat 8) { Item.construct (.ofNat 8) with version := .last },
  .append (.ofNat 8) .doNothing (.ofMessage 2),
  .append (.ofNat 9) .doNothing (.ofMessage 3),
  .create (.ofNat 7) .release (.ofMessage 4),
  .appendOrCreate (.ofNat 7) (.count 4) (.ofMessage 5),
  .attach (.ofNat 8) (.addTag ⟨"shelf", "top"⟩),
  .append (.ofNat 8) .doNothing (.ofMessage 6)]

theorem collected_exact_interleaved :
    let account := Account.after interleaved
    let t := account.transaction
    let agent : Agent Signature := ⟨default, .user "a"⟩
    let source := (t.build agent (.ofNat 1)).1
    account.bases.get? (.ofNat 8) = some { Item.construct (.ofNat 8) with version := .last } ∧
    (t.pendingOf (.ofNat 8)).map (·.expectedPrevious) = [.last, .zero] ∧
    t.pending.map (fun m ↦ (m.entityId, m.delta)) = [(.ofNat 7, .count 3), (.ofNat 8, .doNothing),
      (.ofNat 7, .count 4), (.ofNat 8, .doNothing)] ∧
    (∀ X, (t.pendingOf X).length < 2 ^ 64) ∧
    ∀ (tables : Tables) (X : Identifier) (v : Version),
      (tables.commit {} source).outcome ≠ .error (.conflict (.duplicateInBatch X v)) := by
  intro account t agent source
  obtain ⟨hleads, happended, -, -, hbuild⟩ :=
    collected_exact LawfulEntity.version_reduce interleaved
  have hroom (X : Identifier) : (t.pendingOf X).length < 2 ^ 64 :=
    (List.length_filter_le _ _).trans_lt (by decide +kernel)
  obtain ⟨-, -, hnever⟩ := hbuild agent (.ofNat 1)
  have hbase : account.bases.get? (.ofNat 8) =
      some { Item.construct (.ofNat 8) with version := .last } := by decide +kernel
  obtain ⟨base, hsome, hversions, -⟩ := hleads (.ofNat 8)
    { Item.construct (.ofNat 8) with version := ⟨1⟩ } (by decide +kernel)
  obtain rfl := Option.some.inj (hsome.symm.trans hbase)
  have hlength : (t.pendingOf (.ofNat 8)).length = 2 := by decide +kernel
  rw [hlength] at hversions
  exact ⟨hbase, hversions, happended, hroom, fun tables ↦ hnever hroom tables {}⟩

end Interleaved

end Transaction

end Chronicle
