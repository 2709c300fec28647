import Chronicle.Proofs.Fallible
import Chronicle.Proofs.Store.Log
import Chronicle.Transaction

/-!
# What transactions do to messages

A transaction is looked at by the changes of its pending messages, which identifiers are no part of
(`Transaction.changes`), and by the versions of an entity that they follow (`Transaction.claims`).
Building a source takes all messages out, and a source that comes back puts them in as they were.
What a message says that its state loses and gains is what only one of the two states has.
-/

namespace Chronicle

variable {E D A : Type}

namespace Transaction

/-- The changes of the pending messages. -/
def changes (t : Transaction E D) : List (Change D) := t.pending.map (·.toChange)

/-- The versions of an entity that the pending messages follow, in order. -/
def claims (t : Transaction E D) (entityId : Identifier) : List Nat := claimsOf entityId t.changes

end Transaction

/-! ### Differences -/

/-- A list loses what is not in the other. -/
theorem mem_difference_fst {α : Type} [DecidableEq α] {before after : List α} {a : α} :
    a ∈ (difference before after).1 ↔ a ∈ before ∧ a ∉ after := by
  simp only [difference, List.partition_eq_filter_filter, List.mem_filter, List.contains_eq_mem,
    Bool.not_eq_true', decide_eq_false_iff_not, decide_eq_true_eq]
  tauto

/-- It gains what is only in the other. -/
theorem mem_difference_snd {α : Type} [DecidableEq α] {before after : List α} {a : α} :
    a ∈ (difference before after).2 ↔ a ∈ after ∧ a ∉ before := by
  simp [difference, List.partition_eq_filter_filter]

/-! ### Building a source -/

namespace Transaction

theorem hasPending_iff {t : Transaction E D} : t.hasPending = true ↔ t.pending ≠ [] := by
  simp [hasPending]

/-- The source that is built consists of the pending messages. -/
@[simp] theorem messages_build (t : Transaction E D) (agent : Agent A) (sourceId : Identifier) :
    (t.build agent sourceId).1.messages = t.pending := rfl

@[simp] theorem changes_build (t : Transaction E D) (agent : Agent A) (sourceId : Identifier) :
    (t.build agent sourceId).1.changes = t.changes := rfl

/-- Nothing is pending once a source is built. -/
@[simp] theorem transaction_build (t : Transaction E D) (agent : Agent A) (sourceId : Identifier) :
    (t.build agent sourceId).2 = t.clear := rfl

/-- Messages that come back are pending as they were. -/
theorem restore_build (t : Transaction E D) (agent : Agent A) (sourceId : Identifier) :
    t.clear.restore (t.build agent sourceId).1.messages = t := by
  simp [restore, clear]

/-! ### Changing a transaction -/

theorem load_eq_ok_iff {t t' : Transaction E D} {X : Identifier} {e : E} :
    t.load X e = .ok t' ↔ t.get? X = none ∧ { t with known := t.known.put X e } = t' := by
  rw [load, isKnown, Catalog.contains, get?]
  cases t.known.get? X with
  | some known => simp
  | none => simp

/-- The transaction once a delta is appended to an entity in a known state. -/
def appended [Entity E D] (t : Transaction E D) (X : Identifier) (e : E) (delta : D)
    (id : Identifier) : Transaction E D :=
  let after := Entity.reduce e delta
  { known := t.known.put X after, pending := t.pending ++ [{ draft X e after delta with id }] }

theorem append_eq_ok_iff [Entity E D] {t t' : Transaction E D} {X : Identifier} {delta : D}
    {id : Identifier} :
    t.append X delta id = .ok t' ↔ ∃ e, t.get? X = some e ∧ t.appended X e delta id = t' := by
  rw [append]
  cases t.get? X with
  | none => simp
  | some e => simp [appended]

theorem create_eq_ok_iff [Entity E D] {t t' : Transaction E D} {X : Identifier} {delta : D}
    {id : Identifier} :
    t.create X delta id = .ok t' ↔ t.get? X = none ∧
      appended { t with known := t.known.put X (Entity.construct X) } X (Entity.construct X) delta
        id = t' := by
  simp only [create, Except.bind_eq_ok_iff, load_eq_ok_iff, append_eq_ok_iff]
  constructor
  · rintro ⟨_, ⟨hnew, rfl⟩, e, he, rfl⟩
    obtain rfl : Entity.construct X = e := by simpa [get?] using he
    exact ⟨hnew, rfl⟩
  · rintro ⟨hnew, rfl⟩
    exact ⟨_, ⟨hnew, rfl⟩, _, by simp [get?], rfl⟩

@[simp] theorem get?_appended [Entity E D] (t : Transaction E D) (X : Identifier) (e : E)
    (delta : D) (id Y : Identifier) :
    (t.appended X e delta id).get? Y = if Y = X then some (Entity.reduce e delta) else t.get? Y :=
  Catalog.get?_put t.known X Y _

/-- A message that is appended follows the state that is known. -/
theorem claims_appended [Entity E D] (t : Transaction E D) (X : Identifier) (e : E) (delta : D)
    (id Y : Identifier) :
    (t.appended X e delta id).claims Y =
      t.claims Y ++ if X = Y then [(Entity.version e).toNat] else [] := by
  rw [claims, changes, appended, List.map_append, claimsOf_append, claims, changes]
  by_cases hY : X = Y
  · simp [claimsOf, versionsOf, draft, Change.claim, hY]
  · simp [claimsOf, versionsOf, draft, Change.claim, hY]

theorem changeLast_eq_none_iff {X : Identifier} {change : Message D → Message D}
    {messages : List (Message D)} :
    changeLast X change messages = none ↔ ∀ m ∈ messages, m.entityId ≠ X := by
  induction messages with
  | nil => simp [changeLast]
  | cons m rest ih =>
    rw [changeLast, List.forall_mem_cons, ← ih]
    cases changeLast X change rest with
    | none => simp
    | some rest' => simp

/-- What is changed is the last message of the entity, where it stands. -/
theorem changeLast_eq_some_iff {X : Identifier} {change : Message D → Message D}
    {messages messages' : List (Message D)} :
    changeLast X change messages = some messages' ↔
      ∃ before m after, messages = before ++ m :: after ∧ m.entityId = X ∧
        (∀ later ∈ after, later.entityId ≠ X) ∧ messages' = before ++ change m :: after := by
  induction messages generalizing messages' with
  | nil => simp [changeLast]
  | cons first rest ih =>
    rw [changeLast]
    constructor
    · intro h
      split at h
      case h_1 rest' hrest =>
        obtain ⟨before, m, after, rfl, hm, hafter, rfl⟩ := ih.1 hrest
        cases h
        exact ⟨first :: before, m, after, rfl, hm, hafter, rfl⟩
      case h_2 hnone =>
        split at h
        · cases h
          exact ⟨[], first, rest, rfl, ‹_›, changeLast_eq_none_iff.1 hnone, rfl⟩
        · cases h
    · rintro ⟨before, m, after, hmessages, hm, hafter, rfl⟩
      cases before with
      | nil =>
        obtain ⟨rfl, rfl⟩ := List.cons.inj hmessages
        rw [changeLast_eq_none_iff.2 hafter]
        exact if_pos hm
      | cons _ before =>
        obtain ⟨rfl, rfl⟩ := List.cons.inj hmessages
        rw [ih.2 ⟨before, m, after, rfl, hm, hafter, rfl⟩]
        rfl

theorem attach_eq_ok_iff {t t' : Transaction E D} {X : Identifier}
    {change : Message D → Message D} :
    t.attach X change = .ok t' ↔
      ∃ pending, changeLast X change t.pending = some pending ∧ { t with pending } = t' := by
  rw [attach]
  cases changeLast X change t.pending with
  | none => simp
  | some pending => simp

/-! ### Attachments -/

/-- What is attached to a message does not change which version it follows. -/
theorem Attachment.claim_apply (a : Attachment) (m : Message D) :
    (a.apply m).claim = m.claim := by
  cases a <;> rfl

theorem map_claim_changeLast {entityId : Identifier}
    {change : Message D → Message D} (hchange : ∀ m, (change m).claim = m.claim)
    {messages messages' : List (Message D)}
    (h : changeLast entityId change messages = some messages') :
    messages'.map (·.claim) = messages.map (·.claim) := by
  obtain ⟨before, m, after, rfl, -, -, rfl⟩ := changeLast_eq_some_iff.1 h
  simp [hchange]

/-- So the same versions are followed whatever is attached. -/
theorem claims_attach {t : Transaction E D} {a : Attachment} {entityId : Identifier}
    {pending : List (Message D)} (h : changeLast entityId a.apply t.pending = some pending)
    (X : Identifier) : claims { t with pending } X = t.claims X := by
  have hclaims := map_claim_changeLast a.claim_apply h
  simp only [claims, claimsOf, changes, List.map_map]
  exact congrArg _ hclaims

end Transaction

end Chronicle
