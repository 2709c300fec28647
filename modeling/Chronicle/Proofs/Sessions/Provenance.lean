import Chronicle.Proofs.Sessions.Standing
import Chronicle.Proofs.Store.History

/-!
# Where known states come from

A session knows an entity in a state that it has loaded, constructed, or reduced itself. As long as
none of its pending messages of the entity is barred from being accepted (`Barred`), these lead to
the known state from one that is on record (`Transaction.Grounded`). Loading a newer state while
messages are pending bars the first of them (`Standing.eq_nil`), and so does what others commit in
their place; what a session then knows may be a state that never existed, but nothing will come of
it.

What is recorded with each message is left open: it is any relation between the state that the
session knew and the change, as long as appending establishes it and attaching keeps it.
-/

namespace Chronicle

variable {R E D A : Type}

/-! ### Messages that lead from state to state -/

/-- Some changes, one after the other, reduce one state to another, and each is related to the state
that it is recorded in. -/
inductive Leads [Entity E D] (P : E → Change D → Prop) : E → List (Change D) → E → Prop
  | nil (e : E) : Leads P e [] e
  | cons {start e : E} {c : Change D} {cs : List (Change D)} (hc : P start c)
      (hcs : Leads P (Entity.reduce start c.delta) cs e) : Leads P start (c :: cs) e

namespace Leads

variable [Entity E D] {P : E → Change D → Prop} {start e : E} {cs cs' : List (Change D)}

theorem concat (h : Leads P start cs e) {c : Change D} (hc : P e c) :
    Leads P start (cs ++ [c]) (Entity.reduce e c.delta) := by
  induction h with
  | nil e => exact .cons hc (.nil _)
  | cons hfirst _ ih => exact .cons hfirst (ih hc)

theorem eq_replay (h : Leads P start cs e) : Entity.replay start (cs.map (·.delta)) = e := by
  induction h with
  | nil e => rfl
  | cons _ _ ih => exact ih

theorem forall_mem (h : Leads P start cs e) {Q : Change D → Prop} (hQ : ∀ e c, P e c → Q c) :
    ∀ c ∈ cs, Q c := by
  induction h with
  | nil e => exact fun _ hc ↦ nomatch hc
  | cons hc _ ih => exact List.forall_mem_cons.2 ⟨hQ _ _ hc, ih⟩

theorem mono {Q : E → Change D → Prop} (h : Leads P start cs e) (hPQ : ∀ e c, P e c → Q e c) :
    Leads Q start cs e := by
  induction h with
  | nil e => exact .nil e
  | cons hc _ ih => exact .cons (hPQ _ _ hc) ih

/-- Each change is related to the state that the ones before it lead to. -/
theorem related {c : Change D} {later : List (Change D)}
    (h : Leads P start (cs ++ c :: later) e) :
    P (Entity.replay start (cs.map (·.delta))) c := by
  induction cs generalizing start with
  | nil =>
    cases h with
    | cons hc _ => exact hc
  | cons first rest ih =>
    cases h with
    | cons _ hcs => exact ih hcs

/-- The changes may be replaced by others of the same deltas that are related to the same states. -/
theorem of_forall₂ (h : Leads P start cs e)
    (hsame : List.Forall₂ (fun c c' ↦ c'.delta = c.delta ∧ ∀ e, P e c → P e c') cs cs') :
    Leads P start cs' e := by
  induction hsame generalizing start with
  | nil => exact h
  | cons hfirst _ ih =>
    obtain ⟨hdelta, hP⟩ := hfirst
    cases h with
    | cons hc hcs => exact .cons (hP _ hc) (ih (hdelta ▸ hcs))

end Leads

/-! ### Barred messages -/

/-- One of the messages that follow some versions can never be accepted: another one has followed
the same version, or it leads past the last one. -/
def Barred (committed : Nat) (claims : List Nat) : Prop :=
  ∃ claim ∈ claims, claim < committed ∨ claim + 1 = 2 ^ 64

theorem not_barred_nil (committed : Nat) : ¬ Barred committed [] := nofun

theorem Barred.mono {committed committed' : Nat} {claims claims' : List Nat}
    (h : Barred committed claims) (hle : committed ≤ committed') (hclaims : claims ⊆ claims') :
    Barred committed' claims' := by
  obtain ⟨claim, hmem, hbar⟩ := h
  exact ⟨claim, hclaims hmem, by omega⟩

/-- Nothing is pending of a committed version unless it is barred. -/
theorem Standing.eq_nil {committed known : Nat} {claims : List Nat}
    (h : Standing committed known claims) (hle : known ≤ committed)
    (hbarred : ¬ Barred committed claims) : claims = [] := by
  cases h with
  | following base hbase hclaims hknown =>
    by_contra hne
    -- The first of them follows a version that another one has followed.
    have hlength := List.length_pos_iff.2 hne
    have hfirst : base ∈ claims := by
      rw [hclaims, List.mem_range'_1]
      omega
    exact hbarred ⟨base, hfirst, .inl (by omega)⟩
  | barred claim hmem hbar => exact absurd ⟨claim, hmem, hbar⟩ hbarred

/-! ### Grounded transactions -/

namespace Transaction

/-- The changes of the pending messages of an entity, in order. -/
def pendingOf (t : Transaction E D) (X : Identifier) : List (Change D) := changesOf X t.changes

theorem claims_eq (t : Transaction E D) (X : Identifier) :
    t.claims X = (t.pendingOf X).map (·.expectedPrevious.toNat) :=
  claimsOf_eq X t.changes

theorem claims_eq_nil_iff {t : Transaction E D} {X : Identifier} :
    t.claims X = [] ↔ t.pendingOf X = [] := by
  rw [claims_eq, List.map_eq_nil_iff]

theorem length_claims (t : Transaction E D) (X : Identifier) :
    (t.claims X).length = (t.pendingOf X).length := by
  rw [claims_eq, List.length_map]

theorem mem_pendingOf {t : Transaction E D} {c : Change D} (hc : c ∈ t.changes) :
    c ∈ t.pendingOf c.entityId :=
  List.mem_filter.2 ⟨hc, by simp⟩

theorem pendingOf_appended [Entity E D] (t : Transaction E D) (X : Identifier) (e : E) (delta : D)
    (id Y : Identifier) :
    (t.appended X e delta id).pendingOf Y = t.pendingOf Y ++
      changesOf Y [draft X e (Entity.reduce e delta) delta] := by
  rw [pendingOf, changes, appended, List.map_append, changesOf_append]
  rfl

/-- The message is pending of its entity. -/
theorem pendingOf_appended_self [Entity E D] (t : Transaction E D) (X : Identifier) (e : E)
    (delta : D) (id : Identifier) :
    (t.appended X e delta id).pendingOf X =
      t.pendingOf X ++ [draft X e (Entity.reduce e delta) delta] := by
  have hself : (draft X e (Entity.reduce e delta) delta).entityId = X := rfl
  rw [pendingOf_appended, changesOf_cons_of_eq hself, changesOf_nil]

/-- No other entity has it. -/
theorem pendingOf_appended_of_ne [Entity E D] {X Y : Identifier} (hY : Y ≠ X) (t : Transaction E D)
    (e : E) (delta : D) (id : Identifier) :
    (t.appended X e delta id).pendingOf Y = t.pendingOf Y := by
  rw [pendingOf_appended, changesOf_cons_of_ne (Ne.symm hY), changesOf_nil, List.append_nil]

/-- What is attached to a message is attached to one of the entity, and to no other. -/
theorem forall₂_changeLast {X : Identifier} {change : Message D → Message D}
    {messages messages' : List (Message D)} (h : changeLast X change messages = some messages') :
    List.Forall₂ (fun m m' ↦ m' = m ∨ m' = change m) messages messages' := by
  obtain ⟨before, m, after, rfl, -, -, rfl⟩ := changeLast_eq_some_iff.1 h
  have hsame (ms : List (Message D)) : List.Forall₂ (fun m m' ↦ m' = m ∨ m' = change m) ms ms :=
    List.forall₂_same.2 fun _ _ ↦ .inl rfl
  exact List.rel_append (hsame before) (.cons (.inr rfl) (hsame after))

/-- What is attached to a message changes neither its entity nor its delta. -/
theorem Attachment.toChange_apply (a : Attachment) (m : Message D) :
    (a.apply m).entityId = m.entityId ∧ (a.apply m).delta = m.delta := by
  cases a <;> exact ⟨rfl, rfl⟩

/-- The changes of an entity keep their deltas, and what they are related to, if something is
attached to some of them that leaves a change related to its state. -/
theorem Attachment.forall₂_changesOf (a : Attachment) {P : E → Change D → Prop}
    (hP : ∀ e (m : Message D), P e m.toChange → P e (a.apply m).toChange)
    {messages messages' : List (Message D)}
    (h : List.Forall₂ (fun m m' ↦ m' = m ∨ m' = a.apply m) messages messages') (X : Identifier) :
    List.Forall₂ (fun c c' ↦ c'.delta = c.delta ∧ ∀ e, P e c → P e c')
      (changesOf X (messages.map (·.toChange))) (changesOf X (messages'.map (·.toChange))) := by
  induction h with
  | nil => exact .nil
  | @cons m m' rest rest' hm _ ih =>
    obtain ⟨hid, hkept⟩ : m'.entityId = m.entityId ∧ m'.delta = m.delta ∧
        ∀ e, P e m.toChange → P e m'.toChange := by
      obtain ⟨hid, hdelta⟩ := a.toChange_apply m
      rcases hm with rfl | rfl
      · exact ⟨rfl, rfl, fun _ h ↦ h⟩
      · exact ⟨hid, hdelta, fun e ↦ hP e m⟩
    rw [List.map_cons, List.map_cons]
    by_cases hX : m.entityId = X
    · rw [changesOf_cons_of_eq hX, changesOf_cons_of_eq (hid.trans hX)]
      exact .cons hkept ih
    · rw [changesOf_cons_of_ne hX, changesOf_cons_of_ne fun h ↦ hX (hid.symm.trans h)]
      exact ih

variable [Entity E D] [Payload D] [Resolves R D]

/-- Each known state, unless a pending message of its entity is barred, is what these messages lead
to from a state on record. Where all versions but one are committed, no message is ever accepted,
and nothing is claimed. -/
def Grounded (registry : R) (P : E → Change D → Prop) (t : Transaction E D) (tables : Tables) :
    Prop :=
  ∀ X e, t.get? X = some e → tables.committed X + 1 < 2 ^ 64 →
    ¬ Barred (tables.committed X) (t.claims X) →
      ∃ start, tables.OnRecord registry X start ∧ Leads P start (t.pendingOf X) e

namespace Grounded

variable {registry : R} {P : E → Change D → Prop} {t t' : Transaction E D}
  {tables tables' : Tables} {X : Identifier} {e : E}

theorem empty (registry : R) (P : E → Change D → Prop) (tables : Tables) :
    Grounded registry P {} tables := nofun

/-- More may be committed meanwhile. -/
theorem mono (h : t.Grounded registry P tables) (hlegible : tables.Legible D registry)
    (hgrow : tables.messages <+: tables'.messages) : t.Grounded registry P tables' :=
  fun X e he hroom hbarred ↦ by
  have hle := Tables.committed_mono hgrow X
  obtain ⟨start, hstart, hleads⟩ := h X e he (by omega) fun hbar ↦
    hbarred (hbar.mono hle (List.Subset.refl _))
  exact ⟨start, hstart.mono hlegible hgrow, hleads⟩

/-- Only one entity is concerned, whose state has an origin of its own. -/
theorem of_update (h : t.Grounded registry P tables) (hget : t'.get? X = some e)
    (horigin : tables.committed X + 1 < 2 ^ 64 → ¬ Barred (tables.committed X) (t'.claims X) →
      ∃ start, tables.OnRecord registry X start ∧ Leads P start (t'.pendingOf X) e)
    (hother : ∀ Y, Y ≠ X → t'.get? Y = t.get? Y ∧ t'.pendingOf Y = t.pendingOf Y) :
    t'.Grounded registry P tables := by
  intro Y f hf hroom hbarred
  by_cases hY : Y = X
  · subst hY
    obtain rfl : e = f := Option.some.inj (hget.symm.trans hf)
    exact horigin hroom hbarred
  · obtain ⟨hgetY, hpending⟩ := hother Y hY
    rw [claims_eq, hpending, ← claims_eq] at hbarred
    rw [hpending]
    exact h Y f (hgetY ▸ hf) hroom hbarred

/-- A state becomes known that is on record, unless what is pending of its entity is barred. -/
theorem put (h : t.Grounded registry P tables)
    (horigin : tables.committed X + 1 < 2 ^ 64 → ¬ Barred (tables.committed X) (t.claims X) →
      t.claims X = [] ∧ tables.OnRecord registry X e) :
    Grounded registry P { t with known := t.known.put X e } tables := by
  refine h.of_update (X := X) (e := e) ?_ (fun hroom hbarred ↦ ?_) fun Y hY ↦ ⟨?_, rfl⟩
  · rw [get?, Catalog.get?_put, if_pos rfl]
  · obtain ⟨hnone, hrecord⟩ := horigin hroom hbarred
    have hpending : t.pendingOf X = [] := claims_eq_nil_iff.1 hnone
    refine ⟨e, hrecord, ?_⟩
    show Leads P e (t.pendingOf X) e
    rw [hpending]
    exact .nil e
  · rw [get?, Catalog.get?_put, if_neg hY]
    rfl

/-- A message is appended that is related to the known state. -/
theorem append (h : t.Grounded registry P tables) (hknown : t.get? X = some e) {delta : D}
    (hP : P e (draft X e (Entity.reduce e delta) delta)) (id : Identifier) :
    Grounded registry P (t.appended X e delta id) tables := by
  refine h.of_update (X := X) (e := Entity.reduce e delta) ?_ (fun hroom hbarred ↦ ?_) fun Y hY ↦
    ⟨?_, pendingOf_appended_of_ne hY t e delta id⟩
  · rw [get?_appended, if_pos rfl]
  · obtain ⟨start, hstart, hleads⟩ := h X e hknown hroom fun hbar ↦
      hbarred (hbar.mono le_rfl (by rw [claims_appended]; exact List.subset_append_left _ _))
    refine ⟨start, hstart, ?_⟩
    rw [pendingOf_appended_self]
    exact hleads.concat hP
  · rw [get?_appended, if_neg hY]

/-- Something is attached that leaves the message related to its state. -/
theorem attach (h : t.Grounded registry P tables) {attachment : Attachment}
    {pending : List (Message D)}
    (hP : ∀ e (m : Message D), P e m.toChange → P e (attachment.apply m).toChange)
    (hchange : changeLast X attachment.apply t.pending = some pending) :
    Grounded registry P { t with pending } tables := by
  have hsame : ∀ Y, List.Forall₂ (fun c c' ↦ c'.delta = c.delta ∧ ∀ e, P e c → P e c')
      (t.pendingOf Y) (pendingOf { t with pending } Y) :=
    attachment.forall₂_changesOf hP (forall₂_changeLast hchange)
  intro Y e he hroom hbarred
  rw [claims_attach hchange] at hbarred
  obtain ⟨start, hstart, hleads⟩ := h Y e he hroom hbarred
  exact ⟨start, hstart, hleads.of_forall₂ (hsame Y)⟩

/-- Once all that was pending is committed, what is known is on record: of entities that had
messages pending as the messages have left it, and of others as it was. -/
theorem clear (h : t.Grounded registry P tables) (hlegible : tables.Legible D registry)
    (hgrow : tables.messages <+: tables'.messages)
    (hrecord : ∀ X e, t.get? X = some e → t.claims X ≠ [] → tables'.OnRecord registry X e) :
    t.clear.Grounded registry P tables' := by
  intro X e he hroom _
  refine ⟨e, ?_, .nil e⟩
  by_cases hne : t.claims X = []
  · have hle := Tables.committed_mono hgrow X
    obtain ⟨start, hstart, hleads⟩ := h X e he (by omega) (hne ▸ not_barred_nil _)
    rw [claims_eq_nil_iff.1 hne] at hleads
    cases hleads
    exact hstart.mono hlegible hgrow
  · exact hrecord X e he hne

end Grounded

end Transaction

end Chronicle
