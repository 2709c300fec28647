import Chronicle.Proofs.Transaction

/-!
# How a session stands towards an entity

Between the commits of others, what a session knows of an entity is in one of two standings. Either
its pending messages follow each other from a version that is committed to the one it knows, or one
of them can never be accepted any more: another message has followed the same version, or it leads
past the last one. Commits of others only move a session from the first standing to the second, and
nothing that the session does leads back, because messages stay pending until they are accepted
(`Coheres`). So an accepted source has followed each log from its very end
(`Standing.of_accepted`).
-/

namespace Chronicle

/-! ### Standings -/

/-- How the version that a session knows of an entity and the versions that its pending messages
follow stand towards the number of committed versions. -/
inductive Standing (committed known : Nat) (claims : List Nat) : Prop where
  /-- The messages lead from a committed version to the one that is known. -/
  | following (base : Nat) (hbase : base ≤ committed)
      (hclaims : claims = List.range' base claims.length) (hknown : known = base + claims.length)
  /-- One of the messages cannot be accepted. -/
  | barred (claim : Nat) (hmem : claim ∈ claims) (hbar : claim < committed ∨ claim + 1 = 2 ^ 64)

namespace Standing

variable {committed known : Nat} {claims : List Nat}

/-- A committed version with nothing pending. -/
theorem of_le (h : known ≤ committed) : Standing committed known [] :=
  .following known h rfl rfl

/-- More may be committed meanwhile. -/
theorem mono (h : Standing committed known claims) {committed' : Nat}
    (hle : committed ≤ committed') :
    Standing committed' known claims := by
  cases h with
  | following base hbase hclaims hknown => exact .following base (by omega) hclaims hknown
  | barred claim hmem hbar => exact .barred claim hmem (by omega)

/-- A message is appended that follows the known version. -/
theorem append (h : Standing committed known claims) (hlt : known < 2 ^ 64) :
    Standing committed ((known + 1) % 2 ^ 64) (claims ++ [known]) := by
  cases h with
  | following base hbase hclaims hknown =>
    by_cases hlast : known + 1 = 2 ^ 64
    -- The message leads past the last version, and so will not be accepted.
    · exact .barred known (by simp) (.inr hlast)
    · refine .following base hbase ?_ ?_
      · rw [List.length_append, List.length_singleton, List.range'_1_concat, ← hclaims, ← hknown]
      · rw [List.length_append, List.length_singleton]
        omega
  | barred claim hmem hbar => exact .barred claim (List.mem_append_left _ hmem) hbar

/-- A newer committed version takes the place of the known one. What is pending is then behind. -/
theorem reload (h : Standing committed known claims) {version : Nat} (hnewer : known < version)
    (hle : version ≤ committed) : Standing committed version claims := by
  cases h with
  | following base hbase hclaims hknown =>
    cases claims with
    | nil => exact of_le hle
    | cons claim rest =>
      -- The first message follows a version that is older than the one loaded.
      rw [List.length_cons, List.range'_succ, List.cons.injEq] at hclaims
      rw [List.length_cons] at hknown
      exact .barred claim List.mem_cons_self (.inl (by omega))
  | barred claim hmem hbar => exact .barred claim hmem hbar

/-- Messages that are all accepted follow the log from its end. -/
theorem of_accepted (h : Standing committed known claims)
    (haccepted : ∀ claim ∈ claims, committed ≤ claim ∧ claim + 1 < 2 ^ 64) (hne : claims ≠ []) :
    claims = List.range' committed claims.length ∧ known = committed + claims.length := by
  cases h with
  | following base hbase hclaims hknown =>
    -- The first message follows `base`, which must not have been followed yet.
    have hmem : base ∈ claims := by
      rw [hclaims, List.mem_range'_1]
      have := List.length_pos_iff.2 hne
      omega
    obtain rfl : base = committed := by
      have := haccepted base hmem
      omega
    exact ⟨hclaims, hknown⟩
  | barred claim hmem hbar =>
    have := haccepted claim hmem
    omega

end Standing

/-! ### Transactions -/

namespace Transaction

variable {E D : Type} [Entity E D]

/-- What holds of the transaction of a session at any time: states are known under their own
identifiers, messages are pending of known entities only, and each known entity is in one of the
two standings. -/
structure Coheres (t : Transaction E D) (tables : Tables) : Prop where
  entityId : ∀ X e, t.get? X = some e → Entity.entityId e = X
  unknown : ∀ X, t.get? X = none → t.claims X = []
  standing : ∀ X e, t.get? X = some e →
    Standing (tables.committed X) (Entity.version e).toNat (t.claims X)

namespace Coheres

variable {t t' : Transaction E D} {tables tables' : Tables} {X : Identifier} {e : E}

theorem empty (tables : Tables) : Coheres ({} : Transaction E D) tables where
  entityId _ _ h := nomatch h
  unknown _ _ := rfl
  standing _ _ h := nomatch h

theorem mono (h : t.Coheres tables) (hle : ∀ X, tables.committed X ≤ tables'.committed X) :
    t.Coheres tables' where
  entityId := h.entityId
  unknown := h.unknown
  standing X e he := (h.standing X e he).mono (hle X)

/-- Only the known states and the followed versions matter. -/
theorem of_same (h : t.Coheres tables) (hknown : t'.known = t.known)
    (hclaims : ∀ X, t'.claims X = t.claims X) : t'.Coheres tables where
  entityId X e he := h.entityId X e (by rwa [get?, ← hknown])
  unknown X he := (hclaims X).trans (h.unknown X (by rwa [get?, ← hknown]))
  standing X e he := hclaims X ▸ h.standing X e (by rwa [get?, ← hknown])

/-- Something is attached to a pending message. -/
theorem attach (h : t.Coheres tables) {attachment : Attachment} {pending : List (Message D)}
    (hchange : changeLast X attachment.apply t.pending = some pending) :
    Coheres { t with pending } tables :=
  h.of_same rfl (claims_attach hchange)

/-- Only one entity is concerned, which is then known in a standing of its own. -/
theorem of_update (h : t.Coheres tables) (hget : t'.get? X = some e) (hid : Entity.entityId e = X)
    (hstanding : Standing (tables.committed X) (Entity.version e).toNat (t'.claims X))
    (hother : ∀ Y, Y ≠ X → t'.get? Y = t.get? Y ∧ t'.claims Y = t.claims Y) :
    t'.Coheres tables where
  entityId Y f hf := by
    by_cases hY : Y = X
    · obtain rfl : e = f := Option.some.inj (hget.symm.trans (hY ▸ hf))
      rw [hid, hY]
    · exact h.entityId Y f ((hother Y hY).1 ▸ hf)
  unknown Y hnone := by
    by_cases hY : Y = X
    · rw [hY, hget] at hnone
      cases hnone
    · rw [(hother Y hY).2]
      exact h.unknown Y ((hother Y hY).1 ▸ hnone)
  standing Y f hf := by
    by_cases hY : Y = X
    · subst hY
      obtain rfl : e = f := Option.some.inj (hget.symm.trans hf)
      exact hstanding
    · rw [(hother Y hY).2]
      exact h.standing Y f ((hother Y hY).1 ▸ hf)

/-- Another state of an entity becomes known. -/
theorem put (h : t.Coheres tables) (hid : Entity.entityId e = X)
    (hstanding : Standing (tables.committed X) (Entity.version e).toNat (t.claims X)) :
    Coheres { t with known := t.known.put X e } tables := by
  refine h.of_update ?_ hid hstanding fun Y hY ↦ ⟨?_, rfl⟩
  · rw [get?, Catalog.get?_put, if_pos rfl]
  · rw [get?, Catalog.get?_put, if_neg hY]
    rfl

/-- A state that is known for the first time and is committed or constructed. -/
theorem put_unknown (h : t.Coheres tables) (hnew : t.get? X = none) (hid : Entity.entityId e = X)
    (hle : (Entity.version e).toNat ≤ tables.committed X) :
    Coheres { t with known := t.known.put X e } tables :=
  h.put hid (h.unknown X hnew ▸ .of_le hle)

/-- A message is appended to an entity that is known. -/
theorem append [LawfulEntity E] (h : t.Coheres tables) (hknown : t.get? X = some e) (delta : D)
    (id : Identifier) : Coheres (t.appended X e delta id) tables := by
  have hid : Entity.entityId (Entity.reduce e delta) = X := by
    rw [LawfulEntity.entityId_reduce, h.entityId X e hknown]
  refine h.of_update ?_ hid ?_ fun Y hY ↦ ⟨?_, ?_⟩
  · rw [appended, get?, Catalog.get?_put, if_pos rfl]
  · rw [claims_appended, if_pos rfl, LawfulEntity.version_reduce, Version.toNat_next]
    exact (h.standing X e hknown).append (Entity.version e).toNat_lt
  · rw [appended, get?, Catalog.get?_put, if_neg hY]
    rfl
  · rw [claims_appended, if_neg (Ne.symm hY), List.append_nil]

/-- Messages that are accepted are of a known entity, and lead from the end of its log to the
version that is known. -/
theorem exists_of_accepted (h : t.Coheres tables)
    (haccepted : ∀ claim ∈ t.claims X, tables.committed X ≤ claim ∧ claim + 1 < 2 ^ 64)
    (hne : t.claims X ≠ []) :
    ∃ e, t.get? X = some e ∧
      t.claims X = List.range' (tables.committed X) (t.claims X).length ∧
      (Entity.version e).toNat = tables.committed X + (t.claims X).length := by
  cases hget : t.get? X with
  | none => exact absurd (h.unknown X hget) hne
  | some e => exact ⟨e, rfl, (h.standing X e hget).of_accepted haccepted hne⟩

end Coheres

end Transaction

end Chronicle
