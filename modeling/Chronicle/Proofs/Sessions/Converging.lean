import Chronicle.Proofs.Envelope.RoundTrip
import Chronicle.Proofs.Sessions.Shelves
import Chronicle.Proofs.Versions

/-!
# Snapshots in any order

Snapshots are put on a shelf whenever their sessions come to it. A snapshot takes the place of none
or of an older one, so what a shelf keeps in the end is, under each identifier, the newest of what
it kept at first and of what was put there since (`Shelf.Settled`), in whatever order that happened.
-/

namespace Chronicle

variable {R E D : Type}

/-- A snapshot that a session puts on a shelf, under an identifier. -/
structure Offer (E : Type) where
  options : SessionOptions
  id : Identifier
  snapshot : E

namespace Shelf

variable [Snapshot E D] [Resolves R E]

/-- Puts an offered snapshot on a shelf, less the report. -/
def offer (registry : R) (shelf : Shelf) (o : Offer E) : Except Fault (Bool × Shelf) :=
  (shelf.write registry o.options o.id o.snapshot).outcome

/-- Puts offered snapshots on a shelf, one after the other. -/
def offerAll (registry : R) (shelf : Shelf) (offers : List (Offer E)) : Except Fault Shelf :=
  offers.foldlM (fun shelf o ↦ (·.2) <$> shelf.offer registry o) shelf

/-- Whatever is on the shelf can be read. -/
def Legible (E : Type) {D : Type} [Snapshot E D] [Resolves R E] (registry : R) (shelf : Shelf) :
    Prop :=
  ∀ id, ∃ kept, (shelf.read E registry id).outcome = .ok kept

/-- The snapshot under an identifier, if there is one that can be read. -/
def kept? (E : Type) {D : Type} [Snapshot E D] [Resolves R E] (registry : R) (shelf : Shelf)
    (id : Identifier) : Option E :=
  (shelf.read E registry id).outcome.toOption.join

/-- The snapshots that can end up under an identifier: the one that is there at first, and those
that are put there. -/
def candidates (registry : R) (shelf : Shelf) (offers : List (Offer E)) (id : Identifier) :
    List E :=
  (shelf.kept? E registry id).toList ++ (offers.filter (·.id = id)).map (·.snapshot)

end Shelf

/-- The offer is of a session that may write, and the snapshot can be put on a shelf and read back.
-/
structure Offer.Sound [Snapshot E D] [Resolves R E] (registry : R) (o : Offer E) : Prop where
  writable : o.options.readOnly = false
  packs : ∃ text, (Envelope.packWire o.snapshot).outcome = .ok text
  readsBack : System.ReadsBack registry o.snapshot

namespace Shelf

variable [Snapshot E D] [Resolves R E] {registry : R} {shelf s s' : Shelf}

/-! ### What is kept -/

theorem kept?_congr {id : Identifier} (h : s'.get? id = s.get? id) :
    s'.kept? E registry id = s.kept? E registry id := by
  rw [kept?, kept?, read, read, h]

/-- Of a legible shelf, what is kept is what is read. -/
theorem Legible.outcome_read (h : shelf.Legible E registry) (id : Identifier) :
    (shelf.read E registry id).outcome = .ok (shelf.kept? E registry id) := by
  obtain ⟨kept, hkept⟩ := h id
  rw [kept?, hkept]
  rfl

theorem outcome_read_of_packed {o : Offer E} (ho : o.Sound registry) {text : String}
    (htext : (Envelope.packWire o.snapshot).outcome = .ok text) (hget : s.get? o.id = some text) :
    (s.read E registry o.id).outcome = .ok (some o.snapshot) :=
  read_eq_some_iff.2 ⟨text, hget, ho.readsBack text htext⟩

theorem kept?_of_packed {o : Offer E} (ho : o.Sound registry) {text : String}
    (htext : (Envelope.packWire o.snapshot).outcome = .ok text) (hget : s.get? o.id = some text) :
    s.kept? E registry o.id = some o.snapshot := by
  rw [kept?, outcome_read_of_packed ho htext hget]
  rfl

/-! ### One offer -/

/-- An offer is taken if it is newer than what is kept. -/
theorem exists_offer (hdefault : ∀ next kept : E,
      Snapshot.shouldReplace next kept = true ↔ Entity.version kept < Entity.version next)
    (hlegible : s.Legible E registry) {o : Offer E} (ho : o.Sound registry) :
    ∃ text, (Envelope.packWire o.snapshot).outcome = .ok text ∧
      (((∀ e ∈ s.kept? E registry o.id, Entity.version e < Entity.version o.snapshot) ∧
          s.offer registry o = .ok (true, s.put o.id text)) ∨
        ((∃ e ∈ s.kept? E registry o.id, Entity.version o.snapshot ≤ Entity.version e) ∧
          s.offer registry o = .ok (false, s))) := by
  obtain ⟨text, htext⟩ := ho.packs
  refine ⟨text, htext, ?_⟩
  rw [offer, write, Attempt.outcome_inSession]
  simp only [ho.writable, Bool.false_eq_true, if_false, Attempt.outcome_bind, htext, Except.ok_bind,
    hlegible.outcome_read]
  cases s.kept? E registry o.id with
  | none =>
    refine .inl ⟨?_, rfl⟩
    rintro _ ⟨⟩
  | some kept =>
    by_cases hnewer : Entity.version kept < Entity.version o.snapshot
    case pos =>
      refine .inl ⟨fun e he ↦ Option.some.inj he ▸ hnewer, ?_⟩
      dsimp only
      rw [if_pos ((hdefault _ _).2 hnewer)]
      rfl
    case neg =>
      refine .inr ⟨⟨kept, rfl, Nat.le_of_not_lt hnewer⟩, ?_⟩
      dsimp only
      rw [if_neg fun hreplace ↦ hnewer ((hdefault _ _).1 hreplace)]
      rfl

/-! ### All offers -/

/-- What is under an identifier after some offers: what was there at first, if none of them is
newer, or the text of an offer that is newer than that and not older than any other. -/
inductive Settled (registry : R) (shelf : Shelf) (offers : List (Offer E)) (s : Shelf)
    (id : Identifier) : Prop
  | stays (hget : s.get? id = shelf.get? id)
      (hnewest : ∀ o ∈ offers, o.id = id →
        ∃ e ∈ shelf.kept? E registry id, Entity.version o.snapshot ≤ Entity.version e)
  | becomes (o : Offer E) (ho : o ∈ offers) (hid : o.id = id)
      (hget : ∃ text, (Envelope.packWire o.snapshot).outcome = .ok text ∧ s.get? id = some text)
      (hnewer : ∀ e ∈ shelf.kept? E registry id, Entity.version e < Entity.version o.snapshot)
      (hnewest : ∀ other ∈ offers, other.id = id →
        Entity.version other.snapshot ≤ Entity.version o.snapshot)

section Settled

variable {offers : List (Offer E)} {o : Offer E} {id : Identifier}

theorem mem_candidates {e : E} : e ∈ candidates registry shelf offers id ↔
    e ∈ shelf.kept? E registry id ∨ ∃ o ∈ offers, o.id = id ∧ o.snapshot = e := by
  simp [candidates, and_assoc]

theorem settled_nil : Settled registry shelf ([] : List (Offer E)) shelf id := .stays rfl nofun

theorem Settled.of_mem_iff {order : List (Offer E)} (h : Settled registry shelf offers s id)
    (hmem : ∀ o, o ∈ order ↔ o ∈ offers) : Settled registry shelf order s id := by
  cases h with
  | stays hget hnewest => exact .stays hget fun o ho ↦ hnewest o ((hmem o).1 ho)
  | becomes o ho hid hget hnewer hnewest =>
    exact .becomes o ((hmem o).2 ho) hid hget hnewer fun other hother ↦
      hnewest other ((hmem other).1 hother)

/-- What is kept is one of the candidates. -/
theorem Settled.mem_candidates_of_kept (h : Settled registry shelf offers s id)
    (hsound : ∀ o ∈ offers, o.Sound registry) {kept : E} (hkept : kept ∈ s.kept? E registry id) :
    kept ∈ candidates registry shelf offers id := by
  cases h with
  | stays hget hnewest =>
    rw [kept?_congr hget] at hkept
    exact mem_candidates.2 (.inl hkept)
  | becomes o ho hid hget hnewer hnewest =>
    obtain ⟨text, htext, hget⟩ := hget
    subst hid
    rw [kept?_of_packed (hsound o ho) htext hget] at hkept
    exact mem_candidates.2 (.inr ⟨o, ho, rfl, Option.some.inj hkept⟩)

/-- None of the candidates is newer than what is kept. -/
theorem Settled.exists_kept (h : Settled registry shelf offers s id)
    (hsound : ∀ o ∈ offers, o.Sound registry) {e : E}
    (he : e ∈ candidates registry shelf offers id) :
    ∃ kept ∈ s.kept? E registry id, Entity.version e ≤ Entity.version kept := by
  cases h with
  | stays hget hnewest =>
    rw [kept?_congr hget]
    rcases mem_candidates.1 he with hkept | ⟨o, ho, hid, rfl⟩
    · exact ⟨e, hkept, Nat.le_refl _⟩
    · exact hnewest o ho hid
  | becomes o ho hid hget hnewer hnewest =>
    obtain ⟨text, htext, hget⟩ := hget
    subst hid
    refine ⟨o.snapshot, kept?_of_packed (hsound o ho) htext hget, ?_⟩
    rcases mem_candidates.1 he with hkept | ⟨other, hother, hid, rfl⟩
    · exact Nat.le_of_lt (hnewer e hkept)
    · exact hnewest other hother hid

theorem Settled.legible (hlegible : shelf.Legible E registry)
    (h : ∀ id, Settled registry shelf offers s id) (hsound : ∀ o ∈ offers, o.Sound registry) :
    s.Legible E registry := fun id ↦ by
  cases h id with
  | stays hget hnewest =>
    rw [read, hget, ← read]
    exact hlegible id
  | becomes o ho hid hget hnewer hnewest =>
    obtain ⟨text, htext, hget⟩ := hget
    subst hid
    exact ⟨_, outcome_read_of_packed (hsound o ho) htext hget⟩

/-! ### One more offer -/

/-- What is under other identifiers is not changed by an offer. -/
theorem Settled.concat_of_ne (h : Settled registry shelf offers s id) (hid : o.id ≠ id)
    (hget : s'.get? id = s.get? id) : Settled registry shelf (offers ++ [o]) s' id := by
  have hother {other : Offer E} (hmem : other ∈ offers ++ [o]) (heq : other.id = id) :
      other ∈ offers := by
    rcases List.mem_append.1 hmem with hmem | hmem
    · exact hmem
    · exact absurd (List.mem_singleton.1 hmem ▸ heq) hid
  cases h with
  | stays hfirst hnewest =>
    exact .stays (hget.trans hfirst) fun other hmem heq ↦ hnewest other (hother hmem heq) heq
  | becomes p hp hpid hpget hnewer hnewest =>
    exact .becomes p (List.mem_append_left _ hp) hpid (hget ▸ hpget) hnewer fun other hmem heq ↦
      hnewest other (hother hmem heq) heq

/-- An offer that is newer than what is kept becomes what is kept. -/
theorem Settled.concat_of_newer (h : Settled registry shelf offers s o.id)
    (hsound : ∀ o ∈ offers, o.Sound registry)
    (hnewer : ∀ e ∈ s.kept? E registry o.id, Entity.version e < Entity.version o.snapshot)
    {text : String} (htext : (Envelope.packWire o.snapshot).outcome = .ok text)
    (hget : s'.get? o.id = some text) : Settled registry shelf (offers ++ [o]) s' o.id := by
  have hcandidates {e : E} (he : e ∈ candidates registry shelf offers o.id) :
      Entity.version e < Entity.version o.snapshot := by
    obtain ⟨kept, hkept, hle⟩ := h.exists_kept hsound he
    exact Nat.lt_of_le_of_lt hle (hnewer kept hkept)
  refine .becomes o (List.mem_append_right _ (List.mem_singleton_self o)) rfl ⟨text, htext, hget⟩
    (fun e he ↦ hcandidates (mem_candidates.2 (.inl he))) fun other hother hid ↦ ?_
  rcases List.mem_append.1 hother with hother | hother
  · exact Nat.le_of_lt (hcandidates (mem_candidates.2 (.inr ⟨other, hother, hid, rfl⟩)))
  · rw [List.mem_singleton.1 hother]
    exact Nat.le_refl _

/-- An offer that is not newer than what is kept changes nothing. -/
theorem Settled.concat_of_kept (h : Settled registry shelf offers s o.id)
    (hsound : ∀ o ∈ offers, o.Sound registry)
    (hkept : ∃ e ∈ s.kept? E registry o.id, Entity.version o.snapshot ≤ Entity.version e) :
    Settled registry shelf (offers ++ [o]) s o.id := by
  obtain ⟨kept, hkept, hle⟩ := hkept
  cases h with
  | stays hget hnewest =>
    rw [kept?_congr hget] at hkept
    refine .stays hget fun other hother hid ↦ ?_
    rcases List.mem_append.1 hother with hother | hother
    · exact hnewest other hother hid
    · rw [List.mem_singleton.1 hother]
      exact ⟨kept, hkept, hle⟩
  | becomes p hp hpid hget hnewer hnewest =>
    refine .becomes p (List.mem_append_left _ hp) hpid hget hnewer fun other hother hid ↦ ?_
    rcases List.mem_append.1 hother with hother | hother
    · exact hnewest other hother hid
    · obtain ⟨text, htext, hget⟩ := hget
      rw [← hpid, kept?_of_packed (hsound p hp) htext (hpid ▸ hget)] at hkept
      rw [List.mem_singleton.1 hother, Option.some.inj hkept]
      exact hle

/-- What is under an identifier does not depend on the order of the offers. -/
theorem Settled.get?_eq (h : Settled registry shelf offers s id)
    (h' : Settled registry shelf offers s' id)
    (hagree : ∀ e ∈ candidates registry shelf offers id,
      ∀ e' ∈ candidates registry shelf offers id, Entity.version e = Entity.version e' → e = e') :
    s'.get? id = s.get? id := by
  cases h with
  | stays hget hnewest =>
    cases h' with
    | stays hget' _ => rw [hget, hget']
    | becomes o ho hid _ hnewer _ =>
      obtain ⟨kept, hkept, hle⟩ := hnewest o ho hid
      exact absurd (hnewer kept hkept) (Nat.not_lt_of_le hle)
  | becomes o ho hid hget hnewer hnewest =>
    cases h' with
    | stays _ hnewest' =>
      obtain ⟨kept, hkept, hle⟩ := hnewest' o ho hid
      exact absurd (hnewer kept hkept) (Nat.not_lt_of_le hle)
    | becomes o' ho' hid' hget' _ hnewest' =>
      have hversion : Entity.version o.snapshot = Entity.version o'.snapshot :=
        Version.toNat_inj.1 (Nat.le_antisymm (hnewest' o ho hid) (hnewest o' ho' hid'))
      have hsame := hagree _ (mem_candidates.2 (.inr ⟨o, ho, hid, rfl⟩)) _
        (mem_candidates.2 (.inr ⟨o', ho', hid', rfl⟩)) hversion
      obtain ⟨text, htext, hget⟩ := hget
      obtain ⟨text', htext', hget'⟩ := hget'
      rw [hsame, htext', Except.ok.injEq] at htext
      rw [hget, hget', htext]

end Settled

/-! ### Runs of offers -/

theorem offerAll_concat (registry : R) (shelf : Shelf) (offers : List (Offer E)) (o : Offer E) :
    offerAll registry shelf (offers ++ [o]) =
      (offerAll registry shelf offers >>= fun s ↦ (·.2) <$> s.offer registry o) := by
  rw [offerAll, List.foldlM_append]
  refine congrArg (_ >>= ·) (funext fun s ↦ ?_)
  rw [List.foldlM_cons]
  cases s.offer registry o <;> rfl

section Runs

variable (hdefault : ∀ next kept : E,
  Snapshot.shouldReplace next kept = true ↔ Entity.version kept < Entity.version next)

include hdefault

/-- All offers are answered, and what is kept then is settled by them. -/
theorem exists_offerAll (hlegible : shelf.Legible E registry) {offers : List (Offer E)}
    (hsound : ∀ o ∈ offers, o.Sound registry) :
    ∃ s, offerAll registry shelf offers = .ok s ∧
      ∀ id, Settled registry shelf offers s id := by
  induction offers using List.reverseRecOn with
  | nil => exact ⟨shelf, rfl, fun _ ↦ settled_nil⟩
  | append_singleton past o ih =>
    have hpast : ∀ o ∈ past, o.Sound registry := fun p hp ↦ hsound p (List.mem_append_left [o] hp)
    have ho : o.Sound registry := hsound o (List.mem_append_right past (List.mem_singleton_self o))
    obtain ⟨s, hrun, hsettled⟩ := ih hpast
    -- The last offer settles what is under its identifier; the others are as they were.
    obtain ⟨text, htext, ⟨hnewer, hoffer⟩ | ⟨hkept, hoffer⟩⟩ :=
      exists_offer hdefault (Settled.legible hlegible hsettled hpast) ho
    · refine ⟨s.put o.id text, by rw [offerAll_concat, hrun, Except.ok_bind, hoffer]; rfl,
        fun id ↦ ?_⟩
      by_cases hid : o.id = id
      · subst hid
        exact (hsettled o.id).concat_of_newer hpast hnewer htext
          (by rw [Catalog.get?_put, if_pos rfl])
      · exact (hsettled id).concat_of_ne hid (by rw [Catalog.get?_put, if_neg (Ne.symm hid)])
    · refine ⟨s, by rw [offerAll_concat, hrun, Except.ok_bind, hoffer]; rfl, fun id ↦ ?_⟩
      by_cases hid : o.id = id
      · subst hid
        exact (hsettled o.id).concat_of_kept hpast hkept
      · exact (hsettled id).concat_of_ne hid rfl

/-- An offer is taken just when it is newer than what is kept, if anything, and is what is read
then. Nothing else is changed. -/
theorem exists_offer_eq (hlegible : s.Legible E registry) {o : Offer E} (ho : o.Sound registry) :
    ∃ answer s', s.offer registry o = .ok (answer, s') ∧
      (∀ id, id ≠ o.id → s'.get? id = s.get? id) ∧
      (∀ id e, (s.read E registry id).outcome = .ok (some e) →
        ∃ e', (s'.read E registry id).outcome = .ok (some e') ∧
          Entity.version e ≤ Entity.version e') ∧
      (answer = true ↔ (s'.read E registry o.id).outcome = .ok (some o.snapshot) ∧
        ∀ e, (s.read E registry o.id).outcome = .ok (some e) →
          Entity.version e < Entity.version o.snapshot) ∧
      (answer = false → s' = s) := by
  have hread := hlegible.outcome_read o.id
  obtain ⟨text, htext, ⟨hnewer, hoffer⟩ | ⟨⟨kept, hkept, hle⟩, hoffer⟩⟩ :=
    exists_offer hdefault hlegible ho
  · have hget (id : Identifier) (hid : id ≠ o.id) : (s.put o.id text).get? id = s.get? id := by
      rw [Catalog.get?_put, if_neg hid]
    have hafter : (read E (s.put o.id text) registry o.id).outcome = .ok (some o.snapshot) :=
      outcome_read_of_packed ho htext (by rw [Catalog.get?_put, if_pos rfl])
    have hbefore (e : E) (he : (s.read E registry o.id).outcome = .ok (some e)) :
        Entity.version e < Entity.version o.snapshot :=
      hnewer e (Except.ok.inj (hread.symm.trans he))
    refine ⟨true, s.put o.id text, hoffer, hget, fun id e he ↦ ?_,
      ⟨fun _ ↦ ⟨hafter, hbefore⟩, fun _ ↦ rfl⟩, (Bool.noConfusion ·)⟩
    by_cases hid : id = o.id
    · subst hid
      exact ⟨o.snapshot, hafter, Nat.le_of_lt (hbefore e he)⟩
    · refine ⟨e, ?_, Nat.le_refl _⟩
      rw [read, hget id hid, ← read]
      exact he
  · refine ⟨false, s, hoffer, fun _ _ ↦ rfl, fun id e he ↦ ⟨e, he, Nat.le_refl _⟩,
      ⟨(Bool.noConfusion ·), fun hnewer ↦ ?_⟩, fun _ ↦ rfl⟩
    have hlt := hnewer.2 kept (hread.trans (congrArg Except.ok hkept))
    exact absurd hlt (Nat.not_lt_of_le hle)

omit hdefault in
/-- What is read in the end is the newest of the candidates, if there is any. -/
theorem Settled.outcome_read_iff {offers : List (Offer E)} {id : Identifier}
    (h : Settled registry shelf offers s id) (hlegible : s.Legible E registry)
    (hsound : ∀ o ∈ offers, o.Sound registry)
    (hagree : ∀ e ∈ candidates registry shelf offers id,
      ∀ e' ∈ candidates registry shelf offers id, Entity.version e = Entity.version e' → e = e') :
    ((s.read E registry id).outcome = .ok none ↔ candidates registry shelf offers id = []) ∧
      ∀ e, (s.read E registry id).outcome = .ok (some e) ↔
        e ∈ candidates registry shelf offers id ∧
          ∀ e' ∈ candidates registry shelf offers id, Entity.version e' ≤ Entity.version e := by
  rw [hlegible.outcome_read id]
  have hmem {kept : E} (hkept : s.kept? E registry id = some kept) :
      kept ∈ candidates registry shelf offers id := h.mem_candidates_of_kept hsound hkept
  refine ⟨⟨fun hnone ↦ List.eq_nil_iff_forall_not_mem.2 fun e he ↦ ?_, fun hnil ↦ ?_⟩,
    fun e ↦ ⟨fun hsome ↦ ?_, fun ⟨he, hnewest⟩ ↦ ?_⟩⟩
  · obtain ⟨kept, hkept, -⟩ := h.exists_kept hsound he
    rw [Except.ok.inj hnone] at hkept
    cases hkept
  · cases hkept : s.kept? E registry id with
    | none => rfl
    | some kept => exact absurd (hmem hkept) (hnil ▸ List.not_mem_nil)
  · have hkept := Except.ok.inj hsome
    refine ⟨hmem hkept, fun e' he' ↦ ?_⟩
    obtain ⟨kept, hkept', hle⟩ := h.exists_kept hsound he'
    exact Option.some.inj (hkept.symm.trans hkept') ▸ hle
  · obtain ⟨kept, hkept, hle⟩ := h.exists_kept hsound he
    have hsame : kept = e := hagree kept (hmem hkept) e he
      (Version.toNat_inj.1 (Nat.le_antisymm (hnewest kept (hmem hkept)) hle))
    rw [← hsame]
    exact congrArg Except.ok hkept

/-- **Convergence.** If a newer snapshot replaces an older one, whatever is on the shelf can be
read, and snapshots of one version for one identifier are the same, then snapshots may be put on a
shelf in any order: there is the same on it afterwards, which is under each identifier the newest of
what was there and of what was put there. On the way what is under an identifier is never replaced
by anything older, and each offer is taken just when it is newer than what it replaces, if anything,
and is what is read then; it changes nothing else. -/
theorem offers_converge (hlegible : shelf.Legible E registry) {offers order : List (Offer E)}
    (hperm : order.Perm offers) (hsound : ∀ o ∈ offers, o.Sound registry)
    (hagree : ∀ id, ∀ e ∈ candidates registry shelf offers id,
      ∀ e' ∈ candidates registry shelf offers id, Entity.version e = Entity.version e' → e = e') :
    (∃ s s', offerAll registry shelf offers = .ok s ∧ offerAll registry shelf order = .ok s' ∧
      (∀ id, s'.get? id = s.get? id) ∧
      ∀ id, ((s.read E registry id).outcome = .ok none ↔ candidates registry shelf offers id = []) ∧
        ∀ e, (s.read E registry id).outcome = .ok (some e) ↔
          e ∈ candidates registry shelf offers id ∧
            ∀ e' ∈ candidates registry shelf offers id, Entity.version e' ≤ Entity.version e) ∧
    ∀ before o behind, order = before ++ o :: behind → ∃ s answer s',
      offerAll registry shelf before = .ok s ∧ s.offer registry o = .ok (answer, s') ∧
      (∀ id, id ≠ o.id → s'.get? id = s.get? id) ∧
      (∀ id e, (s.read E registry id).outcome = .ok (some e) →
        ∃ e', (s'.read E registry id).outcome = .ok (some e') ∧
          Entity.version e ≤ Entity.version e') ∧
      (answer = true ↔ (s'.read E registry o.id).outcome = .ok (some o.snapshot) ∧
        ∀ e, (s.read E registry o.id).outcome = .ok (some e) →
          Entity.version e < Entity.version o.snapshot) ∧
      (answer = false → s' = s) := by
  have horder : ∀ o ∈ order, o.Sound registry := fun o ho ↦ hsound o (hperm.mem_iff.1 ho)
  refine ⟨?_, fun before o behind hsplit ↦ ?_⟩
  · obtain ⟨s, hrun, hsettled⟩ := exists_offerAll hdefault hlegible hsound
    obtain ⟨s', hrun', hsettled'⟩ := exists_offerAll hdefault hlegible horder
    have hsame (id : Identifier) : s'.get? id = s.get? id :=
      (hsettled id).get?_eq ((hsettled' id).of_mem_iff fun _ ↦ hperm.mem_iff.symm) (hagree id)
    exact ⟨s, s', hrun, hrun', hsame, fun id ↦ (hsettled id).outcome_read_iff
      (Settled.legible hlegible hsettled hsound) hsound (hagree id)⟩
  · subst hsplit
    have hbefore : ∀ p ∈ before, p.Sound registry := fun p hp ↦
      horder p (List.mem_append_left _ hp)
    have ho : o.Sound registry := horder o (List.mem_append_right _ List.mem_cons_self)
    obtain ⟨s, hrun, hsettled⟩ := exists_offerAll hdefault hlegible hbefore
    obtain ⟨answer, s', hoffer, hrest⟩ :=
      exists_offer_eq hdefault (Settled.legible hlegible hsettled hbefore) ho
    exact ⟨s, answer, s', hrun, hoffer, hrest⟩

end Runs

/-! ### Items -/

section Items

open Inventory

/-- Items are read back wherever the declared names are not overridden. -/
theorem sound_item {registry : Registry}
    (hchain : (chainOf registry Item).Declares (.ofTypeName "Item")) {o : Offer Item}
    (hwritable : o.options.readOnly = false) : o.Sound registry := by
  have hpack := Envelope.outcome_packWire_of_value (v := o.snapshot) rfl nofun
  refine ⟨hwritable, ⟨_, hpack⟩, fun text htext ↦ ?_⟩
  rw [hpack, Except.ok.injEq] at htext
  rw [← htext]
  exact Envelope.outcome_unpackWire_wire hchain rfl
    (o.snapshot.within_toJson.mono (by decide))

/-- A state of an item, as it is offered by a session. -/
def offerOf (id : Nat) (version count : UInt64) : Offer Item :=
  ⟨{}, .ofNat id, ⟨.ofNat id, ⟨version⟩, count, none, [], []⟩⟩

/-- The shelf that one state of an item was put on. -/
def stocked : Shelf :=
  Catalog.put .empty (.ofNat 7)
    (Envelope.mk (.ofTypeName "Item") (offerOf 7 1 5).snapshot.toJson).wire

/-- Two later states of the item, the older one twice, and a state of another. -/
def restocking : List (Offer Item) :=
  [offerOf 7 2 6, offerOf 8 4 1, offerOf 7 3 9, offerOf 7 2 6]

/-- They can be put on the shelf in reverse. -/
theorem offers_converge_restocking :
    Shelf.Legible Item ({} : Registry) stocked ∧
      (∀ o ∈ restocking, o.Sound ({} : Registry)) ∧
      ∃ s s', offerAll ({} : Registry) stocked restocking = .ok s ∧
        offerAll ({} : Registry) stocked restocking.reverse = .ok s' ∧
        ∀ id, s'.get? id = s.get? id := by
  have hchain : (chainOf ({} : Registry) Item).Declares (.ofTypeName "Item") :=
    ⟨[], [], rfl, nofun⟩
  have hsound : ∀ o ∈ restocking, o.Sound ({} : Registry) := by
    simp only [restocking, List.forall_mem_cons]
    exact ⟨sound_item hchain rfl, sound_item hchain rfl, sound_item hchain rfl,
      sound_item hchain rfl, nofun⟩
  have hread : (stocked.read Item ({} : Registry) (.ofNat 7)).outcome =
      .ok (some (offerOf 7 1 5).snapshot) :=
    outcome_read_of_packed (o := offerOf 7 1 5) (sound_item hchain rfl)
      (Envelope.outcome_packWire_of_value rfl nofun) rfl
  have hempty (id : Identifier) (hid : id ≠ .ofNat 7) :
      (stocked.read Item ({} : Registry) id).outcome = .ok none := by
    rw [read, stocked, Catalog.get?_put, if_neg hid]
    rfl
  have hlegible : Shelf.Legible Item ({} : Registry) stocked := fun id ↦ by
    by_cases hid : id = .ofNat 7
    · exact ⟨_, hid ▸ hread⟩
    · exact ⟨_, hempty id hid⟩
  have hcandidates (id : Identifier) (e : Item)
      (he : e ∈ candidates ({} : Registry) stocked restocking id) :
      e ∈ (offerOf 7 1 5).snapshot :: restocking.map (·.snapshot) := by
    rcases mem_candidates.1 he with hkept | ⟨o, ho, -, rfl⟩
    · by_cases hid : id = .ofNat 7
      · rw [kept?, hid, hread] at hkept
        exact Option.some.inj hkept ▸ List.mem_cons_self
      · rw [kept?, hempty id hid] at hkept
        cases hkept
    · exact List.mem_cons_of_mem _ (List.mem_map_of_mem ho)
  have hagree : ∀ e ∈ (offerOf 7 1 5).snapshot :: restocking.map (·.snapshot),
      ∀ e' ∈ (offerOf 7 1 5).snapshot :: restocking.map (·.snapshot),
        Entity.version e = Entity.version e' → e = e' := by decide
  obtain ⟨⟨s, s', hrun, hrun', hsame, -⟩, -⟩ := offers_converge (fun _ _ ↦ decide_eq_true_iff)
    hlegible restocking.reverse_perm hsound
    fun id e he e' he' ↦ hagree e (hcandidates id e he) e' (hcandidates id e' he')
  exact ⟨hlegible, hsound, s, s', hrun, hrun', hsame⟩

end Items

end Shelf

end Chronicle
