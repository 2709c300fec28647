import Chronicle.Proofs.Fallible
import Chronicle.Repository.Basic

/-!
# What reading and loading do

Reading a state leaves a session as it is, but for the mishaps that are still to come
(`reconstruct_cases`). So does loading, unless it makes a state known: one that was reached by
replaying committed deltas, from a known state that is behind or from where the replay of an unknown
entity starts (`tryLoad_cases`).
-/

namespace Chronicle.Repository

variable {R E D A : Type} [Snapshot E D] [Resolves R E] [Payload D] [Resolves R D]
variable (r : Repository E D A) (registry : R) (stores : Stores E)

/-! ### Reading -/

omit [Resolves R E] in
/-- A replay reads deltas and reduces by them. -/
theorem replay_cases (start : E) (upTo : Option Version) :
    ∃ mishaps, (r.replay registry stores start upTo).value.state = { r with mishaps } ∧
      ∀ e, (r.replay registry stores start upTo).value.result = .ok e →
        ∃ deltas, (stores.tables.deltas D registry
            (Query.deltas (Entity.entityId start) (Entity.version start) upTo)).outcome =
              .ok deltas ∧ Entity.replay start deltas = e := by
  rw [replay]
  split
  · exact ⟨_, rfl, fun e h ↦ nomatch h⟩
  · rw [Logged.bind_value, Attempt.run_value]
    split
    · exact ⟨r.mishaps, rfl, fun e h ↦ nomatch h⟩
    case h_2 deltas hdeltas =>
      refine ⟨r.mishaps, rfl, fun e h ↦ ⟨deltas, hdeltas, ?_⟩⟩
      exact Except.ok.inj h

/-- Reading a state leaves all but the mishaps. -/
theorem reconstruct_cases (cancelled : Bool) (entityId : Identifier) (upTo : Option Version) :
    ∃ mishaps,
      (r.reconstruct registry stores cancelled entityId upTo).value.state = { r with mishaps } := by
  rw [reconstruct]
  split
  · exact ⟨r.mishaps, rfl⟩
  · rw [Logged.bind_value, Attempt.run_value]
    split
    · exact ⟨r.mishaps, rfl⟩
    case h_2 start hstart =>
      obtain ⟨mishaps, hstate, -⟩ := r.replay_cases registry stores start upTo
      rw [Logged.bind_value]
      generalize (r.replay registry stores start upTo).value = out at hstate ⊢
      obtain ⟨result, r'⟩ := out
      refine ⟨mishaps, ?_⟩
      cases result with
      | error fault => exact hstate
      | ok e =>
        dsimp only
        split <;> exact hstate

omit [Payload D] [Resolves R D] in
/-- A replay starts from the constructed entity or from a snapshot. -/
theorem startingPoint_cases {entityId : Identifier} {upTo : Option Version} {start : E}
    (h : (r.startingPoint registry stores entityId upTo).outcome = .ok start) :
    start = Entity.construct entityId ∨
      ∃ session, r.shelf = some session ∧
        ((stores.shelf session.shelf).read E registry entityId).outcome = .ok (some start) := by
  rw [startingPoint] at h
  split at h
  · left
    simpa [eq_comm] using h
  case h_2 session hshelf =>
    rw [Attempt.outcome_bind, Except.bind_eq_ok_iff] at h
    obtain ⟨kept, hkept, hstart⟩ := h
    rw [Attempt.outcome_pure, Except.ok.injEq] at hstart
    cases hfilter : kept.filter fun e ↦ upTo.all (Entity.version e ≤ ·) with
    | none =>
      rw [hfilter] at hstart
      exact .inl hstart.symm
    | some e =>
      rw [hfilter] at hstart
      obtain rfl : e = start := hstart
      obtain rfl := (Option.filter_eq_some_iff.1 hfilter).1
      exact .inr ⟨session, hshelf, hkept⟩

/-! ### Loading -/

/-- What a load replays from: a known state that is behind, or where a replay of an unknown entity
starts. -/
inductive LoadsFrom (pointer : Pointer) (start : E) : Prop where
  | known (h : r.transaction.get? pointer.id = some start)
      (hunsatisfied : ¬ pointer.isSatisfiedBy (Entity.pointer start))
      (hbehind : ¬ pointer.version < Entity.version start)
  | unknown (h : r.transaction.get? pointer.id = none)
      (hstart : (r.startingPoint registry stores pointer.id (bound pointer)).outcome = .ok start)

/-- What a load makes known: a state reached by replaying committed deltas, which is the one that
was asked for and was committed. -/
structure Loads (pointer : Pointer) (e : E) : Prop where
  replayed : ∃ start deltas, r.LoadsFrom registry stores pointer start ∧
    (stores.tables.deltas D registry
      (Query.deltas (Entity.entityId start) (Entity.version start) (bound pointer))).outcome =
        .ok deltas ∧ Entity.replay start deltas = e
  positive : Entity.version e ≠ .zero
  satisfied : pointer.isSatisfiedBy (Entity.pointer e)

omit [Resolves R E] in
/-- A load from a state fails and leaves all but the mishaps, or makes known where the replay
arrives. -/
theorem loadFrom_cases (cancelled : Bool) (pointer : Pointer) (start : E) :
    ∃ mishaps,
      ((r.loadFrom registry stores cancelled pointer start).value.state = { r with mishaps } ∧
        (r.loadFrom registry stores cancelled pointer start).value.result ≠ .ok true) ∨
      ∃ deltas, (stores.tables.deltas D registry
          (Query.deltas (Entity.entityId start) (Entity.version start) (bound pointer))).outcome =
            .ok deltas ∧
        Entity.version (Entity.replay start deltas) ≠ .zero ∧
        pointer.isSatisfiedBy (Entity.pointer (Entity.replay start deltas)) ∧
        (r.loadFrom registry stores cancelled pointer start).value =
          ⟨.ok true, { r with mishaps }.know pointer.id (Entity.replay start deltas)⟩ := by
  rw [loadFrom]
  split
  · exact ⟨r.mishaps, .inl ⟨rfl, nofun⟩⟩
  · obtain ⟨mishaps, hstate, hresult⟩ := r.replay_cases registry stores start (bound pointer)
    rw [Logged.bind_value]
    generalize (r.replay registry stores start (bound pointer)).value = out at hstate hresult ⊢
    obtain ⟨result, r'⟩ := out
    obtain rfl : r' = { r with mishaps } := hstate
    refine ⟨mishaps, ?_⟩
    cases result with
    | error fault => exact .inl ⟨rfl, nofun⟩
    | ok e =>
      dsimp only
      split
      · exact .inl ⟨rfl, nofun⟩
      case isFalse hgood =>
        obtain ⟨deltas, hdeltas, rfl⟩ := hresult e rfl
        rw [Bool.or_eq_true, not_or, Version.isZero_iff, Bool.not_eq_true', Bool.not_eq_false]
          at hgood
        exact .inr ⟨deltas, hdeltas, hgood.1, hgood.2, rfl⟩

/-- A load leaves all but the mishaps, or answers *yes* and makes a state known that was loaded. -/
theorem tryLoad_cases (cancelled : Bool) (pointer : Pointer) :
    ∃ mishaps,
      (r.tryLoad registry stores cancelled pointer).value.state = { r with mishaps } ∨
      ∃ e, r.Loads registry stores pointer e ∧
        (r.tryLoad registry stores cancelled pointer).value =
          ⟨.ok true, { r with mishaps }.know pointer.id e⟩ := by
  have hload : ∀ start, r.LoadsFrom registry stores pointer start → ∃ mishaps,
      (r.loadFrom registry stores cancelled pointer start).value.state = { r with mishaps } ∨
      ∃ e, r.Loads registry stores pointer e ∧
        (r.loadFrom registry stores cancelled pointer start).value =
          ⟨.ok true, { r with mishaps }.know pointer.id e⟩ := fun start hstart ↦ by
    obtain ⟨mishaps, ⟨hsame, -⟩ | ⟨deltas, hdeltas, hpositive, hsatisfied, hloaded⟩⟩ :=
      r.loadFrom_cases registry stores cancelled pointer start
    · exact ⟨mishaps, .inl hsame⟩
    · exact ⟨mishaps, .inr ⟨_, ⟨⟨start, deltas, hstart, hdeltas, rfl⟩, hpositive, hsatisfied⟩,
        hloaded⟩⟩
  rw [tryLoad]
  split
  case h_1 known hknown =>
    split
    · exact ⟨r.mishaps, .inl rfl⟩
    case isFalse hunsatisfied =>
      split
      · exact ⟨r.mishaps, .inl rfl⟩
      case isFalse hbehind => exact hload known (.known hknown hunsatisfied hbehind)
  case h_2 hunknown =>
    split
    · exact ⟨r.mishaps, .inl rfl⟩
    · rw [Logged.bind_value, Attempt.run_value]
      split
      · exact ⟨r.mishaps, .inl rfl⟩
      case h_2 start hstart => exact hload start (.unknown hunknown hstart)

end Chronicle.Repository
