import Chronicle.Proofs.Sessions.Snapshots

/-!
# Loading what is known already

A session that knows an entity in an older state than it is asked for does not read the entity
anew: it replays the newer deltas of the log on what it knows (`reload_eq`). Whether that gives a
state which ever existed depends on whether anything of the entity is pending. If not, what the
session knows is on record, and the replay arrives at the committed state that was asked for. If so,
the deltas which the session has appended stay in the state, in the place of committed ones of the
same versions: what is then known, and remembered as the last state loaded, carries the version that
was asked for and is not the state of it.
-/

namespace Chronicle

variable {R E D A : Type} [Snapshot E D] [LawfulEntity E] [Resolves R E] [Payload D] [Resolves R D]

namespace Repository

variable {registry : R} {r : Repository E D A} {stores : Stores E}

omit [LawfulEntity E] in
/-- An older state is replayed further. -/
theorem tryLoad_of_behind (registry : R) (stores : Stores E) {pointer : Pointer} {known : E}
    (hknown : r.transaction.get? pointer.id = some known)
    (hbehind : Entity.version known < pointer.version) (cancelled : Bool) :
    r.tryLoad registry stores cancelled pointer =
        r.loadFrom registry stores cancelled pointer known ∧
      r.LoadsFrom registry stores pointer known := by
  rw [Version.lt_iff] at hbehind
  have hunsatisfied : ¬ pointer.isSatisfiedBy (Entity.pointer known) := by
    rw [Pointer.isSatisfiedBy_iff]
    rintro ⟨-, hzero | hsame⟩
    · rw [hzero, Version.toNat_zero] at hbehind
      omega
    · rw [hsame] at hbehind
      exact Nat.lt_irrefl _ hbehind
  have hnotNewer : ¬ pointer.version < Entity.version known := by
    rw [Version.lt_iff]
    omega
  rw [tryLoad, hknown]
  dsimp only
  rw [if_neg hunsatisfied, if_neg hnotNewer]
  exact ⟨rfl, .known hknown hunsatisfied hnotNewer⟩

/-- **What a reload makes known.** The known state, reduced by the committed deltas that it has no
version of yet, up to the version asked for. It is remembered as the last state loaded. -/
theorem reload_eq (hs : stores.Coherent registry) (hlegible : stores.tables.Legible D registry)
    (ht : r.transaction.Coheres stores.tables) {pointer : Pointer} {known : E}
    (hknown : r.transaction.get? pointer.id = some known)
    (hbehind : Entity.version known < pointer.version) {cancelled : Bool}
    (hresult : (r.tryLoad registry stores cancelled pointer).value.result = .ok true) :
    let loaded := (r.tryLoad registry stores cancelled pointer).value.state
    let reached := Entity.replay known
      (((stores.tables.history D registry pointer.id).take pointer.version.toNat).drop
        (Entity.version known).toNat)
    r.Loads registry stores pointer reached ∧ Entity.version reached = pointer.version ∧
      loaded.transaction.get? pointer.id = some reached ∧
      loaded.baselines.get? pointer.id = some reached := by
  intro loaded reached
  obtain ⟨heq, hfrom⟩ := tryLoad_of_behind registry stores hknown hbehind cancelled
  rw [heq] at hresult
  obtain ⟨mishaps, ⟨-, hfalse⟩ | ⟨deltas, hdeltas, hpositive, hsatisfied, hvalue⟩⟩ :=
    r.loadFrom_cases registry stores cancelled pointer known
  · exact absurd hresult hfalse
  have hself := ht.entityId pointer.id known hknown
  have hlast := pointer.version.toNat_lt
  rw [Version.lt_iff] at hbehind
  have hnonzero : pointer.version ≠ .zero := fun hzero ↦ by
    rw [hzero, Version.toNat_zero] at hbehind
    omega
  -- The deltas that were read are those of the history.
  have hsegment := Tables.outcome_deltas hlegible (hs.gapless pointer.id)
    (show (Entity.version known).toNat + 1 < 2 ^ 64 by omega) (some pointer.version)
  have hread := hdeltas
  rw [hself, bound, if_neg (mt Version.isZero_iff.1 hnonzero), hsegment] at hread
  obtain rfl := Except.ok.inj hread
  have hid : Entity.entityId reached = pointer.id := (Entity.entityId_replay known _).trans hself
  have hloaded : loaded = { r with mishaps }.know pointer.id reached :=
    (congrArg (·.value.state) heq).trans (congrArg (·.state) hvalue)
  refine ⟨⟨⟨known, _, hfrom, hdeltas, rfl⟩, hpositive, hsatisfied⟩, ?_, ?_, ?_⟩
  · exact ((Pointer.isSatisfiedBy_iff.1 hsatisfied).2.resolve_left hnonzero).symm
  · rw [hloaded]
    show (Catalog.put _ (Entity.entityId reached) reached).get? pointer.id = some reached
    rw [Catalog.get?_put, if_pos hid.symm]
  · rw [hloaded]
    show (Catalog.put _ pointer.id reached).get? pointer.id = some reached
    rw [Catalog.get?_put, if_pos rfl]

end Repository

/-! ### Reloading in a run -/

namespace System

variable [Packable A] {registry : R}

/-- **Reloading.** However sessions have interleaved, a session that knows an entity in an older
state and loads it at a version makes known, and remembers as the last state loaded, what it knew
reduced by the committed deltas from there up to that version. If nothing of the entity was pending,
that is the committed state of the version, and what any session reads for it. -/
theorem reload_exact {events : List (Event D A)} (h : Faithful E registry events)
    (hdeltas : Readable registry events)
    (hroom : (run (E := E) registry events).stores.tables.nextSequence < 2 ^ 64)
    {r : Repository E D A} (hr : r ∈ (run registry events).sessions) {pointer : Pointer} {known : E}
    (hknown : r.transaction.get? pointer.id = some known)
    (hbehind : Entity.version known < pointer.version) {cancelled : Bool}
    (hresult : (r.tryLoad registry (run registry events).stores cancelled pointer).value.result =
      .ok true) :
    let stores := (run (E := E) registry events).stores
    let loaded := (r.tryLoad registry stores cancelled pointer).value.state
    let reached := Entity.replay known
      (((stores.tables.history D registry pointer.id).take pointer.version.toNat).drop
        (Entity.version known).toNat)
    (loaded.transaction.get? pointer.id = some reached ∧
      loaded.baselines.get? pointer.id = some reached ∧
      Entity.version reached = pointer.version) ∧
    (r.transaction.pendingOf pointer.id = [] →
      reached = stores.tables.stateAt E registry pointer.id pointer.version.toNat ∧
      ∀ r' : Repository E D A, r'.mishaps.read = none →
        (r'.getAtVersion registry stores false pointer.id pointer.version).value.result =
          .ok reached) := by
  intro stores loaded reached
  have hcoherent := coherent_run (A := A) h
  have hgrounded := hdeltas.grounded (E := E) h
  have hs : stores.Coherent registry := hcoherent.stores
  have hg : stores.Grounded registry := hgrounded.stores
  have hlast : stores.tables.committed pointer.id + 1 < 2 ^ 64 :=
    committed_lt_of_nextSequence hroom pointer.id
  obtain ⟨hloads, hversion, hknows⟩ : r.Loads registry stores pointer reached ∧
      Entity.version reached = pointer.version ∧ _ :=
    Repository.reload_eq hs hg.legible (hcoherent.sessions r hr) hknown hbehind hresult
  refine ⟨⟨hknows.1, hknows.2, hversion⟩, fun hpending ↦ ?_⟩
  obtain ⟨n, hn, hreached⟩ : stores.tables.OnRecord registry pointer.id reached :=
    hloads.onRecord hs hg (hgrounded.sessions r hr) hlast (Transaction.claims_eq_nil_iff.2 hpending)
  -- The version that was reached says which of the states on record it is.
  obtain rfl : n = pointer.version.toNat := by
    rw [← hversion, ← hreached, Tables.toNat_version_stateAt hg.legible (hs.gapless pointer.id) hn]
  refine ⟨hreached.symm, fun r' hread ↦ ?_⟩
  have hanswer := Repository.reconstruct_eq hs hg hlast hread (some pointer.version)
  have hto : stores.tables.readTo pointer.id (some pointer.version) = pointer.version.toNat := rfl
  rw [Version.lt_iff] at hbehind
  rw [hto, Nat.min_eq_left hn, Tables.answer, if_neg (by omega), hreached] at hanswer
  exact hanswer

section CaughtUp

open Inventory

/-- After the contested run a third session loads entity 7 at its first version. -/
def caughtUp : List (Event Delta Signature) := contested ++ [
  .openSession {} none ⟨default, .user "c"⟩,
  .act 2 (.tryLoad ⟨.ofNat 7, ⟨1⟩⟩ false)]

theorem faithful_caughtUp : Faithful Item ({} : Registry) caughtUp :=
  faithful_of_inits readsBack_counted (by decide +kernel)

theorem readable_caughtUp : Readable ({} : Registry) caughtUp :=
  readable_of_forall (by decide +kernel)

/-- What comes of it when a session loads entity 7 at its second version. -/
def loadSecond (s : System Item Delta Signature) (r : Repository Item Delta Signature) :
    Outcome (Repository Item Delta Signature) Bool :=
  (r.tryLoad ({} : Registry) s.stores false ⟨.ofNat 7, ⟨2⟩⟩).value

/-- The third session, with nothing pending, catches up with the second version. -/
theorem reload_exact_caughtUp :
    let s := run (E := Item) ({} : Registry) caughtUp
    (Faithful Item ({} : Registry) caughtUp ∧ Readable ({} : Registry) caughtUp ∧
      s.stores.tables.nextSequence < 2 ^ 64) ∧
    ∃ r ∈ s.sessions, r.transaction.pendingOf (.ofNat 7) = [] ∧
      (∃ known, r.transaction.get? (.ofNat 7) = some known ∧ Entity.version known < ⟨2⟩) ∧
      (loadSecond s r).result = .ok true ∧
      (loadSecond s r).state.transaction.get? (.ofNat 7) =
        some (s.stores.tables.stateAt Item ({} : Registry) (.ofNat 7) 2) := by
  intro s
  have hroom : s.stores.tables.nextSequence < 2 ^ 64 := by decide +kernel
  obtain ⟨r, hr⟩ : ∃ r, s.sessions[2]? = some r := Option.isSome_iff_exists.1 (by decide +kernel)
  have hknown : s.sessions[2]?.map (·.transaction.get? (.ofNat 7)) = some (some counted) := by
    decide +kernel
  have hpending : s.sessions[2]?.map (·.transaction.pendingOf (.ofNat 7)) = some [] := by
    decide +kernel
  have hresult : s.sessions[2]?.map (loadSecond s · |>.result) = some (.ok true) := by
    decide +kernel
  rw [hr, Option.map_some, Option.some.injEq] at hknown hpending hresult
  have hbehind : Entity.version counted < (⟨2⟩ : Version) := by decide
  have hmem := List.mem_of_getElem? hr
  obtain ⟨hknows, hcommitted⟩ :=
    reload_exact faithful_caughtUp readable_caughtUp hroom hmem hknown hbehind hresult
  refine ⟨⟨faithful_caughtUp, readable_caughtUp, hroom⟩, r, hmem, hpending,
    ⟨counted, hknown, hbehind⟩, hresult, ?_⟩
  exact hknows.1.trans (congrArg some (hcommitted hpending).1)

/-- The second session of the contested run still has a message pending that follows no version. It
loads entity 7 at version two all the same, and then knows it without what was counted. -/
theorem reload_mixes_contested :
    let s := run (E := Item) ({} : Registry) contested
    (Faithful Item ({} : Registry) contested ∧ Readable ({} : Registry) contested) ∧
    ∃ r ∈ s.sessions,
      (∃ known, r.transaction.get? (.ofNat 7) = some known ∧ Entity.version known < ⟨2⟩) ∧
      (loadSecond s r).result = .ok true ∧
      ∃ loaded, (loadSecond s r).state.transaction.get? (.ofNat 7) = some loaded ∧
        (loadSecond s r).state.baselines.get? (.ofNat 7) = some loaded ∧
        loaded ≠ s.stores.tables.stateAt Item ({} : Registry) (.ofNat 7) 2 := by
  intro s
  obtain ⟨r, hr⟩ : ∃ r, s.sessions[1]? = some r := Option.isSome_iff_exists.1 (by decide +kernel)
  have hknown : s.sessions[1]?.map (·.transaction.get? (.ofNat 7)) =
      some (some ⟨.ofNat 7, ⟨1⟩, 0, none, [], []⟩) := by
    decide +kernel
  have hresult : s.sessions[1]?.map (loadSecond s · |>.result) = some (.ok true) := by
    decide +kernel
  have hget : s.sessions[1]?.map (loadSecond s · |>.state.transaction.get? (.ofNat 7)) =
      some (some ⟨.ofNat 7, ⟨2⟩, 0, none, [], []⟩) := by
    decide +kernel
  have hbaseline : s.sessions[1]?.map (loadSecond s · |>.state.baselines.get? (.ofNat 7)) =
      some (some ⟨.ofNat 7, ⟨2⟩, 0, none, [], []⟩) := by
    decide +kernel
  have hcommitted : s.stores.tables.stateAt Item ({} : Registry) (.ofNat 7) 2 =
      ⟨.ofNat 7, ⟨2⟩, 5, none, [], []⟩ := by
    decide +kernel
  rw [hr, Option.map_some, Option.some.injEq] at hknown hresult hget hbaseline
  refine ⟨⟨faithful_contested, readable_contested⟩, r, List.mem_of_getElem? hr,
    ⟨_, hknown, by decide⟩, hresult, _, hget, hbaseline, ?_⟩
  rw [hcommitted]
  decide

end CaughtUp

end System

end Chronicle
