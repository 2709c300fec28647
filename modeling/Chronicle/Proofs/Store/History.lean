import Chronicle.Proofs.Store.Packing
import Chronicle.Proofs.Store.Replay

/-!
# The history of an entity

What is committed of an entity is read as a list of deltas, its history. As long as every delta in
the table reads (`Legible`) the history is as long as the log, and grows as the log does: by the
deltas of the messages that are written, in order (`history_write`), of which nothing is ever taken
away. So the committed states of an entity are the replays of the beginnings of its history
(`stateAt`), and each of them stays what it is (`stateAt_of_grows`).

A replay does not have to begin at the constructed entity. Whichever committed state it starts from,
it arrives at the state of the last version that it reads, unless it starts beyond
(`replay_stateAt`); a snapshot that is one of these states (`Attained`) therefore serves as well.
-/

namespace Chronicle

/-- A payload reads back from the envelope it is put in. -/
def UnpacksBack {R T : Type} [Payload T] [Resolves R T] (registry : R) (payload : T) : Prop :=
  ∀ e, (Envelope.pack payload).outcome = .ok e → (e.unpack T registry).outcome = .ok payload

theorem unpacksBack_of_bind {R T : Type} [Payload T] [Resolves R T] {registry : R} {payload : T}
    (h : (Envelope.pack payload >>= fun e ↦ e.unpack T registry).outcome = .ok payload) :
    UnpacksBack registry payload := fun e he ↦ by
  rwa [Attempt.outcome_bind, he] at h

/-! ### The changes of one entity -/

section ChangesOf

variable {D : Type} (X : Identifier)

/-- The changes of one entity among those of several, in order. -/
def changesOf (cs : List (Change D)) : List (Change D) := cs.filter (·.entityId = X)

@[simp] theorem changesOf_nil : changesOf X ([] : List (Change D)) = [] := rfl

variable {X} in
theorem changesOf_cons_of_eq {c : Change D} (h : c.entityId = X) (cs : List (Change D)) :
    changesOf X (c :: cs) = c :: changesOf X cs :=
  List.filter_cons_of_pos (by simpa using h)

variable {X} in
theorem changesOf_cons_of_ne {c : Change D} (h : c.entityId ≠ X) (cs : List (Change D)) :
    changesOf X (c :: cs) = changesOf X cs :=
  List.filter_cons_of_neg (by simpa using h)

theorem changesOf_append (cs ds : List (Change D)) :
    changesOf X (cs ++ ds) = changesOf X cs ++ changesOf X ds :=
  List.filter_append cs ds

theorem claimsOf_eq (cs : List (Change D)) :
    claimsOf X cs = (changesOf X cs).map (·.expectedPrevious.toNat) := by
  rw [claimsOf, versionsOf, changesOf, List.filter_map, List.map_map]
  rfl

end ChangesOf

theorem Entity.replay_append {E D : Type} [Entity E D] (e : E) (ds ds' : List D) :
    replay e (ds ++ ds') = replay (replay e ds) ds' :=
  List.foldl_append

namespace Tables

variable {R E D A : Type} [Payload D] [Resolves R D] {registry : R} {t t' : Tables}
  {X : Identifier}

/-! ### Histories -/

/-- The committed deltas of an entity, in order, as far as they read. -/
def history (D : Type) [Payload D] [Resolves R D] (t : Tables) (registry : R) (X : Identifier) :
    List D :=
  (t.log X).filterMap fun record ↦ (record.data.unpack D registry).outcome.toOption

/-- Every committed delta reads. -/
def Legible (D : Type) [Payload D] [Resolves R D] (registry : R) (t : Tables) : Prop :=
  ∀ record ∈ t.messages, ∃ delta, (record.data.unpack D registry).outcome = .ok delta

theorem Legible.empty : Legible D registry .empty := nofun

/-- The history is what the log reads as. -/
theorem Legible.map_log (h : t.Legible D registry) (X : Identifier) :
    (t.log X).map (fun record ↦ (record.data.unpack D registry).outcome) =
      (t.history D registry X).map .ok := by
  suffices ∀ records : List (EntityRecord Envelope),
      (∀ record ∈ records, ∃ delta, (record.data.unpack D registry).outcome = .ok delta) →
      records.map (fun record ↦ (record.data.unpack D registry).outcome) =
        (records.filterMap fun record ↦
          (record.data.unpack D registry).outcome.toOption).map .ok from
    this (t.log X) fun record hrecord ↦ h record (List.mem_of_mem_filter hrecord)
  intro records
  induction records with
  | nil => exact fun _ ↦ rfl
  | cons record rest ih =>
    intro hreads
    obtain ⟨⟨delta, hdelta⟩, hrest⟩ := List.forall_mem_cons.1 hreads
    have hsome : (record.data.unpack D registry).outcome.toOption = some delta := by
      rw [hdelta]
      rfl
    rw [List.map_cons, ih hrest, List.filterMap_cons, hsome, hdelta, List.map_cons]

theorem Legible.length_history (h : t.Legible D registry) (X : Identifier) :
    (t.history D registry X).length = t.committed X := by
  have := congrArg List.length (h.map_log X)
  rw [List.length_map, List.length_map] at this
  exact this.symm

theorem log_grows (h : t.messages <+: t'.messages) (X : Identifier) : t.log X <+: t'.log X :=
  h.filter _

theorem history_grows (h : t.messages <+: t'.messages) (X : Identifier) :
    t.history D registry X <+: t'.history D registry X :=
  (log_grows h X).filterMap _

theorem committed_mono (h : t.messages <+: t'.messages) (X : Identifier) :
    t.committed X ≤ t'.committed X :=
  (log_grows h X).length_le

/-! ### Sources and histories -/

section Write

variable [Packable A] {s : Source D A} {packed : PackedSource}

/-- A source whose deltas read back leaves a legible table legible. -/
theorem Legible.write (h : t.Legible D registry) (hpack : s.pack.outcome = .ok packed)
    (hback : ∀ c ∈ s.changes, UnpacksBack registry c.delta) :
    (t.write packed).Legible D registry := fun record hrecord ↦ by
  obtain ⟨records, hmessages, hstored⟩ := t.exists_records_write hpack
  rw [hmessages, List.mem_append] at hrecord
  rcases hrecord with hold | hnew
  · exact h record hold
  · have hread := ((List.forall₂_and_left _ _).2 ⟨hback, hstored⟩).imp fun c record hc ↦
      hc.1 record.data hc.2.data
    obtain ⟨c, hc⟩ := List.exists_forall₂_iff.1 ⟨_, hread.flip⟩ record hnew
    exact ⟨c.delta, hc⟩

/-- It continues each history with the deltas of the messages of the entity, in order. -/
theorem history_write (hpack : s.pack.outcome = .ok packed)
    (hback : ∀ c ∈ s.changes, UnpacksBack registry c.delta) (X : Identifier) :
    (t.write packed).history D registry X =
      t.history D registry X ++ (changesOf X s.changes).map (·.delta) := by
  obtain ⟨records, hmessages, hstored⟩ := t.exists_records_write hpack
  rw [history, log, hmessages, List.filter_append, List.filterMap_append]
  refine congrArg (t.history D registry X ++ ·) ?_
  -- Records and changes are gone through in step, and only those of the entity count.
  clear hmessages
  generalize s.changes = cs at hstored hback
  induction hstored with
  | nil => rfl
  | @cons c record cs records hc _ ih =>
    obtain ⟨hfirst, hrest⟩ := List.forall_mem_cons.1 hback
    have hread : (record.data.unpack D registry).outcome.toOption = some c.delta := by
      rw [hfirst record.data hc.data]
      rfl
    by_cases hX : c.entityId = X
    · have hX' : record.entityId = X := hc.entityId.trans hX
      rw [List.filter_cons_of_pos (by simpa using hX'), List.filterMap_cons, hread, ih hrest,
        changesOf_cons_of_eq hX, List.map_cons]
    · have hX' : ¬ record.entityId = X := fun h ↦ hX (hc.entityId.symm.trans h)
      rw [List.filter_cons_of_neg (by simpa using hX'), ih hrest, changesOf_cons_of_ne hX]

end Write

/-! ### Committed states -/

section StateAt

variable [Entity E D]

/-- The state of an entity after some of its committed deltas. -/
def stateAt (E : Type) {D : Type} [Entity E D] [Payload D] [Resolves R D] (t : Tables)
    (registry : R) (X : Identifier) (n : Nat) : E :=
  Entity.replay (Entity.construct X) ((t.history D registry X).take n)

/-- A replay from a committed state arrives at the last one that it reads, unless it starts beyond.
-/
theorem replay_stateAt (t : Tables) (registry : R) (X : Identifier) (n upTo : Nat) :
    Entity.replay (t.stateAt E registry X n) (((t.history D registry X).take upTo).drop n) =
      t.stateAt E registry X (max n upTo) := by
  rw [stateAt, stateAt, ← Entity.replay_append]
  refine congrArg (Entity.replay _) ?_
  rcases Nat.le_total n upTo with hle | hle
  · rw [Nat.max_eq_right hle]
    have htake : (t.history D registry X).take n = ((t.history D registry X).take upTo).take n := by
      rw [List.take_take, Nat.min_eq_left hle]
    rw [htake, List.take_append_drop]
  · rw [Nat.max_eq_left hle, List.drop_of_length_le ((List.length_take_le _ _).trans hle),
      List.append_nil]

/-- There are no later states than those that are committed. -/
theorem stateAt_min (h : t.Legible D registry) (X : Identifier) (n : Nat) :
    t.stateAt E registry X (min n (t.committed X)) = t.stateAt E registry X n := by
  rw [stateAt, stateAt, ← h.length_history X]
  rcases Nat.le_total n (t.history D registry X).length with hle | hle
  · rw [Nat.min_eq_left hle]
  · rw [Nat.min_eq_right hle, List.take_length, List.take_of_length_le hle]

/-- What is committed later changes no state. -/
theorem stateAt_of_grows (h : t.Legible D registry) (hgrow : t.messages <+: t'.messages)
    {n : Nat} (hn : n ≤ t.committed X) :
    t'.stateAt E registry X n = t.stateAt E registry X n := by
  obtain ⟨rest, hrest⟩ : t.history D registry X <+: t'.history D registry X :=
    history_grows hgrow X
  rw [stateAt, stateAt, ← hrest, List.take_append_of_le_length]
  rwa [h.length_history X]

/-- The state that messages of the entity lead to, all of them written. -/
theorem stateAt_write [Packable A] (h : t.Legible D registry) {s : Source D A}
    {packed : PackedSource} (hpack : s.pack.outcome = .ok packed)
    (hback : ∀ c ∈ s.changes, UnpacksBack registry c.delta) (X : Identifier) :
    (t.write packed).stateAt E registry X ((t.write packed).committed X) =
      Entity.replay (t.stateAt E registry X (t.committed X))
        ((changesOf X s.changes).map (·.delta)) := by
  rw [stateAt, stateAt, ← (h.write hpack hback).length_history X, ← h.length_history X,
    List.take_length, List.take_length, history_write hpack hback X, Entity.replay_append]

variable [LawfulEntity E]

theorem entityId_stateAt (t : Tables) (registry : R) (X : Identifier) (n : Nat) :
    Entity.entityId (t.stateAt E registry X n) = X := by
  rw [stateAt, Entity.entityId_replay, LawfulEntity.entityId_construct]

/-- The version of a state is the number of deltas that led to it. -/
theorem toNat_version_stateAt (h : t.Legible D registry) (hg : t.Gapless X) {n : Nat}
    (hn : n ≤ t.committed X) : (Entity.version (t.stateAt E registry X n)).toNat = n := by
  have hlt := hg.committed_lt
  rw [stateAt, Entity.toNat_version_replay, LawfulEntity.version_construct, Version.toNat_zero,
    List.length_take, h.length_history X]
  omega

/-! ### Reading a history -/

/-- What the deltas of an entity read as is a segment of its history. -/
theorem outcome_deltas (h : t.Legible D registry) (hg : t.Gapless X) {after : Version}
    (hafter : after.toNat + 1 < 2 ^ 64) (upTo : Option Version) :
    (t.deltas D registry (Query.deltas X after upTo)).outcome =
      .ok (((t.history D registry X).take (t.readTo X upTo)).drop after.toNat) := by
  rw [Tables.deltas, Attempt.outcome_mapM, select_deltas hg registry hafter]
  refine Except.mapM_eq_ok_of_map ?_
  rw [List.map_drop, List.map_take, h.map_log, List.map_drop, List.map_take]

/-- Replayed from a committed state, the deltas that are read lead to a committed state. -/
theorem outcome_deltas_stateAt (h : t.Legible D registry) (hg : t.Gapless X)
    (hroom : t.committed X + 1 < 2 ^ 64) {n : Nat} (hn : n ≤ t.committed X)
    (upTo : Option Version) :
    ∃ deltas, (t.deltas D registry
        (Query.deltas X (Entity.version (t.stateAt E registry X n)) upTo)).outcome = .ok deltas ∧
      Entity.replay (t.stateAt E registry X n) deltas =
        t.stateAt E registry X (max n (min (t.readTo X upTo) (t.committed X))) := by
  have hversion := toNat_version_stateAt (E := E) h hg hn
  refine ⟨_, outcome_deltas h hg (by omega) upTo, ?_⟩
  rw [hversion, replay_stateAt, ← stateAt_min h X (max n (t.readTo X upTo))]
  congr 1
  omega

/-! ### Attained states -/

/-- A state is one that the committed deltas of an entity lead through, from the constructed entity
on. -/
def OnRecord (registry : R) (t : Tables) (X : Identifier) (e : E) : Prop :=
  ∃ n ≤ t.committed X, t.stateAt E registry X n = e

/-- A state is one of the committed states of its entity. -/
structure Attained (registry : R) (t : Tables) (e : E) : Prop where
  positive : 1 ≤ (Entity.version e).toNat
  covered : (Entity.version e).toNat ≤ t.committed (Entity.entityId e)
  eq : e = t.stateAt E registry (Entity.entityId e) (Entity.version e).toNat

omit [LawfulEntity E] in
theorem onRecord_construct (registry : R) (t : Tables) (X : Identifier) :
    t.OnRecord registry X (Entity.construct X : E) :=
  ⟨0, Nat.zero_le _, rfl⟩

omit [LawfulEntity E] in
theorem Attained.onRecord {e : E} (he : t.Attained registry e) :
    t.OnRecord registry (Entity.entityId e) e :=
  ⟨_, he.covered, he.eq.symm⟩

/-- Of the states on record only the constructed one is not committed. -/
theorem OnRecord.attained {e : E} (he : t.OnRecord registry X e) (h : t.Legible D registry)
    (hg : t.Gapless X) (hpositive : Entity.version e ≠ .zero) : t.Attained registry e := by
  obtain ⟨n, hn, rfl⟩ := he
  have hid := entityId_stateAt (E := E) t registry X n
  have hversion := toNat_version_stateAt (E := E) h hg hn
  refine ⟨Nat.pos_of_ne_zero (mt Version.eq_zero_iff.2 hpositive), ?_, ?_⟩
  · rwa [hid, hversion]
  · rw [hid, hversion]

omit [LawfulEntity E] in
/-- What is committed later takes no state back. -/
theorem OnRecord.mono {e : E} (he : t.OnRecord registry X e) (h : t.Legible D registry)
    (hgrow : t.messages <+: t'.messages) : t'.OnRecord registry X e := by
  obtain ⟨n, hn, rfl⟩ := he
  exact ⟨n, hn.trans (committed_mono hgrow X), stateAt_of_grows h hgrow hn⟩

omit [LawfulEntity E] in
theorem Attained.mono {e : E} (he : t.Attained registry e) (h : t.Legible D registry)
    (hgrow : t.messages <+: t'.messages) : t'.Attained registry e where
  positive := he.positive
  covered := he.covered.trans (committed_mono hgrow _)
  eq := he.eq.trans (stateAt_of_grows h hgrow he.covered).symm

end StateAt

end Tables

end Chronicle
