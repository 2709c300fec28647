import Chronicle.Proofs.Sessions.Committing
import Chronicle.Proofs.Sessions.Loading
import Chronicle.Proofs.Sessions.System

/-!
# What the actions of a session do

All that an action can do to the transaction of a session and to the stores, and under which
condition (`Effect`). That there is nothing else is `act_effect`: with it no proof about runs has to
look into an operation again.

Only sessions with a shelf take snapshots, and none is ever given another one than it was opened
with. A run that opens all of its sessions without a shelf therefore asks nothing of snapshots
(`faithful_of_unshelved`).
-/

namespace Chronicle

namespace Repository

variable {R E D A : Type} [Snapshot E D] [Resolves R E] [Payload D] [Resolves R D] [Packable A]
variable (r : Repository E D A) (registry : R) (stores : Stores E)

/-- What an action can do to the transaction of a session and to the stores. -/
inductive Effect : Action D A → Transaction E D → Stores E → Prop where
  /-- The same is known and pending, and at most the numbering is another. -/
  | kept (action : Action D A) (numbering : Numbering) :
      Effect action r.transaction { stores with numbering }
  | constructed {X : Identifier} (hnew : r.transaction.get? X = none) :
      Effect (.create X)
        { r.transaction with known := r.transaction.known.put X (Entity.construct X) } stores
  | loaded {pointer : Pointer} {cancelled : Bool} {e : E}
      (hloads : r.Loads registry stores pointer e) :
      Effect (.tryLoad pointer cancelled) (r.transaction.putKnown e) stores
  | appended {X : Identifier} {e : E} (hknown : r.transaction.get? X = some e) (delta : D)
      (id : Identifier) (numbering : Numbering) :
      Effect (.append X delta) (r.transaction.appended X e delta id) { stores with numbering }
  | attached {X : Identifier} {attachment : Transaction.Attachment} {pending : List (Message D)}
      (hchange : Transaction.changeLast X attachment.apply r.transaction.pending = some pending) :
      Effect (.attach X attachment) { r.transaction with pending } stores
  | committed {cancelled : Bool} {tables : Tables} {state : Repository E D A × Stores E}
      (hcommit : (stores.tables.commit r.options (r.offered stores)).outcome = .ok tables)
      (htakes : r.Takes stores tables state) :
      Effect (.commit cancelled) state.1.transaction state.2

theorem Effect.refl (action : Action D A) :
    r.Effect registry stores action r.transaction stores :=
  .kept action stores.numbering

theorem act_effect (action : Action D A) :
    r.Effect registry stores action (r.act registry stores action).1.transaction
      (r.act registry stores action).2 := by
  have hsame : ∀ {action : Action D A} {r' : Repository E D A},
      (∃ mishaps, r' = { r with mishaps }) →
        r.Effect registry stores action r'.transaction stores := by
    rintro action _ ⟨mishaps, rfl⟩
    exact .refl r registry stores action
  cases action with
  | create X =>
    rw [act, create]
    cases hload : r.transaction.load X (Entity.construct X) with
    | error fault => exact .refl r registry stores _
    | ok t =>
      obtain ⟨hnew, rfl⟩ := Transaction.load_eq_ok_iff.1 hload
      exact .constructed hnew
  | tryLoad pointer cancelled =>
    obtain ⟨mishaps, hstate | ⟨e, hloads, hvalue⟩⟩ :=
      r.tryLoad_cases registry stores cancelled pointer
    · exact hsame ⟨mishaps, hstate⟩
    · rw [act, hvalue]
      exact .loaded hloads
  | append X delta =>
    simp only [act, append]
    cases happend : r.transaction.append X delta stores.numbering.nextMessage.1 with
    | error fault => exact .refl r registry stores _
    | ok t =>
      obtain ⟨e, hknown, rfl⟩ := Transaction.append_eq_ok_iff.1 happend
      exact .appended hknown delta _ _
  | attach X attachment =>
    rw [act, attach]
    cases hattach : r.transaction.attach X attachment.apply with
    | error fault => exact .refl r registry stores _
    | ok t =>
      obtain ⟨pending, hchange, rfl⟩ := Transaction.attach_eq_ok_iff.1 hattach
      exact .attached hchange
  | commit cancelled =>
    by_cases hpending : r.transaction.pending = []
    · rw [act, commit_of_pending_eq_nil hpending]
      exact .refl r registry stores _
    · obtain ⟨tables, -, hcommit, -, htakes⟩ | ⟨-, -, hkeeps⟩ :=
        r.commit_cases stores cancelled hpending
      · exact .committed hcommit htakes
      · obtain ⟨⟨mishaps, hsession⟩, numbering, hstores⟩ := hkeeps
        rw [act, hsession, hstores]
        exact .kept _ numbering
  | getCurrent X cancelled => exact hsame (r.reconstruct_cases registry stores cancelled X none)
  | getAtVersion X version cancelled =>
    exact hsame (r.reconstruct_cases registry stores cancelled X (some version))
  | forgetWrites => exact .refl r registry stores _
  | control agent mishaps => exact .refl r registry stores _

/-! ### Sessions without a shelf -/

/-- No action gives a session another shelf. -/
theorem shelf_act (action : Action D A) : (r.act registry stores action).1.shelf = r.shelf := by
  have hsame : ∀ {r' : Repository E D A}, (∃ mishaps, r' = { r with mishaps }) →
      r'.shelf = r.shelf := by
    rintro _ ⟨mishaps, rfl⟩
    rfl
  cases action with
  | create X =>
    rw [act, create]
    cases r.transaction.load X (Entity.construct X) with
    | error fault => rfl
    | ok t => rfl
  | tryLoad pointer cancelled =>
    obtain ⟨mishaps, hstate | ⟨e, -, hvalue⟩⟩ := r.tryLoad_cases registry stores cancelled pointer
    · exact hsame ⟨mishaps, hstate⟩
    · rw [act, hvalue]
      rfl
  | append X delta =>
    simp only [act, append]
    cases r.transaction.append X delta stores.numbering.nextMessage.1 with
    | error fault => rfl
    | ok t => rfl
  | attach X attachment =>
    rw [act, attach]
    cases r.transaction.attach X attachment.apply with
    | error fault => rfl
    | ok t => rfl
  | commit cancelled =>
    by_cases hpending : r.transaction.pending = []
    · rw [act, commit_of_pending_eq_nil hpending]
      rfl
    · obtain ⟨tables, -, -, -, htakes⟩ | ⟨-, -, hkeeps⟩ := r.commit_cases stores cancelled hpending
      · exact htakes.shelf
      · exact hsame hkeeps.session
  | getCurrent X cancelled => exact hsame (r.reconstruct_cases registry stores cancelled X none)
  | getAtVersion X version cancelled =>
    exact hsame (r.reconstruct_cases registry stores cancelled X (some version))
  | forgetWrites => rfl
  | control agent mishaps => rfl

variable {r registry stores} in
/-- The snapshots that an action leaves waiting are for the shelf of the session. -/
theorem Effect.queue_cases {action : Action D A} {t : Transaction E D} {stores' : Stores E}
    (h : r.Effect registry stores action t stores') :
    ∃ queued, stores'.queue = stores.queue ++ queued ∧ ∀ w ∈ queued, r.shelf = some w.target := by
  have hnone : stores.queue = stores.queue ++ [] := (List.append_nil _).symm
  cases h with
  | kept _ _ | constructed _ | loaded _ | appended _ _ _ _ | attached _ => exact ⟨[], hnone, nofun⟩
  | committed _ htakes =>
    obtain ⟨queued, hqueue, hqueued⟩ := htakes.queue
    exact ⟨queued, hqueue, fun w hw ↦ (hqueued w hw).1⟩

end Repository

namespace System

variable {R E D A : Type} [Snapshot E D] [Resolves R E] [Payload D] [Resolves R D] [Packable A]

/-- No session has a shelf, and no snapshot is waiting. -/
structure Unshelved (s : System E D A) : Prop where
  sessions : ∀ r ∈ s.sessions, r.shelf = none
  queue : s.stores.queue = []

/-- That stays so unless a session is opened with a shelf. -/
theorem Unshelved.step {s : System E D A} (h : s.Unshelved) (registry : R) {event : Event D A}
    (hevent : ∀ options shelf agent, event = .openSession options shelf agent → shelf = none) :
    (s.step registry event).Unshelved := by
  cases event with
  | openShelf => exact ⟨h.sessions, h.queue⟩
  | openSession options shelf agent =>
    refine ⟨fun r hr ↦ ?_, h.queue⟩
    rcases List.mem_append.1 hr with hr | hr
    · exact h.sessions r hr
    · rw [List.mem_singleton.1 hr]
      exact hevent options shelf agent rfl
  | act session action =>
    rw [System.step]
    cases hsession : s.sessions[session]? with
    | none => exact h
    | some r =>
      have hshelf := h.sessions r (List.mem_of_getElem? hsession)
      refine ⟨fun r' hr' ↦ ?_, ?_⟩
      · rcases List.mem_or_eq_of_mem_set hr' with hr' | rfl
        · exact h.sessions r' hr'
        · exact (r.shelf_act registry s.stores action).trans hshelf
      · obtain ⟨queued, hqueue, hqueued⟩ := (r.act_effect registry s.stores action).queue_cases
        rw [h.queue, List.nil_append] at hqueue
        refine List.eq_nil_iff_forall_not_mem.2 fun w hw ↦ ?_
        exact absurd (hshelf.symm.trans (hqueued w (hqueue ▸ hw))) nofun
  | writeSnapshot place =>
    rw [System.step, h.queue, List.getElem?_nil]
    exact h
  | deleteSnapshots target ids =>
    rw [System.step]
    cases (s.stores.shelf target.shelf).remove target.options ids with
    | error fault => exact h
    | ok shelf => exact ⟨h.sessions, h.queue⟩
  | renumber numbering => exact ⟨h.sessions, h.queue⟩

/-- A run of sessions without shelves asks nothing of snapshots: there are none. -/
theorem faithful_of_unshelved (registry : R) {events : List (Event D A)}
    (h : ∀ options shelf agent, .openSession options shelf agent ∈ events → shelf = none) :
    Faithful E registry events := by
  suffices ∀ past, past <+: events → (run (E := E) registry past).Unshelved by
    intro past hpast w hw
    rw [(this past hpast).queue] at hw
    cases hw
  intro past hpast
  induction past using List.reverseRecOn with
  | nil => exact ⟨fun _ hr ↦ absurd hr List.not_mem_nil, rfl⟩
  | append_singleton past event ih =>
    have hunshelved := ih ((List.prefix_append past [event]).trans hpast)
    rw [run_concat]
    refine Unshelved.step hunshelved registry fun options shelf agent heq ↦ ?_
    have hmem := hpast.subset (List.mem_append_right past (List.mem_singleton_self event))
    exact h options shelf agent (heq ▸ hmem)

end System

end Chronicle
