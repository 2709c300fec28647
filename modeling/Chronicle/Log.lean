import Chronicle.Fault

/-!
# Logged computations

Operations report what happens to them as they go. A logged computation is a value with the events
that were reported on the way to it, in order, and an attempt is a logged computation that may
fail; the events before the failure are kept.
-/

namespace Chronicle

/-- How grave an event is. -/
inductive Level where
  | debug
  | warn
  | error
deriving DecidableEq

/-- What an event reports. -/
inductive Notice where
  /-- A resolver of types failed and was passed over. -/
  | resolverFailed (resolver : String)
  /-- No resolver of types knew the headers. -/
  | headersRefused
  /-- A payload could not be put in an envelope. -/
  | packingFailed (typeName : String)
  /-- A payload could not be read out of its envelope. -/
  | unpackingFailed
  /-- Bytes were not an envelope. -/
  | envelopeUnreadable
  /-- A stored snapshot was not replaced by this version. -/
  | snapshotKept (version : Version)
  /-- A store would not take a source. -/
  | sourceRejected
  /-- A source of this many messages was committed. -/
  | sourceCommitted (messages : Nat)
  /-- A snapshot was offered to its store, which may have kept another. -/
  | snapshotWritten (version : Version) (stored : Bool)
  /-- A snapshot could not be stored. -/
  | snapshotFailed
deriving DecidableEq

namespace Notice

/-- How grave it is. -/
def level : Notice → Level
  | .snapshotKept _ | .sourceCommitted _ | .snapshotWritten _ _ => .debug
  | .sourceRejected => .warn
  | _ => .error

/-- The message of an event. -/
def message : Notice → String
  | .resolverFailed _ => "type resolver failed"
  | .headersRefused => "no type resolver accepted the headers"
  | .packingFailed _ => "failed to deconstruct payload"
  | .unpackingFailed => "failed to reconstruct payload"
  | .envelopeUnreadable => "failed to deserialize envelope"
  | .snapshotKept _ => "stored snapshot is kept"
  | .sourceRejected => "source rejected"
  | .sourceCommitted _ => "source committed"
  | .snapshotWritten _ _ => "snapshot written"
  | .snapshotFailed => "failed to put snapshot"

end Notice

/-- A reported event, with the label of the session in whose store it happened, if it did. -/
structure Event where
  notice : Notice
  session : Option String := none
deriving DecidableEq

/-- A value with the events reported on the way to it. -/
structure Logged (α : Type) where
  value : α
  log : List Event

namespace Logged

variable {α β : Type}

instance : Monad Logged where
  pure a := ⟨a, []⟩
  bind x f := ⟨(f x.value).value, x.log ++ (f x.value).log⟩

@[simp] theorem pure_value (a : α) : (pure a : Logged α).value = a := rfl

@[simp] theorem pure_log (a : α) : (pure a : Logged α).log = [] := rfl

@[simp] theorem bind_value (x : Logged α) (f : α → Logged β) :
    (x >>= f).value = (f x.value).value := rfl

@[simp] theorem bind_log (x : Logged α) (f : α → Logged β) :
    (x >>= f).log = x.log ++ (f x.value).log := rfl

instance : LawfulMonad Logged :=
  LawfulMonad.mk' Logged (fun x ↦ by cases x; simp [Functor.map])
    (fun a f ↦ by simp [Bind.bind, Pure.pure]) (fun x f g ↦ by simp [Bind.bind])

/-- Reports an event. -/
def report (notice : Notice) : Logged Unit := ⟨(), [{ notice }]⟩

/-- The computation inside a session of a store: its events carry the label of the session. -/
def inSession (label : String) (x : Logged α) : Logged α :=
  ⟨x.value, x.log.map fun event ↦ { event with session := some label }⟩

@[simp] theorem inSession_value (label : String) (x : Logged α) :
    (x.inSession label).value = x.value := rfl

end Logged

/-- A logged computation that may fail. -/
abbrev Attempt := ExceptT Fault Logged

namespace Attempt

variable {α β : Type}

/-- Reports an event. -/
def report (notice : Notice) : Attempt Unit := ExceptT.lift (Logged.report notice)

/-- The outcome, without its events. -/
def outcome (x : Attempt α) : Except Fault α := x.run.value

/-- The events, without the outcome. -/
def log (x : Attempt α) : List Event := x.run.log

/-- The attempt inside a session of a store. -/
def inSession (label : String) (x : Attempt α) : Attempt α := ExceptT.mk (x.run.inSession label)

/-- An attempt that reports nothing. -/
def ofExcept (x : Except Fault α) : Attempt α := ExceptT.mk (pure x)

@[simp] theorem run_value (x : Attempt α) : x.run.value = x.outcome := rfl

@[simp] theorem outcome_pure (a : α) : (pure a : Attempt α).outcome = .ok a := rfl

@[simp] theorem outcome_throw (fault : Fault) :
    (throw fault : Attempt α).outcome = .error fault := rfl

@[simp] theorem outcome_report (notice : Notice) : (report notice).outcome = .ok () := rfl

@[simp] theorem outcome_inSession (label : String) (x : Attempt α) :
    (x.inSession label).outcome = x.outcome := rfl

@[simp] theorem outcome_ofExcept (x : Except Fault α) : (ofExcept x).outcome = x := rfl

/-- What comes after a failure is not run. -/
@[simp] theorem outcome_bind (x : Attempt α) (f : α → Attempt β) :
    (x >>= f).outcome = x.outcome >>= fun a ↦ (f a).outcome := by
  change (ExceptT.bindCont f x.run.value).value = _
  unfold outcome
  cases x.run.value <;> rfl

@[simp] theorem outcome_map (f : α → β) (x : Attempt α) :
    (f <$> x).outcome = f <$> x.outcome := by
  rw [map_eq_pure_bind, outcome_bind]
  cases x.outcome <;> rfl

theorem outcome_mapM {γ : Type} (f : γ → Attempt β) (xs : List γ) :
    (xs.mapM f).outcome = xs.mapM fun x ↦ (f x).outcome := by
  induction xs with
  | nil => rfl
  | cons x xs ih =>
    simp only [List.mapM_cons, outcome_bind, ih, outcome_pure]
    rfl

end Attempt

end Chronicle
