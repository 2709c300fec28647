import Chronicle.Log
import Mathlib.Data.List.Forall2

/-!
# Computations that may fail

How a computation in steps succeeds: each of its steps does. The main statements are
`Except.bind_eq_ok_iff`, for two steps, and `Except.mapM_eq_ok_iff`, for one step on every element
of a list. The events that are reported on the way are those of the steps, in order
(`Attempt.log_mapM`).
-/

namespace Chronicle

variable {ε α β : Type}

@[simp] theorem Except.ok_bind (a : α) (f : α → Except ε β) : (Except.ok a >>= f) = f a := rfl

@[simp] theorem Except.error_bind (e : ε) (f : α → Except ε β) :
    (Except.error e >>= f) = .error e := rfl

@[simp] theorem Except.map_ok (f : α → β) (a : α) :
    (f <$> (Except.ok a : Except ε α)) = .ok (f a) := rfl

@[simp] theorem Except.pure_eq_ok (a : α) : (pure a : Except ε α) = .ok a := rfl

@[simp] theorem Except.throw_eq_error (e : ε) : (throw e : Except ε α) = .error e := rfl

@[simp] theorem Except.exists_eq_ok_unit {x : Except ε Unit} :
    (∃ u, x = .ok u) ↔ x = .ok () :=
  ⟨fun ⟨(), h⟩ ↦ h, fun h ↦ ⟨(), h⟩⟩

/-- Two steps succeed when the first does and the second does on what the first gives. -/
theorem Except.bind_eq_ok_iff {x : Except ε α} {f : α → Except ε β} {b : β} :
    (x >>= f) = .ok b ↔ ∃ a, x = .ok a ∧ f a = .ok b := by
  cases x with
  | error e => simp
  | ok a => simp

/-- Two steps fail when the first does, or the second does on what the first gives. -/
theorem Except.bind_eq_error_iff {x : Except ε α} {f : α → Except ε β} {e : ε} :
    (x >>= f) = .error e ↔ x = .error e ∨ ∃ a, x = .ok a ∧ f a = .error e := by
  cases x with
  | error e' => simp
  | ok a => simp

/-- A step that may fail succeeds on a list when it does on every element. -/
theorem Except.mapM_eq_ok_iff {f : α → Except ε β} {xs : List α} {ys : List β} :
    xs.mapM f = .ok ys ↔ List.Forall₂ (fun x y ↦ f x = .ok y) xs ys := by
  induction xs generalizing ys with
  | nil => simp [List.forall₂_nil_left_iff, eq_comm]
  | cons x xs ih =>
    simp only [List.mapM_cons, Except.bind_eq_ok_iff, ih, Except.pure_eq_ok, Except.ok.injEq,
      List.forall₂_cons_left_iff]
    constructor
    · rintro ⟨y, hy, ys, hys, rfl⟩
      exact ⟨y, ys, hy, hys, rfl⟩
    · rintro ⟨y, ys, hy, hys, rfl⟩
      exact ⟨y, hy, ys, hys, rfl⟩

/-- A step that fails on a list fails on one of the elements. -/
theorem Except.exists_of_mapM_eq_error {f : α → Except ε β} {xs : List α} {e : ε}
    (h : xs.mapM f = .error e) : ∃ x ∈ xs, f x = .error e := by
  induction xs with
  | nil => cases h
  | cons x xs ih =>
    rw [List.mapM_cons, Except.bind_eq_error_iff] at h
    rcases h with hx | ⟨y, -, hrest⟩
    · exact ⟨x, List.mem_cons_self, hx⟩
    · rcases Except.bind_eq_error_iff.1 hrest with hxs | ⟨ys, -, hys⟩
      · obtain ⟨x', hmem, hx'⟩ := ih hxs
        exact ⟨x', List.mem_cons_of_mem _ hmem, hx'⟩
      · cases hys

/-- A step gives on every element of a list what is in another list. -/
theorem Except.mapM_eq_ok_of_map {ε α β : Type} {f : α → Except ε β} {xs : List α} {ys : List β}
    (h : xs.map f = ys.map .ok) : xs.mapM f = .ok ys := by
  rw [Except.mapM_eq_ok_iff, ← List.forall₂_map_right_iff (R := fun x y ↦ f x = y), ← h,
    List.forall₂_map_right_iff]
  exact List.forall₂_same.2 fun _ _ ↦ rfl

/-- Every element of a list is related to one of another list when each is related to something. -/
theorem List.exists_forall₂_iff {r : α → β → Prop} {xs : List α} :
    (∃ ys, List.Forall₂ r xs ys) ↔ ∀ x ∈ xs, ∃ y, r x y := by
  induction xs with
  | nil => simp
  | cons x xs ih =>
    simp only [List.forall₂_cons_left_iff, List.forall_mem_cons, ← ih]
    constructor
    · rintro ⟨_, y, ys, hy, hys, -⟩
      exact ⟨⟨y, hy⟩, ys, hys⟩
    · rintro ⟨⟨y, hy⟩, ys, hys⟩
      exact ⟨y :: ys, y, ys, hy, hys, rfl⟩

/-! ### Results that agree -/

/-- Two computations agree if they fail alike, or succeed with results that are related. -/
inductive Except.Agree (r : α → β → Prop) : Except ε α → Except ε β → Prop
  | error (e : ε) : Agree r (.error e) (.error e)
  | ok {a : α} {b : β} (h : r a b) : Agree r (.ok a) (.ok b)

namespace Except.Agree

variable {r : α → β → Prop} {x : Except ε α} {y : Except ε β}

/-- Computations that agree up to equality are equal. -/
theorem eq {x y : Except ε α} (h : Agree (· = ·) x y) : x = y := by
  rcases h with e | rfl <;> rfl

/-- Computations that agree can be continued by steps that agree on related results. -/
theorem bind {γ δ : Type} {r' : γ → δ → Prop} {f : α → Except ε γ} {g : β → Except ε δ}
    (h : Agree r x y) (hstep : ∀ a b, r a b → Agree r' (f a) (g b)) :
    Agree r' (x >>= f) (y >>= g) := by
  rcases h with e | hab
  · exact .error e
  · exact hstep _ _ hab

theorem map {γ δ : Type} {r' : γ → δ → Prop} {f : α → γ} {g : β → δ} (h : Agree r x y)
    (hstep : ∀ a b, r a b → r' (f a) (g b)) : Agree r' (f <$> x) (g <$> y) := by
  rcases h with e | hab
  · exact .error e
  · exact .ok (hstep _ _ hab)

/-- So steps on the elements of a list agree if each of them does. -/
theorem foldlM {γ : Type} {f : α → γ → Except ε α} {g : β → γ → Except ε β} {xs : List γ}
    (hstep : ∀ c ∈ xs, ∀ a b, r a b → Agree r (f a c) (g b c)) {a : α} {b : β} (hab : r a b) :
    Agree r (xs.foldlM f a) (xs.foldlM g b) := by
  induction xs generalizing a b with
  | nil => exact .ok hab
  | cons c xs ih =>
    obtain ⟨hfirst, hrest⟩ := List.forall_mem_cons.1 hstep
    rw [List.foldlM_cons, List.foldlM_cons]
    exact (hfirst a b hab).bind fun _ _ ↦ ih hrest

end Except.Agree

/-! ### Reported events -/

namespace Attempt

/-- The events of two steps, of which the second is only taken if the first succeeds. -/
theorem log_bind (x : Attempt α) (f : α → Attempt β) :
    (x >>= f).log = x.log ++ x.outcome.toOption.elim [] fun a ↦ (f a).log := by
  change x.run.log ++ (ExceptT.bindCont f x.run.value).log = _
  unfold outcome
  cases x.run.value <;> rfl

/-- A step that succeeds on every element of a list reports its events on each, in order. -/
theorem log_mapM {f : α → Attempt β} {xs : List α} {ys : List β}
    (h : List.Forall₂ (fun x y ↦ (f x).outcome = .ok y) xs ys) :
    (xs.mapM f).log = xs.flatMap fun x ↦ (f x).log := by
  induction h with
  | nil => rfl
  | @cons x y xs ys hx hxs ih =>
    have hrest : (xs.mapM f).outcome = .ok ys := by
      rw [outcome_mapM]
      exact Except.mapM_eq_ok_iff.2 hxs
    rw [List.mapM_cons, log_bind, hx, List.flatMap_cons]
    refine congrArg ((f x).log ++ ·) ?_
    show (xs.mapM f >>= fun ys ↦ pure (y :: ys)).log = _
    rw [log_bind, hrest, ih]
    exact List.append_nil _

end Attempt

end Chronicle
