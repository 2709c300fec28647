import Chronicle.Proofs.Fallible
import Chronicle.Proofs.Sessions.System

/-!
# What is found on a shelf

What is on the shelves of a system is what was written to them. What holds of the texts of all
snapshots that wait to be written, each under the identifier of its entity, therefore holds of the
texts on the shelves (`Stores.Each`), also when snapshots are taken off them. A property of all
snapshots that wait becomes one of all that can be read (`Stores.Shelved`), provided that they read
back.
-/

namespace Chronicle

variable {R E D : Type}

/-! ### One shelf -/

namespace Shelf

/-- All texts on a shelf, each under its identifier, have a property. -/
def Each (q : Identifier → String → Prop) (shelf : Shelf) : Prop :=
  ∀ X text, shelf.get? X = some text → q X text

section Each

variable {q q' : Identifier → String → Prop} {shelf shelf' : Shelf}

theorem Each.mono (h : shelf.Each q) (hq : ∀ X text, q X text → q' X text) : shelf.Each q' :=
  fun X text htext ↦ hq X text (h X text htext)

theorem Each.empty : Shelf.Each q .empty := nofun

theorem Each.put (h : shelf.Each q) {X : Identifier} {text : String} (htext : q X text) :
    Shelf.Each q (shelf.put X text) := fun Y other hother ↦ by
  rw [Catalog.get?_put] at hother
  by_cases hY : Y = X
  · rw [if_pos hY, Option.some.injEq] at hother
    rwa [hY, ← hother]
  · rw [if_neg hY] at hother
    exact h Y other hother

theorem get?_foldl_erase {ids : List Identifier} {X : Identifier} {text : String}
    (h : (ids.foldl Catalog.erase shelf).get? X = some text) : shelf.get? X = some text := by
  induction ids generalizing shelf with
  | nil => exact h
  | cons id rest ih =>
    have := ih h
    rw [Catalog.get?_erase] at this
    split at this
    · cases this
    · exact this

/-- Snapshots that are taken off a shelf leave the others. -/
theorem Each.remove (h : shelf.Each q) {options : SessionOptions} {ids : List Identifier}
    (hremove : shelf.remove options ids = .ok shelf') : shelf'.Each q := by
  rw [Shelf.remove] at hremove
  split at hremove
  · cases hremove
  · cases hremove
    exact fun X text htext ↦ h X text (get?_foldl_erase htext)

end Each

variable [Snapshot E D] [Resolves R E]

/-- Every snapshot that can be read off a shelf is one of the entity it is read for, and has a
property. -/
def All (registry : R) (p : E → Prop) (shelf : Shelf) : Prop :=
  ∀ X e, (shelf.read E registry X).outcome = .ok (some e) → Entity.entityId e = X ∧ p e

variable {registry : R} {p : E → Prop} {shelf shelf' : Shelf}

theorem read_eq_some_iff {X : Identifier} {e : E} :
    (shelf.read E registry X).outcome = .ok (some e) ↔ ∃ text, shelf.get? X = some text ∧
      (Envelope.unpackWire E registry (Wire.ofString text)).outcome = .ok e := by
  rw [read]
  cases shelf.get? X with
  | none => simp
  | some text =>
    simp only [Attempt.outcome_bind, Option.some.injEq, exists_eq_left']
    cases (Envelope.unpackWire E registry (Wire.ofString text)).outcome <;> simp

/-- What is under an identifier decides what is read under it. -/
theorem all_iff_each : shelf.All registry p ↔ shelf.Each fun X text ↦ ∀ e,
    (Envelope.unpackWire E registry (Wire.ofString text)).outcome = .ok e →
      Entity.entityId e = X ∧ p e :=
  ⟨fun h X text htext e he ↦ h X e (read_eq_some_iff.2 ⟨text, htext, he⟩), fun h X e he ↦ by
    obtain ⟨text, htext, he⟩ := read_eq_some_iff.1 he
    exact h X text htext e he⟩

/-- A snapshot is put on a shelf, or the shelf stays as it is. -/
theorem write_cases {options : SessionOptions} {X : Identifier} {e : E} {stored : Bool}
    (h : (shelf.write registry options X e).outcome = .ok (stored, shelf')) :
    shelf' = shelf ∨
      ∃ text, (Envelope.packWire e).outcome = .ok text ∧ shelf' = shelf.put X text := by
  rw [write] at h
  rw [Attempt.outcome_inSession] at h
  cases hreadOnly : options.readOnly with
  | true => simp [hreadOnly] at h
  | false =>
    simp only [hreadOnly, Bool.false_eq_true, if_false, Attempt.outcome_bind,
      Except.bind_eq_ok_iff] at h
    obtain ⟨text, hpack, kept, -, hwrite⟩ := h
    cases kept with
    | none =>
      cases hwrite
      exact .inr ⟨text, hpack, rfl⟩
    | some kept =>
      dsimp only at hwrite
      split at hwrite
      · cases hwrite
        exact .inr ⟨text, hpack, rfl⟩
      · cases hwrite
        exact .inl rfl

end Shelf

/-! ### All shelves -/

namespace Stores

/-- All texts on any of the shelves, each under its identifier, have a property. -/
def Each (q : Identifier → String → Prop) (s : Stores E) : Prop := ∀ n, (s.shelf n).Each q

section Each

variable {q q' : Identifier → String → Prop} {s s' : Stores E}

theorem Each.of_shelves (h : s.Each q) (hshelves : s'.shelves = s.shelves) : s'.Each q :=
  fun n ↦ by
  rw [shelf, hshelves]
  exact h n

theorem Each.mono (h : s.Each q) (hq : ∀ X text, q X text → q' X text) : s.Each q' :=
  fun n ↦ (h n).mono hq

theorem Each.empty : Each q ({} : Stores E) := fun n ↦ by
  rw [shelf, List.getD_nil]
  exact .empty

theorem Each.openShelf (h : s.Each q) : s.openShelf.2.Each q := fun n ↦ by
  have hshelf : s.openShelf.2.shelf n = s.shelf n := by
    simp only [Stores.openShelf, shelf, List.getD_eq_getElem?_getD, List.getElem?_append]
    split
    · rfl
    · grind
  rw [hshelf]
  exact h n

theorem Each.setShelf (h : s.Each q) (n : Nat) {shelf : Shelf} (hshelf : shelf.Each q) :
    (s.setShelf n shelf).Each q := fun k ↦ by
  have hcases : (s.setShelf n shelf).shelf k = shelf ∨
      (s.setShelf n shelf).shelf k = s.shelf k := by
    simp only [Stores.setShelf, Stores.shelf, List.getD_eq_getElem?_getD, List.getElem?_set]
    grind
  rcases hcases with heq | heq
  · rw [heq]
    exact hshelf
  · rw [heq]
    exact h k

end Each

variable [Snapshot E D] [Resolves R E]

/-- Writing a snapshot replaces a shelf by one that it was written to, if anything. -/
theorem runWrite_cases (registry : R) (s : Stores E) (w : SnapshotWrite E) :
    (s.runWrite registry w).value = s ∨
      ∃ stored shelf, ((s.shelf w.target.shelf).write registry w.target.options
          (Entity.entityId w.snapshot) w.snapshot).outcome = .ok (stored, shelf) ∧
        (s.runWrite registry w).value = s.setShelf w.target.shelf shelf := by
  rw [runWrite]
  rw [Logged.bind_value, Attempt.run_value]
  cases hwrite : ((s.shelf w.target.shelf).write registry w.target.options
    (Entity.entityId w.snapshot) w.snapshot).outcome with
  | error fault => exact .inl rfl
  | ok written => exact .inr ⟨written.1, written.2, rfl, rfl⟩

theorem tables_runWrite (registry : R) (s : Stores E) (w : SnapshotWrite E) :
    (s.runWrite registry w).value.tables = s.tables := by
  obtain heq | ⟨stored, shelf, -, heq⟩ := s.runWrite_cases registry w
  · rw [heq]
  · rw [heq]
    rfl

theorem queue_runWrite (registry : R) (s : Stores E) (w : SnapshotWrite E) :
    (s.runWrite registry w).value.queue = s.queue := by
  obtain heq | ⟨stored, shelf, -, heq⟩ := s.runWrite_cases registry w
  · rw [heq]
  · rw [heq]
    rfl

/-- The text of a snapshot is written under the identifier of its entity. -/
theorem Each.runWrite {q : Identifier → String → Prop} {s : Stores E} (h : s.Each q) (registry : R)
    {w : SnapshotWrite E} (hw : ∀ text, (Envelope.packWire w.snapshot).outcome = .ok text →
      q (Entity.entityId w.snapshot) text) :
    (s.runWrite registry w).value.Each q := by
  obtain heq | ⟨stored, shelf, hwrite, heq⟩ := s.runWrite_cases registry w
  · rw [heq]
    exact h
  · rw [heq]
    refine h.setShelf _ ?_
    obtain rfl | ⟨text, hpack, rfl⟩ := Shelf.write_cases hwrite
    · exact h w.target.shelf
    · exact (h w.target.shelf).put (hw text hpack)

/-! ### Snapshots that can be read -/

/-- Every snapshot that can be read off any of the shelves has a property. -/
def Shelved (registry : R) (p : E → Prop) (s : Stores E) : Prop :=
  ∀ n, (s.shelf n).All registry p

variable {registry : R} {p q : E → Prop} {s s' : Stores E}

theorem shelved_iff_each : s.Shelved registry p ↔ s.Each fun X text ↦ ∀ e,
    (Envelope.unpackWire E registry (Wire.ofString text)).outcome = .ok e →
      Entity.entityId e = X ∧ p e :=
  forall_congr' fun _ ↦ Shelf.all_iff_each

theorem Shelved.of_shelves (h : s.Shelved registry p) (hshelves : s'.shelves = s.shelves) :
    s'.Shelved registry p :=
  shelved_iff_each.2 ((shelved_iff_each.1 h).of_shelves hshelves)

theorem Shelved.mono (h : s.Shelved registry p) (hpq : ∀ e, p e → q e) : s.Shelved registry q :=
  fun n X e he ↦ ⟨(h n X e he).1, hpq e (h n X e he).2⟩

theorem Shelved.empty : Shelved registry p ({} : Stores E) := shelved_iff_each.2 .empty

theorem Shelved.openShelf (h : s.Shelved registry p) : s.openShelf.2.Shelved registry p :=
  shelved_iff_each.2 (shelved_iff_each.1 h).openShelf

/-- Snapshots that are taken off a shelf leave the others. -/
theorem Shelved.remove (h : s.Shelved registry p) {n : Nat} {options : SessionOptions}
    {ids : List Identifier} {shelf : Shelf} (hremove : (s.shelf n).remove options ids = .ok shelf) :
    (s.setShelf n shelf).Shelved registry p := by
  have heach := shelved_iff_each.1 h
  exact shelved_iff_each.2 (heach.setShelf n ((heach n).remove hremove))

/-- A snapshot with the property is written, provided that it reads back. -/
theorem Shelved.runWrite (h : s.Shelved registry p) {w : SnapshotWrite E}
    (hback : System.ReadsBack registry w.snapshot) (hw : p w.snapshot) :
    (s.runWrite registry w).value.Shelved registry p := by
  refine shelved_iff_each.2 ((shelved_iff_each.1 h).runWrite registry fun text hpack e he ↦ ?_)
  obtain rfl : w.snapshot = e := Except.ok.inj ((hback text hpack).symm.trans he)
  exact ⟨rfl, hw⟩

end Stores

end Chronicle
