import Chronicle.Proofs.Store.Safety
import Mathlib.Data.List.Pairwise

/-!
# The order of writing

All tables take the numbers of their records from one counter, which only goes up. So the numbers in
each table ascend and stay below the next one (`Ascends`): what is written goes to the end of its
table, and what is deleted leaves the others in their order. On every store that commits can reach
each record has a place of its own in the order of writing (`Reachable.sequenced`), and there are
fewer messages than the counter says (`Reachable.length_messages_le`).
-/

namespace Chronicle

/-- Numbers that ascend and stay below the next one. -/
def Ascends (numbers : List Nat) (next : Nat) : Prop := (numbers ++ [next]).Pairwise (· < ·)

/-- Some of the numbers may go, and further ones follow in a row. -/
theorem Ascends.append {numbers kept : List Nat} {next start next' k : Nat}
    (h : Ascends numbers next) (hkept : kept.Sublist numbers) (hstart : next ≤ start)
    (hnext : start + k ≤ next') : Ascends (kept ++ List.range' start k) next' := by
  obtain ⟨hnumbers, -, hbelow⟩ := List.pairwise_append.1 h
  rw [Ascends, List.append_assoc, List.pairwise_append]
  refine ⟨hnumbers.sublist hkept, ?_, fun a ha b hb ↦ ?_⟩
  · rw [List.pairwise_append]
    refine ⟨List.pairwise_lt_range', List.pairwise_singleton _ _, fun a ha b hb ↦ ?_⟩
    rw [List.mem_range'_1] at ha
    rw [List.mem_singleton.1 hb]
    omega
  · have hlt : a < next := hbelow a (hkept.subset ha) next (List.mem_singleton_self next)
    rw [List.mem_append, List.mem_range'_1, List.mem_singleton] at hb
    omega

/-- The next number may be any later one. -/
theorem Ascends.later {numbers : List Nat} {next next' : Nat} (h : Ascends numbers next)
    (hnext : next ≤ next') : Ascends numbers next' := by
  simpa using h.append (k := 0) (List.Sublist.refl numbers) (Nat.le_refl _) hnext

/-- A smaller number may come ahead. -/
theorem Ascends.cons {numbers : List Nat} {first second next : Nat}
    (h : Ascends (second :: numbers) next) (hlt : first < second) :
    Ascends (first :: second :: numbers) next :=
  List.pairwise_cons_cons_iff_of_trans.2 ⟨hlt, h⟩

/-- Numbers may be continued from the next one. -/
theorem Ascends.trans {numbers numbers' : List Nat} {next next' : Nat} (h : Ascends numbers next)
    (h' : Ascends (next :: numbers') next') : Ascends (numbers ++ next :: numbers') next' := by
  obtain ⟨hnumbers, -, hbelow⟩ := List.pairwise_append.1 h
  have hafter : ∀ n ∈ numbers' ++ [next'], next < n := (List.pairwise_cons.1 h').1
  rw [Ascends, List.append_assoc, List.pairwise_append]
  refine ⟨hnumbers, h', fun a ha b hb ↦ ?_⟩
  have hlt : a < next := hbelow a ha next (List.mem_singleton_self next)
  rcases List.mem_cons.1 hb with rfl | hb
  · exact hlt
  · exact Nat.lt_trans hlt (hafter b hb)

namespace Tables

/-- The records of each facet have ascending numbers, below that of the next record. -/
def Sequenced (t : Tables) : Prop :=
  ∀ φ, Ascends ((t.records φ).map Facet.sequence) t.nextSequence

theorem map_sequence_recordsOf {α : Type} (s : PackedSource) (m : PackedMessage) (start : Nat)
    (data : List α) :
    (recordsOf s m start data).map (·.sequence) = List.range' start data.length := by
  induction data generalizing start with
  | nil => rfl
  | cons datum data ih =>
    rw [recordsOf_cons, List.map_cons, ih, List.length_cons, List.range'_succ]

namespace Sequenced

variable {t : Tables} {s : PackedSource}

theorem empty : Sequenced .empty := fun φ ↦ by
  rcases φ with - | - | - | - <;> exact List.pairwise_singleton _ _

theorem writeSource (h : t.Sequenced) : (t.writeSource s).Sequenced := fun φ ↦ by
  cases φ with
  | source =>
    show Ascends (List.map Facet.sequence (t.sources ++ [_])) (t.nextSequence + 1)
    rw [List.map_append]
    exact (h .source).append (k := 1) (List.Sublist.refl _) (Nat.le_refl _) (Nat.le_refl _)
  | entity kind =>
    have := (h (.entity kind)).later (Nat.le_succ _)
    cases kind <;> exact this

/-- Records of a message are written behind those of its table that stay. -/
theorem append_recordsOf {α : Type} {table kept : List (EntityRecord α)} {next start next' : Nat}
    (h : Ascends (table.map (·.sequence)) next) (hkept : kept.Sublist table) (m : PackedMessage)
    (data : List α) (hstart : next ≤ start) (hnext : start + data.length ≤ next') :
    Ascends ((kept ++ recordsOf s m start data).map (·.sequence)) next' := by
  rw [List.map_append, map_sequence_recordsOf]
  exact h.append (hkept.map _) hstart hnext

theorem writeMessage (h : t.Sequenced) (m : PackedMessage) :
    (Tables.writeMessage s t m).Sequenced := fun φ ↦ by
  have hnext : (Tables.writeMessage s t m).nextSequence =
      t.nextSequence + m.addLeases.length + m.addTags.length + 1 := rfl
  rcases φ with - | - | - | -
  case source => exact (h .source).later (by omega)
  case entity.message =>
    exact append_recordsOf (h (.entity .message)) (List.Sublist.refl _) m [m.delta]
      (by omega) (by simp [hnext])
  case entity.lease =>
    exact append_recordsOf (h (.entity .lease)) List.filter_sublist m m.addLeases
      (Nat.le_refl _) (by omega)
  case entity.tag =>
    exact append_recordsOf (h (.entity .tag)) List.filter_sublist m m.addTags
      (Nat.le_add_right _ _) (by omega)

theorem write (h : t.Sequenced) : (t.write s).Sequenced :=
  List.foldlRecOn s.messages _ h.writeSource fun _ h m _ ↦ h.writeMessage m

end Sequenced

/-- On every store that commits can reach, the numbers in each table ascend. -/
theorem Reachable.sequenced {t : Tables} (h : Reachable t) : t.Sequenced :=
  h.of_write .empty fun _ _ h ↦ h.write

/-! ### The number of messages -/

/-- A source takes a number for itself and at least one for each of its messages. -/
theorem nextSequence_write (t : Tables) (s : PackedSource) :
    t.nextSequence + 1 + s.messages.length ≤ (t.write s).nextSequence := by
  suffices ∀ (ms : List PackedMessage) (t : Tables),
      t.nextSequence + ms.length ≤ (ms.foldl (Tables.writeMessage s) t).nextSequence from
    this s.messages (t.writeSource s)
  intro ms
  induction ms with
  | nil => exact fun t ↦ Nat.le_refl _
  | cons m rest ih =>
    intro t
    have hrest := ih (Tables.writeMessage s t m)
    have hnext : (Tables.writeMessage s t m).nextSequence =
        t.nextSequence + m.addLeases.length + m.addTags.length + 1 := rfl
    rw [List.foldl_cons, List.length_cons]
    omega

/-- The messages of a source take ascending numbers behind the source's own. -/
theorem ascends_messages_write {t : Tables} {s : PackedSource}
    {records : List (EntityRecord Envelope)}
    (h : (t.write s).messages = t.messages ++ records) :
    Ascends (t.nextSequence :: records.map (·.sequence)) (t.write s).nextSequence := by
  suffices ∀ (ms : List PackedMessage) (t : Tables) (start : Nat), start < t.nextSequence →
      ∃ records, (ms.foldl (Tables.writeMessage s) t).messages = t.messages ++ records ∧
        Ascends (start :: records.map (·.sequence))
          (ms.foldl (Tables.writeMessage s) t).nextSequence by
    obtain ⟨records', h', hascends⟩ :=
      this s.messages (t.writeSource s) t.nextSequence (Nat.lt_succ_self _)
    rwa [List.append_cancel_left (h.symm.trans h')]
  intro ms
  induction ms with
  | nil =>
    intro t start hstart
    refine ⟨[], (List.append_nil _).symm, ?_⟩
    show [start, t.nextSequence].Pairwise (· < ·)
    simpa using hstart
  | cons m rest ih =>
    intro t start hstart
    obtain ⟨records, hmessages, hascends⟩ := ih (Tables.writeMessage s t m)
      (t.nextSequence + m.addLeases.length + m.addTags.length) (Nat.lt_succ_self _)
    refine ⟨recordsOf s m (t.nextSequence + m.addLeases.length + m.addTags.length) [m.delta] ++
      records, ?_, hascends.cons (by omega)⟩
    rw [List.foldl_cons, hmessages, ← List.append_assoc]
    rfl

/-- There are fewer messages than numbers that records have taken, unless there are none. -/
theorem Reachable.length_messages_le {t : Tables} (h : Reachable t) :
    t.messages.length ≤ t.nextSequence - 1 := by
  refine h.of_write (Nat.le_refl 0) fun {t packed} _ _ hlength ↦ ?_
  obtain ⟨records, hmessages, hrecords⟩ := exists_messages_write t packed
  have hnew := hrecords.length_eq
  have hnext := nextSequence_write t packed
  rw [hmessages, List.length_append]
  omega

end Tables

end Chronicle
