import Chronicle.Proofs.Query.Reversal
import Mathlib.Order.Defs.Unbundled

/-!
# What order a selection is in

The comparison that sorts a selection is read here off its keys: one record precedes another if the
first key that tells them apart says so in its direction, and if no key does, by the order of
writing in the direction of the first key (`Precedes`). On records with places of their own that is
a strict total order (`isStrictTotalOrder_precedes`), whatever mix of directions the keys have, so
that there is one arrangement in order, and a selection is that one (`select_exact`).
-/

namespace Chronicle

open Std (TransCmp OrientedCmp)

variable {φ : Facet}

/-! ### Precedence -/

/-- By a key in its direction, one record comes before another. -/
def Directed.Before (d : Directed φ) (a b : φ.Record) : Prop :=
  match d.ascending with
  | true => d.key.compare a b = .lt
  | false => d.key.compare b a = .lt

/-- Which of two records comes first when all keys tie: the one that was written first if the first
key ascends or there is none, and the one that was written last if the first key descends. -/
def TieBefore : List (Directed φ) → (a b : φ.Record) → Prop
  | ⟨_, false⟩ :: _, a, b => Facet.sequence b < Facet.sequence a
  | _, a, b => Facet.sequence a < Facet.sequence b

/-- One record precedes another by the first of the keys that tells them apart, or, if all keys tie,
by the order of writing. -/
def Precedes (keys : List (Directed φ)) (a b : φ.Record) : Prop :=
  (∃ ahead d rest, keys = ahead ++ d :: rest ∧ (∀ e ∈ ahead, e.key.compare a b = .eq) ∧
    d.Before a b) ∨
  (∀ e ∈ keys, e.key.compare a b = .eq) ∧ TieBefore keys a b

theorem Directed.compare_eq_lt_iff {d : Directed φ} {a b : φ.Record} :
    d.compare a b = .lt ↔ d.Before a b := by
  obtain ⟨key, ascending⟩ := d
  cases ascending with
  | true => exact Iff.rfl
  | false =>
    have hswap : key.compare b a = (key.compare a b).swap := OrientedCmp.eq_swap
    show (key.compare a b).swap = .lt ↔ key.compare b a = .lt
    rw [hswap]

theorem Directed.compare_eq_eq_iff {d : Directed φ} {a b : φ.Record} :
    d.compare a b = .eq ↔ d.key.compare a b = .eq :=
  inDirection_eq_eq_iff

theorem tieBefore_iff {keys : List (Directed φ)} {a b : φ.Record} :
    inDirection (keys.head?.all (·.ascending)) (compare (Facet.sequence a) (Facet.sequence b)) = .lt
      ↔ TieBefore keys a b := by
  match keys with
  | [] => exact Nat.compare_eq_lt
  | ⟨_, true⟩ :: _ => exact Nat.compare_eq_lt
  | ⟨_, false⟩ :: _ => exact Ordering.swap_eq_lt.trans Nat.compare_eq_gt

/-- A chain of comparisons decides by the first that does not tie. -/
theorem foldr_then_eq_lt_iff {keys : List (Directed φ)} {a b : φ.Record} {ties : Ordering} :
    keys.foldr (fun d rest ↦ (d.compare a b).then rest) ties = .lt ↔
      (∃ ahead d rest, keys = ahead ++ d :: rest ∧ (∀ e ∈ ahead, e.compare a b = .eq) ∧
        d.compare a b = .lt) ∨
      (∀ e ∈ keys, e.compare a b = .eq) ∧ ties = .lt := by
  induction keys with
  | nil => simp
  | cons d keys ih =>
    rw [List.foldr_cons, Ordering.then_eq_lt, ih]
    constructor
    · rintro (hlt | ⟨heq, ⟨ahead, e, rest, rfl, hahead, he⟩ | ⟨hkeys, hties⟩⟩)
      · exact .inl ⟨[], d, keys, rfl, nofun, hlt⟩
      · exact .inl ⟨d :: ahead, e, rest, rfl, List.forall_mem_cons.2 ⟨heq, hahead⟩, he⟩
      · exact .inr ⟨List.forall_mem_cons.2 ⟨heq, hkeys⟩, hties⟩
    · rintro (⟨ahead, e, rest, hsplit, hahead, he⟩ | ⟨hkeys, hties⟩)
      · cases ahead with
        | nil =>
          obtain ⟨rfl, -⟩ := List.cons.inj hsplit
          exact .inl he
        | cons d' ahead =>
          obtain ⟨rfl, rfl⟩ := List.cons.inj hsplit
          obtain ⟨heq, hahead⟩ := List.forall_mem_cons.1 hahead
          exact .inr ⟨heq, .inl ⟨ahead, e, rest, rfl, hahead, he⟩⟩
      · obtain ⟨heq, hkeys⟩ := List.forall_mem_cons.1 hkeys
        exact .inr ⟨heq, .inr ⟨hkeys, hties⟩⟩

/-- The comparison by keys says which record precedes. -/
theorem compareBy_eq_lt_iff {keys : List (Directed φ)} {a b : φ.Record} :
    compareBy keys a b = .lt ↔ Precedes keys a b := by
  rw [compareBy, foldr_then_eq_lt_iff, tieBefore_iff]
  simp only [Directed.compare_eq_lt_iff, Directed.compare_eq_eq_iff, Precedes]

/-! ### A strict total order -/

section Distinguished

variable {keys : List (Directed φ)} {records : List φ.Record}

/-- Records with places of their own never compare equal. -/
theorem Distinguished.compareBy_eq_eq_iff (h : Distinguished records) {a b : φ.Record}
    (ha : a ∈ records) (hb : b ∈ records) : compareBy keys a b = .eq ↔ a = b := by
  constructor
  · exact fun heq ↦ h.eq ha hb (sequence_eq_of_compareBy_eq heq)
  · rintro rfl
    exact Std.ReflCmp.compare_self

/-- Among records with places of their own, nothing precedes itself, precedence is transitive, and
of two records one precedes the other. -/
theorem isStrictTotalOrder_precedes (h : Distinguished records) :
    IsStrictTotalOrder {record // record ∈ records} fun a b ↦ Precedes keys a.1 b.1 where
  trichotomous := by
    rintro ⟨a, ha⟩ ⟨b, hb⟩ hab hba
    rw [← compareBy_eq_lt_iff] at hab hba
    rw [compareBy_swap keys a b, Ordering.swap_eq_lt] at hba
    have heq : compareBy keys a b = .eq := by
      cases hcompare : compareBy keys a b with
      | eq => rfl
      | lt => exact absurd hcompare hab
      | gt => exact absurd hcompare hba
    exact Subtype.ext ((h.compareBy_eq_eq_iff ha hb).1 heq)
  irrefl := by
    rintro ⟨a, ha⟩ hlt
    rw [← compareBy_eq_lt_iff, (h.compareBy_eq_eq_iff ha ha).2 rfl] at hlt
    cases hlt
  trans := by
    rintro ⟨a, _⟩ ⟨b, _⟩ ⟨c, _⟩ hab hbc
    rw [← compareBy_eq_lt_iff] at hab hbc ⊢
    exact TransCmp.lt_trans hab hbc

/-- Among records with places of their own, being in order is to precede all that come after. -/
theorem Distinguished.pairwise_isLE_iff (h : Distinguished records) :
    (records.Pairwise fun a b ↦ (compareBy keys a b).isLE) ↔ records.Pairwise (Precedes keys) := by
  constructor
  · intro hle
    refine (hle.and h).imp fun {a b} ⟨hle, hne⟩ ↦ compareBy_eq_lt_iff.1 ?_
    cases hcompare : compareBy keys a b with
    | lt => rfl
    | eq => exact absurd (sequence_eq_of_compareBy_eq hcompare) hne
    | gt =>
      rw [hcompare] at hle
      cases hle
  · exact List.Pairwise.imp fun hlt ↦ by
      rw [compareBy_eq_lt_iff.2 hlt]
      rfl

end Distinguished

/-! ### The selection -/

variable {R : Type}

/-- **The order of a selection.** Among records with places of their own the comparison by any keys
is a strict total order: lexicographic by the keys in their directions, with ties in the order of
writing, in the direction of the first key. The selection is the one arrangement in that order of
exactly the records that pass, whatever order the records are given in; and turning all of at least
one key around turns it around. -/
theorem select_exact (registry : R) (filter : Filter R φ) (keys : List (Directed φ))
    {records : List φ.Record} (h : Distinguished records) :
    (∀ a b : φ.Record, compareBy keys a b = .lt ↔ Precedes keys a b) ∧
    (∀ a ∈ records, ∀ b ∈ records, compareBy keys a b = .eq ↔ a = b) ∧
    (IsStrictTotalOrder {record // record ∈ records} fun a b ↦ Precedes keys a.1 b.1) ∧
    (∀ selected : List φ.Record, select registry filter keys records = selected ↔
      selected.Perm (records.filter (filter.holds registry)) ∧
        selected.Pairwise (Precedes keys)) ∧
    (∀ shuffled : List φ.Record, shuffled.Perm records →
      select registry filter keys shuffled = select registry filter keys records) ∧
    (keys ≠ [] → select registry filter (keys.map Directed.turn) records =
      (select registry filter keys records).reverse) := by
  have hexact : ∀ selected : List φ.Record, select registry filter keys records = selected ↔
      selected.Perm (records.filter (filter.holds registry)) ∧
        selected.Pairwise (Precedes keys) := by
    intro selected
    constructor
    · rintro rfl
      exact ⟨select_perm, h.select.pairwise_isLE_iff.1 pairwise_select⟩
    · rintro ⟨hperm, hsorted⟩
      have hplaces : Distinguished selected :=
        (hperm.pairwise_iff Ne.symm).2 (h.sublist List.filter_sublist)
      exact select_eq_of_perm h hperm (hplaces.pairwise_isLE_iff.2 hsorted)
  refine ⟨fun a b ↦ compareBy_eq_lt_iff, fun a ha b hb ↦ h.compareBy_eq_eq_iff ha hb,
    isStrictTotalOrder_precedes h, hexact, fun shuffled hshuffled ↦ ?_, fun hkeys ↦ ?_⟩
  · have hplaces : Distinguished shuffled := (hshuffled.pairwise_iff Ne.symm).2 h
    refine ((hexact _).2 ⟨?_, ?_⟩).symm
    · exact select_perm.trans (hshuffled.filter _)
    · exact hplaces.select.pairwise_isLE_iff.1 pairwise_select
  · exact select_eq_reverse h fun a b ↦ compareBy_map_turn hkeys a b

/-- By descending versions the two first versions tie, and come last written first. -/
theorem select_exact_handedOver :
    Distinguished (φ := .entity .message) Tables.handedOver.messages ∧
      ∃ first second third : EntityRecord Envelope,
        Tables.handedOver.messages = [first, second, third] ∧
          first.entityVersion = third.entityVersion ∧ first.sequence < third.sequence ∧
          select ({} : Inventory.Registry) (φ := .entity .message) (.all [])
            [⟨.entityVersion, false⟩] Tables.handedOver.messages = [second, third, first] := by
  have hplaces : Distinguished (φ := .entity .message) Tables.handedOver.messages :=
    Tables.reachable_handedOver.sequenced.distinguished (.entity .message)
  refine ⟨hplaces, _, _, _, rfl, rfl, by decide, ?_⟩
  refine ((select_exact ({} : Inventory.Registry) (.all []) [⟨.entityVersion, false⟩]
    hplaces).2.2.2.1 _).2 ⟨?_, ?_⟩
  · exact @List.perm_append_comm _ [_, _] [_]
  · refine .cons ?_ (.cons ?_ (.cons nofun .nil))
    · simp only [List.forall_mem_cons, ← compareBy_eq_lt_iff]
      exact ⟨rfl, rfl, nofun⟩
    · simp only [List.forall_mem_cons, ← compareBy_eq_lt_iff]
      exact ⟨rfl, nofun⟩

end Chronicle
