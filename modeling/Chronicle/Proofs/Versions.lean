import Chronicle.Identifier
import Chronicle.Version
import Mathlib.Algebra.Group.Nat.Defs
import Mathlib.Data.List.Basic
import Mathlib.Data.List.Iterate
import Mathlib.Data.List.Nodup
import Mathlib.Data.List.Range

/-!
# Versions as numbers

A version is a 64-bit number, and its successor is that of the number unless the version is the
last. The versions of one entity in a list over many, in order, are `versionsOf`.
-/

namespace Chronicle

namespace Version

/-- The number of a version. -/
def toNat (v : Version) : Nat := v.value.toNat

theorem toNat_lt (v : Version) : v.toNat < 2 ^ 64 := v.value.toNat_lt

@[simp] theorem toNat_zero : zero.toNat = 0 := rfl

theorem toNat_inj {a b : Version} : a.toNat = b.toNat ↔ a = b := by
  cases a
  cases b
  simp [toNat, UInt64.toNat_inj]

theorem eq_zero_iff {v : Version} : v = .zero ↔ v.toNat = 0 := by
  rw [← toNat_inj, toNat_zero]

theorem toNat_next (v : Version) : v.next.toNat = (v.toNat + 1) % 2 ^ 64 := by
  simp [toNat, next, UInt64.toNat_add]

theorem lt_iff {a b : Version} : a < b ↔ a.toNat < b.toNat := Iff.rfl

theorem le_iff {a b : Version} : a ≤ b ↔ a.toNat ≤ b.toNat := Iff.rfl

/-- What is not below the successor of a version is above the version; or it is anything, if the
version is the last. -/
theorem next_le_iff {a b : Version} : a.next ≤ b ↔ a = .last ∨ a < b := by
  have ha := a.toNat_lt
  have hlast : last.toNat = 2 ^ 64 - 1 := rfl
  rw [le_iff, lt_iff, toNat_next, ← toNat_inj, hlast]
  omega

theorem toNat_iterate_next (v : Version) (n : Nat) :
    (next^[n] v).toNat = (v.toNat + n) % 2 ^ 64 := by
  induction n with
  | zero => exact (Nat.mod_eq_of_lt v.toNat_lt).symm
  | succ n ih => rw [Function.iterate_succ_apply', toNat_next, ih, Nat.mod_add_mod, Nat.add_assoc]

/-- Successive versions repeat none before they have been through all. -/
theorem nodup_iterate_next (v : Version) {n : Nat} (hn : n ≤ 2 ^ 64) :
    (List.iterate next v n).Nodup := by
  rw [← List.range_map_iterate]
  refine List.Nodup.map_on (fun i hi j hj heq ↦ ?_) List.nodup_range
  have hi := List.mem_range.1 hi
  have hj := List.mem_range.1 hj
  rw [← toNat_inj, toNat_iterate_next, toNat_iterate_next] at heq
  omega

end Version

/-! ### The versions of one entity -/

/-- The versions of an entity among those of several, in order. -/
def versionsOf (entityId : Identifier) (versions : List (Identifier × Version)) : List Nat :=
  (versions.filter (·.1 = entityId)).map (·.2.toNat)

section VersionsOf

variable (entityId : Identifier)

@[simp] theorem versionsOf_nil : versionsOf entityId [] = [] := rfl

theorem versionsOf_append (vs ws : List (Identifier × Version)) :
    versionsOf entityId (vs ++ ws) = versionsOf entityId vs ++ versionsOf entityId ws := by
  simp [versionsOf]

theorem versionsOf_cons_self (v : Version) (vs : List (Identifier × Version)) :
    versionsOf entityId ((entityId, v) :: vs) = v.toNat :: versionsOf entityId vs := by
  simp [versionsOf]

theorem versionsOf_cons_of_ne {entityId id : Identifier} (h : id ≠ entityId) (v : Version)
    (vs : List (Identifier × Version)) :
    versionsOf entityId ((id, v) :: vs) = versionsOf entityId vs := by
  simp [versionsOf, h]

theorem mem_versionsOf {entityId : Identifier} {vs : List (Identifier × Version)} {n : Nat} :
    n ∈ versionsOf entityId vs ↔ ∃ v, (entityId, v) ∈ vs ∧ v.toNat = n := by
  simp only [versionsOf, List.mem_map, List.mem_filter, decide_eq_true_eq, Prod.exists]
  constructor
  · rintro ⟨id, v, ⟨hmem, rfl⟩, hv⟩
    exact ⟨v, hmem, hv⟩
  · rintro ⟨v, hmem, hv⟩
    exact ⟨entityId, v, ⟨hmem, rfl⟩, hv⟩

/-- A list repeats no version if it repeats none of any one entity. -/
theorem nodup_of_nodup_versionsOf {vs : List (Identifier × Version)}
    (h : ∀ entityId, (versionsOf entityId vs).Nodup) : vs.Nodup := by
  induction vs with
  | nil => exact .nil
  | cons v vs ih =>
    obtain ⟨id, v⟩ := v
    have hself := h id
    rw [versionsOf_cons_self, List.nodup_cons] at hself
    refine List.nodup_cons.2 ⟨fun hmem ↦ hself.1 (mem_versionsOf.2 ⟨v, hmem, rfl⟩), ih fun X ↦ ?_⟩
    refine (h X).sublist (List.Sublist.map _ (List.Sublist.filter _ (List.sublist_cons_self _ _)))

end VersionsOf

end Chronicle
