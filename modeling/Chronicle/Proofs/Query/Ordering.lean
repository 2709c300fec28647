import Chronicle.Query.Basic
import Mathlib.Data.List.Nodup

/-!
# The order of selected records

Keys order records as a preorder does: comparing by a key can be turned around and is transitive,
and so can comparing by any keys in any directions (`compareBy`). Records that are equal by all keys
have the same place in the order of writing, so that on records with places of their own a selection
is the only arrangement in order (`select_eq_of_perm`). Turning the order around therefore turns the
selection around (`select_eq_reverse`).
-/

namespace Chronicle

open Std (TransCmp TransOrd OrientedCmp)

/-! ### Keys -/

instance : TransOrd Identifier :=
  inferInstanceAs (TransCmp (compareOn fun id : Identifier ↦ id.bits.toNat))

instance : Std.LawfulEqOrd Identifier where
  eq_of_compare {a b} h := by
    obtain ⟨a⟩ := a
    obtain ⟨b⟩ := b
    exact congrArg Identifier.mk (BitVec.toNat_inj.1 (Nat.compare_eq_eq.1 h))

instance : TransOrd Version :=
  inferInstanceAs (TransCmp (compareOn fun v : Version ↦ v.value.toNat))

instance : TransOrd TimeStamp :=
  inferInstanceAs (TransCmp (compareLex (compareOn TimeStamp.seconds) (compareOn TimeStamp.nanos)))

/-- Comparing by what is read off the records. -/
theorem transCmp_compareOn {α β : Type} [Ord β] [TransOrd β] (f : α → β) :
    TransCmp fun a b : α ↦ compare (f a) (f b) :=
  inferInstanceAs (TransCmp (compareOn f))

instance {φ : Facet} (key : Key φ) : TransCmp key.compare := by
  cases key with
  | sequence => cases φ <;> exact transCmp_compareOn Facet.sequence
  | sourceTimeStamp => cases φ <;> exact transCmp_compareOn Facet.sourceTimeStamp
  | sourceId => cases φ <;> exact transCmp_compareOn Facet.sourceId
  | entityId => exact transCmp_compareOn EntityRecord.entityId
  | entityVersion => exact transCmp_compareOn EntityRecord.entityVersion
  | signatureType =>
    exact transCmp_compareOn fun record : SourceRecord ↦ record.agentSignature.headers.typeName?
  | deltaType =>
    exact transCmp_compareOn fun record : EntityRecord Envelope ↦ record.data.headers.typeName?
  | leaseScope => exact transCmp_compareOn fun record : EntityRecord Lease ↦ record.data.scope
  | leaseLabel => exact transCmp_compareOn fun record : EntityRecord Lease ↦ record.data.label
  | leaseValue => exact transCmp_compareOn fun record : EntityRecord Lease ↦ record.data.value
  | tagLabel => exact transCmp_compareOn fun record : EntityRecord Tag ↦ record.data.label
  | tagValue => exact transCmp_compareOn fun record : EntityRecord Tag ↦ record.data.value

/-! ### Directions -/

theorem inDirection_not (ascending : Bool) (o : Ordering) :
    inDirection (!ascending) o = (inDirection ascending o).swap := by
  cases ascending <;> simp [inDirection]

theorem inDirection_eq_eq_iff {ascending : Bool} {o : Ordering} :
    inDirection ascending o = .eq ↔ o = .eq := by
  cases ascending <;> simp [inDirection]

/-- A comparison that is seen from the other end is as good as before. -/
theorem transCmp_inDirection {α : Type} (ascending : Bool) (cmp : α → α → Ordering)
    [TransCmp cmp] : TransCmp fun a b ↦ inDirection ascending (cmp a b) := by
  cases ascending with
  | true => exact ‹TransCmp cmp›
  | false =>
    have hswap : (fun a b ↦ inDirection false (cmp a b)) = fun a b ↦ cmp b a := by
      funext a b
      exact OrientedCmp.eq_swap.symm
    rw [hswap]
    exact TransCmp.opposite

instance {φ : Facet} (d : Directed φ) : TransCmp d.compare :=
  transCmp_inDirection d.ascending d.key.compare

/-! ### Comparing by keys -/

section Compare

variable {φ : Facet}

/-- The first key that tells two records apart decides, and at last what comes after all keys. -/
theorem transCmp_foldr (keys : List (Directed φ)) (ties : φ.Record → φ.Record → Ordering)
    [TransCmp ties] :
    TransCmp fun a b ↦ keys.foldr (fun d rest ↦ (d.compare a b).then rest) (ties a b) := by
  induction keys with
  | nil => exact ‹TransCmp ties›
  | cons d keys ih =>
    exact inferInstanceAs (TransCmp (compareLex d.compare fun a b ↦
      keys.foldr (fun d rest ↦ (d.compare a b).then rest) (ties a b)))

instance (keys : List (Directed φ)) : TransCmp (compareBy (φ := φ) keys) := by
  have hsequence := transCmp_compareOn (Facet.sequence (φ := φ))
  have hties := transCmp_inDirection (keys.head?.all (·.ascending))
    fun a b : φ.Record ↦ compare (Facet.sequence a) (Facet.sequence b)
  exact transCmp_foldr keys _

theorem compareBy_swap (keys : List (Directed φ)) (a b : φ.Record) :
    compareBy keys b a = (compareBy keys a b).swap :=
  OrientedCmp.eq_swap

theorem isLE_compareBy_self (keys : List (Directed φ)) (a : φ.Record) :
    (compareBy keys a a).isLE :=
  Std.ReflCmp.isLE_rfl

/-- Records that compare equal have the same place in the order of writing. -/
theorem sequence_eq_of_compareBy_eq {keys : List (Directed φ)} {a b : φ.Record}
    (h : compareBy keys a b = .eq) : Facet.sequence a = Facet.sequence b := by
  have hties : ∀ (ds : List (Directed φ)) (ties : Ordering),
      ds.foldr (fun d rest ↦ (d.compare a b).then rest) ties = .eq → ties = .eq := by
    intro ds ties hds
    induction ds with
    | nil => exact hds
    | cons d ds ih => exact ih (Ordering.then_eq_eq.1 hds).2
  exact Nat.compare_eq_eq.1 (inDirection_eq_eq_iff.1 (hties keys _ h))

/-- A key in the opposite direction. -/
def Directed.turn (d : Directed φ) : Directed φ := ⟨d.key, !d.ascending⟩

@[simp] theorem Directed.compare_turn (d : Directed φ) (a b : φ.Record) :
    d.turn.compare a b = (d.compare a b).swap :=
  inDirection_not d.ascending _

/-- Turning every key around turns the comparison around, and the ties with it, as long as there is
a key that they take their direction from. -/
theorem compareBy_map_turn {keys : List (Directed φ)} (h : keys ≠ []) (a b : φ.Record) :
    compareBy (keys.map Directed.turn) a b = (compareBy keys a b).swap := by
  have hfold : ∀ (ds : List (Directed φ)) (ties : Ordering),
      (ds.map Directed.turn).foldr (fun d rest ↦ (d.compare a b).then rest) ties.swap =
        (ds.foldr (fun d rest ↦ (d.compare a b).then rest) ties).swap := by
    intro ds ties
    induction ds with
    | nil => rfl
    | cons d ds ih =>
      rw [List.map_cons, List.foldr_cons, List.foldr_cons, ih, Directed.compare_turn,
        Ordering.swap_then]
  obtain ⟨d, ds, rfl⟩ := List.exists_cons_of_ne_nil h
  unfold compareBy
  rw [← hfold, ← inDirection_not]
  rfl

theorem Key.compare_sequence (a b : φ.Record) :
    Key.compare .sequence a b = Ord.compare (Facet.sequence a) (Facet.sequence b) := by
  cases φ <;> rfl

/-- To descend the order of writing is to turn it around. -/
theorem compareBy_sequence_descending (a b : φ.Record) :
    compareBy [⟨.sequence, false⟩] a b = (compareBy [] a b).swap := by
  show (inDirection false (Key.compare .sequence a b)).then
    (inDirection false (compare (Facet.sequence a) (Facet.sequence b))) =
      (inDirection true (compare (Facet.sequence a) (Facet.sequence b))).swap
  rw [Key.compare_sequence]
  cases compare (Facet.sequence a) (Facet.sequence b) <;> rfl

end Compare

/-! ### Selecting -/

section Select

variable {R : Type} {φ : Facet} {registry : R} {filter : Filter R φ} {keys : List (Directed φ)}
  {records : List φ.Record}

/-- A selection consists of the records that pass. -/
theorem select_perm : (select registry filter keys records).Perm
    (records.filter (filter.holds registry)) :=
  List.mergeSort_perm _ _

/-- A selection is in order. -/
theorem pairwise_select : (select registry filter keys records).Pairwise
    fun a b ↦ (compareBy keys a b).isLE := by
  refine List.pairwise_mergeSort (fun a b c ↦ TransCmp.isLE_trans) (fun a b ↦ ?_) _
  rw [compareBy_swap keys a b]
  cases compareBy keys a b <;> rfl

/-- Records have places of their own in the order of writing. -/
def Distinguished (records : List φ.Record) : Prop :=
  records.Pairwise fun a b ↦ Facet.sequence a ≠ Facet.sequence b

theorem Distinguished.eq (h : Distinguished records) {a b : φ.Record} (ha : a ∈ records)
    (hb : b ∈ records) (hab : Facet.sequence a = Facet.sequence b) : a = b :=
  List.inj_on_of_nodup_map (List.pairwise_map.2 h) ha hb hab

theorem Distinguished.select (h : Distinguished records) :
    Distinguished (select registry filter keys records) :=
  (select_perm.pairwise_iff Ne.symm).2 (h.sublist List.filter_sublist)

/-- On records with places of their own, a selection is the only arrangement in order of the
records that pass. -/
theorem select_eq_of_perm (h : Distinguished records) {selected : List φ.Record}
    (hperm : selected.Perm (records.filter (filter.holds registry)))
    (hsorted : selected.Pairwise fun a b ↦ (compareBy keys a b).isLE) :
    select registry filter keys records = selected := by
  refine List.Perm.eq_of_pairwise (fun a b ha hb hab hba ↦ ?_) pairwise_select hsorted
    (select_perm.trans hperm.symm)
  have hmem : ∀ {c}, c ∈ records.filter (filter.holds registry) → c ∈ records := fun hc ↦
    (List.mem_filter.1 hc).1
  have heq : compareBy keys a b = .eq := by
    rw [compareBy_swap keys a b] at hba
    cases hcompare : compareBy keys a b with
    | eq => rfl
    | lt =>
      rw [hcompare] at hba
      cases hba
    | gt =>
      rw [hcompare] at hab
      cases hab
  exact h.eq (hmem (select_perm.mem_iff.1 ha)) (hmem (hperm.mem_iff.1 hb))
    (sequence_eq_of_compareBy_eq heq)

/-- Keys that compare the other way round select the same records backwards. -/
theorem select_eq_reverse (h : Distinguished records) {turned : List (Directed φ)}
    (hturned : ∀ a b : φ.Record, compareBy turned a b = (compareBy keys a b).swap) :
    select registry filter turned records = (select registry filter keys records).reverse := by
  refine select_eq_of_perm h ((List.reverse_perm _).trans select_perm) ?_
  rw [List.pairwise_reverse]
  refine pairwise_select.imp fun {a b} hle ↦ ?_
  rwa [hturned, ← compareBy_swap]

end Select

end Chronicle
