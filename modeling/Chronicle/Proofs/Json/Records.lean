import Chronicle.Json.Fields
import Chronicle.Proofs.Json.Rendering

/-!
# Reading back records

Each of the parts that records are made of is read back from its value: integers, optional texts,
identifiers, leases, tags and lists of these. The values of all records are canonical and shallow
(`Json.Within`), so that they can be told from their text.
-/

namespace Chronicle

/-! ### Identifiers -/

namespace Identifier

/-- Digits are read from the five groups they are written in. -/
theorem ofGroups?_groups {a b c d e : List Char} (ha : a.length = 8) (hb : b.length = 4)
    (hc : c.length = 4) (hd : d.length = 4) (he : e.length = 12) :
    ofGroups? (a ++ '-' :: b ++ '-' :: c ++ '-' :: d ++ '-' :: e) =
      ofDigits? (a ++ b ++ c ++ d ++ e) := by
  rw [ofGroups?, if_pos]
  · simp (disch := omega) [List.drop_append, List.drop_eq_nil_of_le, ha, hb, hc, hd]
  · simp [List.getElem?_append, ha, hb, hc, hd, he]

/-- The groups are all digits, in order. -/
theorem groups_eq (digits : List Char) :
    digits.take 8 ++ (digits.drop 8).take 4 ++ (digits.drop 12).take 4 ++ (digits.drop 16).take 4 ++
      digits.drop 20 = digits := by
  have hrest (n : Nat) : (digits.drop n).take 4 ++ digits.drop (n + 4) = digits.drop n := by
    rw [← List.drop_drop, List.take_append_drop]
  simp only [List.append_assoc, hrest, List.take_append_drop]

/-- An identifier is read from its written form. -/
theorem parse?_text (id : Identifier) : parse? id.text = some id := by
  have hlength : (Hex.write 32 id.bits.toNat).length = 32 := Hex.length_write _ _
  have hread : ofDigits? (Hex.write 32 id.bits.toNat) = some id := by
    rw [ofDigits?, if_pos hlength, Hex.read?_write id.bits.isLt]
    simp [ofNat]
  have hchars : id.chars.length = 36 := by simp [chars]
  rw [parse?, text, String.toList_ofList, ofChars?, if_neg (by omega), if_pos hchars, chars,
    ofGroups?_groups, groups_eq, hread] <;> simp
end Identifier

namespace Json

/-! ### Shallow values -/

/-- A canonical value that nests at most `limit` containers. -/
def Within (limit : Nat) (v : Json) : Prop := v.Canonical ∧ v.depth ≤ limit

section Within

variable {limit : Nat}

theorem Within.mono {limit' : Nat} {v : Json} (h : v.Within limit) (hle : limit ≤ limit') :
    v.Within limit' := ⟨h.1, Nat.le_trans h.2 hle⟩

theorem within_string (s : String) : (string s).Within limit := ⟨.string s, Nat.zero_le _⟩

theorem within_ofUInt64 (n : UInt64) : (ofUInt64 n).Within limit := ⟨.whole _, Nat.zero_le _⟩

theorem within_ofInt64 (n : Int64) : (ofInt64 n).Within limit := ⟨.whole _, Nat.zero_le _⟩

theorem within_ofOption (s : Option String) : (ofOption string s).Within limit := by
  cases s with
  | none => exact ⟨.null, Nat.zero_le _⟩
  | some s => exact within_string s

theorem within_array {items : List Json} (h : ∀ item ∈ items, item.Within limit) :
    (array items).Within (limit + 1) := by
  refine ⟨.array fun item hitem ↦ (h item hitem).1, Nat.succ_le_succ ?_⟩
  induction items with
  | nil => exact Nat.zero_le _
  | cons item items ih =>
    obtain ⟨hitem, hitems⟩ := List.forall_mem_cons.1 h
    exact Nat.max_le.2 ⟨hitem.2, ih hitems⟩

theorem within_object {members : List (String × Json)} (hascending : Keyed.Ascending members)
    (h : ∀ member ∈ members, member.2.Within limit) : (object members).Within (limit + 1) := by
  refine ⟨.object hascending fun member hmember ↦ (h member hmember).1, Nat.succ_le_succ ?_⟩
  clear hascending
  induction members with
  | nil => exact Nat.zero_le _
  | cons member members ih =>
    obtain ⟨hmember, hmembers⟩ := List.forall_mem_cons.1 h
    exact Nat.max_le.2 ⟨hmember.2, ih hmembers⟩

theorem within_ofLease (l : Lease) : (ofLease l).Within (limit + 1) :=
  within_object
    (Keyed.ascending_of_keys (by decide : ["label", "scope", "value"].Pairwise (· < ·)) rfl)
    (by simp [within_string])

theorem within_ofTag (t : Tag) : (ofTag t).Within (limit + 1) :=
  within_object (Keyed.ascending_of_keys (by decide : ["label", "value"].Pairwise (· < ·)) rfl)
    (by simp [within_string])

end Within

/-! ### Members of records -/

@[simp] theorem uint64?_ofUInt64 (n : UInt64) : (ofUInt64 n).uint64? = some n :=
  Whole.toUInt64?_ofUInt64 n

@[simp] theorem int64?_ofInt64 (n : Int64) : (ofInt64 n).int64? = some n :=
  Whole.toInt64?_ofInt64 n

@[simp] theorem identifier?_text (id : Identifier) : (string id.text).identifier? = some id := by
  simp [identifier?, string?, id.parse?_text]

@[simp] theorem optional?_ofOption (s : Option String) :
    optional? string? (some (ofOption string s)) = some s := by
  cases s <;> rfl

@[simp] theorem lease?_ofLease (l : Lease) : lease? (ofLease l) = some l := by
  simp [lease?, ofLease, fields?, Keyed.lookup, string?]

@[simp] theorem tag?_ofTag (t : Tag) : tag? (ofTag t) = some t := by
  simp [tag?, ofTag, fields?, Keyed.lookup, string?]

/-- A list is read back if each of its items is. -/
theorem list?_array_map {α : Type} {read : Json → Option α} {write : α → Json}
    (h : ∀ a, read (write a) = some a) (as : List α) :
    list? read (array (as.map write)) = some as := by
  show (as.map write).mapM read = some as
  induction as with
  | nil => rfl
  | cons a as ih => rw [List.map_cons, List.mapM_cons, h, ih]; rfl

end Json

end Chronicle
