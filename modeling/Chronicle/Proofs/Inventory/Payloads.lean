import Chronicle.Inventory.Registry
import Chronicle.Proofs.Json.Records

/-!
# The laws of payloads

A variant is stored without its name, as a bare value. The decoder that is declared for its name
reads it back from that value (`LawfulPayload`). This holds of every family of the inventory, and
the values are canonical and shallow, so that they can be told from their text, except for blobs,
which are whatever they are made of (`Family.Storable`).
-/

namespace Chronicle

/-- Payload types whose variants are read back by the decoders that are declared for their names. -/
class LawfulPayload (T : Type) [Payload T] : Prop where
  /-- The decoder of the name of a variant gives the variant back. -/
  decodes : ∀ (v : T) (value : Json), encode v = some value →
    ∃ decoder, Payload.declared.decoder? (typeName v) = some decoder ∧ decoder value = some v

namespace Inventory

open Json (fields? Within)

theorem single?_object {α : Type} {name : String} {read : Json → Option α} {value : Json} :
    single? name read (.object [(name, value)]) = read value := by
  simp [single?, fields?, Keyed.lookup]

theorem blank?_object : blank? (.object []) = some () := rfl

/-! ### Deltas of items -/

instance : LawfulPayload Delta where
  decodes v value h := by
    cases v with
    | count number =>
      cases h
      exact ⟨_, rfl, by simp [single?_object]⟩
    | doNothing =>
      cases h
      exact ⟨_, rfl, by simp [blank?_object]⟩
    | release =>
      cases h
      exact ⟨_, rfl, by simp [blank?_object]⟩
    | reserve name =>
      cases h
      exact ⟨_, rfl, by simp [single?_object, Json.string?]⟩
    | setLeases leases =>
      cases h
      exact ⟨_, rfl, by simp [single?_object, Json.list?_array_map Json.lease?_ofLease]⟩
    | setTags tags =>
      cases h
      exact ⟨_, rfl, by simp [single?_object, Json.list?_array_map Json.tag?_ofTag]⟩
    | nothing =>
      cases h
      exact ⟨_, rfl, rfl⟩
    | broken reason => cases h

/-- A record of one member. -/
theorem within_single {limit : Nat} {name : String} {value : Json} (h : value.Within limit) :
    (Json.object [(name, value)]).Within (limit + 1) :=
  Json.within_object (List.pairwise_singleton _ _) (by simpa using h)

theorem within_blank {limit : Nat} : (Json.object []).Within (limit + 1) :=
  Json.within_object .nil nofun

theorem within_leases {limit : Nat} (leases : List Lease) :
    (Json.array (leases.map .ofLease)).Within (limit + 2) := by
  refine Json.within_array fun item hitem ↦ ?_
  obtain ⟨l, -, rfl⟩ := List.mem_map.1 hitem
  exact Json.within_ofLease l

theorem within_tags {limit : Nat} (tags : List Tag) :
    (Json.array (tags.map .ofTag)).Within (limit + 2) := by
  refine Json.within_array fun item hitem ↦ ?_
  obtain ⟨t, -, rfl⟩ := List.mem_map.1 hitem
  exact Json.within_ofTag t

theorem Delta.within_toJson? {v : Delta} {value : Json} (h : v.toJson? = some value) :
    value.Within 3 := by
  cases v with
  | count number =>
    cases h
    exact within_single (Json.within_ofUInt64 number)
  | doNothing =>
    cases h
    exact within_blank
  | release =>
    cases h
    exact within_blank
  | reserve name =>
    cases h
    exact within_single (Json.within_string name)
  | setLeases leases =>
    cases h
    exact within_single (within_leases leases)
  | setTags tags =>
    cases h
    exact within_single (within_tags tags)
  | nothing =>
    cases h
    exact ⟨.null, Nat.zero_le _⟩
  | broken reason => cases h

/-! ### Other deltas -/

theorem AltDelta.count?_object (number : Int64) (unit : Option String) :
    count? (.object [("number", .ofInt64 number), ("unit", .ofOption .string unit)]) =
      some (.count number unit) := by
  simp [count?, fields?, Keyed.lookup]

instance : LawfulPayload AltDelta where
  decodes v value h := by
    cases v with
    | count number unit =>
      cases h
      exact ⟨_, rfl, AltDelta.count?_object number unit⟩
    | renamed name =>
      cases h
      exact ⟨_, rfl, by simp [single?_object, Json.string?]⟩
    | blob blob =>
      cases h
      exact ⟨_, rfl, rfl⟩

/-- Only blobs are deeper than other deltas. -/
theorem AltDelta.within_toJson? {v : AltDelta} {value : Json} (h : v.toJson? = some value) :
    value.Within 3 ∨ v = .blob value := by
  cases v with
  | count number unit =>
    cases h
    have hkeys : ["number", "unit"].Pairwise (· < ·) := by decide
    refine .inl (Json.within_object (Keyed.ascending_of_keys hkeys rfl) ?_)
    simp only [List.forall_mem_cons]
    exact ⟨Json.within_ofInt64 _, Json.within_ofOption _, nofun⟩
  | renamed name =>
    cases h
    exact .inl (within_single (Json.within_string name))
  | blob blob =>
    cases h
    exact .inr rfl

/-! ### Signatures -/

instance : LawfulPayload Signature where
  decodes v value h := by
    cases v with
    | user name =>
      cases h
      exact ⟨_, rfl, by simp [single?_object, Json.string?]⟩
    | system =>
      cases h
      exact ⟨_, rfl, by simp [blank?_object]⟩
    | anonymous =>
      cases h
      exact ⟨_, rfl, rfl⟩

theorem Signature.within_toJson? {v : Signature} {value : Json} (h : v.toJson? = some value) :
    value.Within 3 := by
  cases v with
  | user name =>
    cases h
    exact within_single (Json.within_string name)
  | system =>
    cases h
    exact within_blank
  | anonymous =>
    cases h
    exact ⟨.null, Nat.zero_le _⟩

/-! ### Items -/

theorem Item.ofJson?_toJson (item : Item) : ofJson? item.toJson = some item := by
  simp [ofJson?, toJson, fields?, Keyed.lookup, Json.list?_array_map Json.lease?_ofLease,
    Json.list?_array_map Json.tag?_ofTag]

theorem Item.within_toJson (item : Item) : item.toJson.Within 3 := by
  have hkeys : ["count", "id", "leases", "reservation", "tags", "version"].Pairwise (· < ·) := by
    decide
  refine Json.within_object (Keyed.ascending_of_keys hkeys rfl) ?_
  simp only [List.forall_mem_cons]
  exact ⟨Json.within_ofUInt64 _, Json.within_string _, within_leases _, Json.within_ofOption _,
    within_tags _, Json.within_ofUInt64 _, nofun⟩

instance : LawfulPayload Item where
  decodes item value h := by
    cases h
    exact ⟨_, rfl, item.ofJson?_toJson⟩

/-! ### All families -/

instance : (f : Family) → LawfulPayload f.Carrier
  | .item => inferInstanceAs (LawfulPayload Delta)
  | .alt => inferInstanceAs (LawfulPayload AltDelta)
  | .agent => inferInstanceAs (LawfulPayload Signature)
  | .snapshot => inferInstanceAs (LawfulPayload Item)

/-- A blob can be told from its text if it has no doubles, and with the envelope around it nests no
more containers than a reader allows. Nothing is asked of any other payload. -/
def Family.Storable : (f : Family) → f.Carrier → Prop
  | .alt, .blob value => value.Within (Json.nestingLimit - 1)
  | _, _ => True

/-- So are the values of all payloads. -/
theorem within_of_storable {f : Family} {v : f.Carrier} (hv : f.Storable v) {value : Json}
    (h : encode v = some value) : value.Within (Json.nestingLimit - 1) := by
  have hdeep : 3 ≤ Json.nestingLimit - 1 := by decide
  cases f with
  | item => exact (Delta.within_toJson? h).mono hdeep
  | agent => exact (Signature.within_toJson? h).mono hdeep
  | snapshot =>
    cases h
    exact (Item.within_toJson v).mono hdeep
  | alt =>
    rcases AltDelta.within_toJson? h with hshallow | rfl
    · exact hshallow.mono hdeep
    · exact hv

end Inventory

end Chronicle
