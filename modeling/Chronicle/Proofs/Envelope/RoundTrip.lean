import Chronicle.Proofs.Envelope.Resolution
import Chronicle.Proofs.Envelope.Serializing
import Chronicle.Proofs.Inventory.Payloads
import Chronicle.Proofs.Text.Utf8

/-!
# Round trips

A payload that has a value comes back from its envelope, and from the bytes that the envelope is
written as, through every chain on which the declared names are not overridden
(`Chain.Declares`). A payload that has none, or whose value is `null`, is refused.
-/

namespace Chronicle

variable {R T : Type} [Payload T]

/-- The chain knows the declared names, and no resolver that was registered after them accepts the
headers. -/
def Chain.Declares (chain : Chain T) (headers : Headers) : Prop :=
  ∃ earlier later, chain.resolvers = (earlier ++ Payload.declared.resolver :: later).reverse ∧
    ∀ resolver ∈ later, ¬ resolver.Accepts headers

/-- So the declared names decide. -/
theorem Chain.Declares.resolve?_eq_some {chain : Chain T} {name : String} {decoder : Decoder T}
    (h : chain.Declares (.ofTypeName name))
    (hdecoder : Payload.declared.decoder? name = some decoder) :
    chain.resolve? (.ofTypeName name) = some decoder := by
  obtain ⟨earlier, later, hresolvers, hlater⟩ := h
  refine (Chain.resolve?_eq_some_iff hresolvers).2 ⟨earlier, _, later, rfl, ?_, hlater⟩
  exact Declared.verdict_resolver_eq_accepted_iff.2
    ⟨name, Headers.typeName?_ofTypeName name, hdecoder⟩

namespace Envelope

/-! ### Payloads -/

omit [Payload T] in
theorem outcome_pack_of_no_value [Packable T] {v : T}
    (h : encode v = none ∨ encode v = some .null) :
    (pack v).outcome = .error (.serializationFailed (typeName v)) := by
  rcases h with h | h
  all_goals
    rw [pack, h]
    rfl

omit [Payload T] in
theorem outcome_pack_of_value [Packable T] {v : T} {value : Json} (h : encode v = some value)
    (hnull : value ≠ .null) : (pack v).outcome = .ok ⟨.ofTypeName (typeName v), value⟩ := by
  have hvalue : value.isNull = false := by
    cases value with
    | null => exact absurd rfl hnull
    | _ => rfl
  rw [pack, h]
  dsimp only
  rw [hvalue]
  rfl

omit [Payload T] in
theorem outcome_packWire_of_value [Packable T] {v : T} {value : Json} (h : encode v = some value)
    (hnull : value ≠ .null) :
    (packWire v).outcome = .ok (Envelope.mk (.ofTypeName (typeName v)) value).wire := by
  rw [packWire, Attempt.outcome_bind, outcome_pack_of_value h hnull]
  rfl

/-- The decoder of its name reads a payload out of its envelope. -/
theorem outcome_unpack_of_declares [LawfulPayload T] [Resolves R T] {registry : R} {v : T}
    {value : Json} (hchain : (chainOf registry T).Declares (.ofTypeName (typeName v)))
    (h : encode v = some value) :
    (unpack T registry ⟨.ofTypeName (typeName v), value⟩).outcome = .ok v := by
  obtain ⟨decoder, hdecoder, hdecodes⟩ := LawfulPayload.decodes v value h
  rw [unpack, Attempt.outcome_bind, Chain.outcome_resolve, hchain.resolve?_eq_some hdecoder,
    Option.elim_some, Except.ok_bind, hdecodes]
  rfl

/-- The wire text of its envelope reads as the payload. -/
theorem outcome_unpackWire_wire [LawfulPayload T] [Resolves R T] {registry : R} {v : T}
    {value : Json} (hchain : (chainOf registry T).Declares (.ofTypeName (typeName v)))
    (h : encode v = some value) (hvalue : value.Within (Json.nestingLimit - 1)) :
    (unpackWire T registry
      (Wire.ofString (Envelope.mk (.ofTypeName (typeName v)) value).wire)).outcome = .ok v := by
  have hdepth : value.depth < Json.nestingLimit := Nat.lt_of_le_of_lt hvalue.2 (by decide)
  have hread := outcome_ofWire_wire (e := ⟨.ofTypeName (typeName v), value⟩) hvalue.1
  rw [unpackWire, Attempt.outcome_bind, hread, if_pos hdepth]
  exact outcome_unpack_of_declares hchain h

/-! ### Bytes -/

/-- The bytes of a text. -/
def bytes (text : String) : List UInt8 := text.toUTF8.data.toList

/-- **Round trip.** Whatever the chains of the registry, a payload whose name is accepted by none of
the resolvers registered after the declared names is refused just when it has no value or its value
is `null`, and else it is read back from its envelope, and from the bytes of its envelope if it can
be stored. The bytes of any envelope, with whatever headers, read as the envelope exactly if its
value does not nest too many containers. -/
theorem roundTrip_exact (f : Inventory.Family) (registry : Inventory.Registry) :
    (∀ v : f.Carrier, (chainOf registry f.Carrier).Declares (.ofTypeName (typeName v)) →
      (encode v = none ∨ encode v = some .null →
        (pack v).outcome = .error (.serializationFailed (typeName v)) ∧
          (packWire v).outcome = .error (.serializationFailed (typeName v))) ∧
      (¬ (encode v = none ∨ encode v = some .null) →
        (pack v >>= unpack f.Carrier registry).outcome = .ok v ∧
          (f.Storable v →
            (packWire v >>= fun text ↦
              unpackWire f.Carrier registry (Wire.ofBytes (bytes text))).outcome = .ok v))) ∧
    ∀ e : Envelope, e.value.Canonical →
      (ofWire (Wire.ofBytes (bytes e.wire))).outcome =
        if e.value.depth < Json.nestingLimit then .ok e
        else .error (.deserializationFailed wireTypeName) := by
  refine ⟨fun v hchain ↦ ⟨fun hno ↦ ?_, fun hsome ↦ ?_⟩, fun e h ↦ ?_⟩
  · have hpack := outcome_pack_of_no_value hno
    rw [packWire, Attempt.outcome_bind, hpack]
    exact ⟨rfl, rfl⟩
  · obtain ⟨value, hvalue⟩ := Option.ne_none_iff_exists'.1 fun hnone ↦ hsome (.inl hnone)
    have hnull : value ≠ .null := fun hnull ↦ hsome (.inr (hnull ▸ hvalue))
    refine ⟨?_, fun hstorable ↦ ?_⟩
    · rw [Attempt.outcome_bind, outcome_pack_of_value hvalue hnull]
      exact outcome_unpack_of_declares hchain hvalue
    · rw [Attempt.outcome_bind, outcome_packWire_of_value hvalue hnull, Except.ok_bind, bytes,
        Wire.ofBytes_toUTF8]
      exact outcome_unpackWire_wire hchain hvalue (Inventory.within_of_storable hstorable hvalue)
  · rw [bytes, Wire.ofBytes_toUTF8, outcome_ofWire_wire h]

section Passing

open Inventory

/-- A registry in which a resolver that declines and one that fails come after the declared names.
-/
def passing : Registry where
  alt := some (Chain.build true [Rule.decline.resolver "idle", Rule.fail.resolver "broken"])

/-- A blob of integers at both ends of their range, and of a text that has to be escaped. -/
def escaped : AltDelta :=
  .blob (.object [
    ("\"text\"", .string "a\\b\n\x00"),
    ("ends", .array [.ofUInt64 0xffffffffffffffff, .ofInt64 (-0x8000000000000000), .null])])

/-- It comes back from the bytes of its envelope. -/
theorem roundTrip_exact_escaped :
    (chainOf passing AltDelta).Declares (.ofTypeName (typeName escaped)) ∧
      ¬ (encode escaped = none ∨ encode escaped = some .null) ∧
      Family.Storable .alt escaped ∧
      (packWire escaped >>= fun text ↦
        unpackWire AltDelta passing (Wire.ofBytes (bytes text))).outcome = .ok escaped := by
  have hchain : (chainOf passing AltDelta).Declares (.ofTypeName (typeName escaped)) := by
    refine ⟨[], [Rule.decline.resolver "idle", Rule.fail.resolver "broken"], rfl, ?_⟩
    simp only [List.forall_mem_cons]
    exact ⟨nofun, nofun, nofun⟩
  have hvalue : ¬ (encode escaped = none ∨ encode escaped = some .null) := by
    rintro (h | h) <;> cases h
  have hstorable : Family.Storable .alt escaped := by
    have hkeys : ["\"text\"", "ends"].Pairwise (· < ·) := by decide
    refine Json.within_object (Keyed.ascending_of_keys hkeys rfl) ?_
    simp only [List.forall_mem_cons]
    refine ⟨Json.within_string _, Json.within_array ?_, nofun⟩
    simp only [List.forall_mem_cons]
    exact ⟨Json.within_ofUInt64 _, Json.within_ofInt64 _, ⟨.null, Nat.zero_le _⟩, nofun⟩
  exact ⟨hchain, hvalue, hstorable,
    (((roundTrip_exact .alt passing).1 escaped hchain).2 hvalue).2 hstorable⟩

end Passing

end Envelope

end Chronicle
