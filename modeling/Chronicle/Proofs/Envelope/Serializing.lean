import Chronicle.Envelope.Wire
import Chronicle.Proofs.Json.Rendering

/-!
# Reading back written envelopes

An envelope reads back from its wire text as it was, whatever its headers, if its value is canonical
and nests few enough containers; the envelope itself is one more (`Envelope.outcome_ofWire_wire`).
-/

namespace Chronicle.Envelope

open Json (Document)

/-! ### Headers -/

theorem canonical_headersToJson (headers : Headers) : (headersToJson headers).Canonical := by
  refine .object (List.pairwise_map.2 headers.ascending) fun member hmember ↦ ?_
  obtain ⟨entry, -, rfl⟩ := List.mem_map.1 hmember
  exact .string entry.2

theorem mapM_ofMembers {read : Option String × Document → Option (String × String)}
    (h : ∀ key text, read (some key, .string (some text)) = some (key, text))
    (entries : List (String × String)) :
    (Document.ofMembers (entries.map fun e ↦ (e.1, .string e.2))).mapM read = some entries := by
  induction entries with
  | nil => rfl
  | cons entry entries ih =>
    rw [List.map_cons, Document.ofMembers, List.mapM_cons, Document.ofJson, h, ih]
    rfl

/-- The headers of an envelope are read from their tree. -/
theorem headersOf?_ofJson (headers : Headers) :
    headersOf? (.ofJson (headersToJson headers)) = some headers := by
  rw [headersToJson, Document.ofJson, headersOf?, mapM_ofMembers fun _ _ ↦ rfl]
  exact congrArg some headers.ofList_entries

/-! ### Envelopes -/

theorem canonical_toJson {e : Envelope} (h : e.value.Canonical) : e.toJson.Canonical := by
  have hkeys : ["headers", "value"].Pairwise (· < ·) := by decide
  refine .object (Keyed.ascending_of_keys hkeys rfl) ?_
  simp only [List.forall_mem_cons]
  exact ⟨canonical_headersToJson e.headers, h, nofun⟩

/-- Inside an envelope there is room for one container less. -/
theorem valueOf?_ofJson {v : Json} (h : v.Canonical) :
    valueOf? (.ofJson v) = if v.depth < Json.nestingLimit then some v else none := by
  have hlimit : v.depth ≤ Json.nestingLimit - 1 ↔ v.depth < Json.nestingLimit :=
    Nat.le_sub_one_iff_lt (by decide)
  rw [valueOf?, Document.toJson?_ofJson h]
  simp only [hlimit]

theorem ofDocument?_ofJson {e : Envelope} (h : e.value.Canonical) :
    ofDocument? (.ofJson e.toJson) =
      if e.value.depth < Json.nestingLimit then some e else none := by
  have hread : ofDocument? (.ofJson e.toJson) =
      (do pure ⟨← headersOf? (.ofJson (headersToJson e.headers)), ← valueOf? (.ofJson e.value)⟩) :=
    rfl
  rw [hread, headersOf?_ofJson, valueOf?_ofJson h]
  split <;> rfl

/-- The wire text of an envelope reads as the envelope, unless its value nests too many containers.
-/
theorem outcome_ofWire_wire {e : Envelope} (h : e.value.Canonical) :
    (ofWire (Wire.ofString e.wire)).outcome =
      if e.value.depth < Json.nestingLimit then .ok e
      else .error (.deserializationFailed wireTypeName) := by
  rw [ofWire, wire, Document.read?_render (canonical_toJson h), Option.bind_some,
    ofDocument?_ofJson h]
  by_cases hdepth : e.value.depth < Json.nestingLimit
  case pos =>
    rw [if_pos hdepth, if_pos hdepth]
    rfl
  case neg =>
    rw [if_neg hdepth, if_neg hdepth]
    rfl

end Chronicle.Envelope
