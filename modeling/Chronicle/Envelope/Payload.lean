import Chronicle.Json.Basic

/-!
# Payloads

A payload type is a closed family of variants, each with a name. A payload can be packed: the name
of its variant and a value without any trace of that name. It is unpacked by the decoder declared
for the name.
-/

namespace Chronicle

/-- Types whose elements can be named and encoded. -/
class Packable (T : Type) where
  /-- The name of the variant. -/
  typeName : T → String
  /-- The value of the variant, unless it has none. -/
  encode : T → Option Json

export Packable (typeName encode)

/-- A payload of either of two types. -/
instance {S T : Type} [Packable S] [Packable T] : Packable (S ⊕ T) where
  typeName := Sum.elim typeName typeName
  encode := Sum.elim encode encode

/-- How a bare value is read as a payload. -/
abbrev Decoder (T : Type) := Json → Option T

/-- Decoders by the names they are declared for, latest first. -/
structure Declared (T : Type) where
  decoders : List (String × Decoder T) := []

namespace Declared

variable {T : Type}

/-- Declares a decoder for a name, in place of any it had. -/
def declare (declared : Declared T) (name : String) (decoder : Decoder T) : Declared T :=
  ⟨(name, decoder) :: declared.decoders⟩

/-- The decoder of a name. -/
def decoder? (declared : Declared T) (name : String) : Option (Decoder T) :=
  declared.decoders.lookup name

/-- The declared names, each once, in ascending order. -/
def names (declared : Declared T) : List String :=
  (Keyed.ofList (declared.decoders.map fun d ↦ (d.1, ()))).map (·.1)

end Declared

/-- A closed family of variants that can be packed and unpacked. -/
class Payload (T : Type) extends Packable T where
  /-- The decoder of each variant. -/
  declared : Declared T

end Chronicle
