import Chronicle.Envelope.Resolver
import Chronicle.Inventory.Item

/-!
# The registry of the inventory

A registry may hold a chain for each of the four payload types. Chains are described by rules, from
which the resolvers are made.
-/

namespace Chronicle.Inventory

/-! ### Rules -/

/-- A rule of a resolver. A rule that leads to a name declines where the name is not declared. -/
inductive Rule where
  /-- Reads one type name as another. -/
  | map (name target : String)
  /-- Reads payloads with a hint among their headers as a type. -/
  | hint (key value target : String)
  /-- Reads every payload as a type. -/
  | always (target : String)
  /-- Makes something of every payload. -/
  | constant
  | decline
  | fail
  /-- Declares aliases of type names. -/
  | declare (aliases : List (String × String))
deriving DecidableEq

/-- Payload types that something can be made of in any case. -/
class Fallback (T : Type) where
  fallback : Json → T

instance : Fallback Delta := ⟨fun _ ↦ .count 999⟩
instance : Fallback AltDelta := ⟨fun value ↦ .blob (.object [("was", value)])⟩
instance : Fallback Signature := ⟨fun _ ↦ .system⟩
instance : Fallback Item := ⟨fun _ ↦ .construct .nil⟩

namespace Rule

variable {T : Type} [Payload T]

/-- The decoder that a payload type declares for a name. -/
def target? (name : String) : Option (Decoder T) := (Payload.declared (T := T)).decoder? name

/-- The declared aliases of names that are declared themselves. -/
def declareAliases (aliases : List (String × String)) : Declared T :=
  aliases.foldl (fun declared (name, target) ↦
    match target? target with
    | some decoder => declared.declare name decoder
    | none => declared) {}

/-- The verdict of a rule on headers. -/
def verdict [Fallback T] (rule : Rule) (headers : Headers) : Verdict (Decoder T) :=
  match rule with
  | .map name target =>
    if headers.typeName? = some name then .ofOption (target? target) else .declined
  | .hint key value target =>
    if headers.get? key = some value then .ofOption (target? target) else .declined
  | .always target => .ofOption (target? target)
  | .constant => .accepted fun value ↦ some (Fallback.fallback value)
  | .decline => .declined
  | .fail => .failed
  | .declare aliases => (declareAliases aliases).resolver.verdict headers

/-- The resolver of a rule. Aliases are reported under the name of declared names. -/
def resolver [Fallback T] (rule : Rule) (name : String) : Resolver T where
  name := match rule with
    | .declare aliases => (declareAliases (T := T) aliases).resolver.name
    | _ => name
  verdict := rule.verdict

end Rule

/-- A chain of named rules, registered in order on top of the declared names or of nothing. -/
structure ChainRules where
  standard : Bool
  rules : List (String × Rule)
deriving DecidableEq

/-- The chain of some rules. -/
def ChainRules.chain {T : Type} [Payload T] [Fallback T] (c : ChainRules) : Chain T :=
  c.rules.foldl (fun chain (name, rule) ↦ chain.register (rule.resolver name))
    (if c.standard then Chain.standard T else Chain.empty)

/-! ### Payload types by name -/

/-- The payload types. -/
inductive Family where
  | item
  | alt
  | agent
  | snapshot
deriving DecidableEq

/-- The payloads of a family. -/
abbrev Family.Carrier : Family → Type
  | .item => Delta
  | .alt => AltDelta
  | .agent => Signature
  | .snapshot => Item

instance : (f : Family) → Payload f.Carrier
  | .item => inferInstanceAs (Payload Delta)
  | .alt => inferInstanceAs (Payload AltDelta)
  | .agent => inferInstanceAs (Payload Signature)
  | .snapshot => inferInstanceAs (Payload Item)

/-! ### Registries -/

/-- The registered chains. -/
structure Registry where
  item : Option (Chain Delta) := none
  alt : Option (Chain AltDelta) := none
  agent : Option (Chain Signature) := none
  snapshot : Option (Chain Item) := none

namespace Registry

instance : Resolves Registry Delta := ⟨Registry.item⟩
instance : Resolves Registry AltDelta := ⟨Registry.alt⟩
instance : Resolves Registry Signature := ⟨Registry.agent⟩
instance : Resolves Registry Item := ⟨Registry.snapshot⟩

instance : (f : Family) → Resolves Registry f.Carrier
  | .item => inferInstanceAs (Resolves Registry Delta)
  | .alt => inferInstanceAs (Resolves Registry AltDelta)
  | .agent => inferInstanceAs (Resolves Registry Signature)
  | .snapshot => inferInstanceAs (Resolves Registry Item)

/-- Registers a chain, in place of any the family had. -/
def register (r : Registry) (family : Family) (c : ChainRules) : Registry :=
  match family with
  | .item => { r with item := some c.chain }
  | .alt => { r with alt := some c.chain }
  | .agent => { r with agent := some c.chain }
  | .snapshot => { r with snapshot := some c.chain }

/-- How many chains are registered. -/
def size (r : Registry) : Nat :=
  r.item.isSome.toNat + r.alt.isSome.toNat + r.agent.isSome.toNat + r.snapshot.isSome.toNat

/-- The registry as the service that uses it shows it. -/
def text (r : Registry) : String :=
  "EnvelopeService \x7b registry: TypeRegistry \x7b chains: " ++ toString r.size ++ " \x7d \x7d"

end Registry

end Chronicle.Inventory
