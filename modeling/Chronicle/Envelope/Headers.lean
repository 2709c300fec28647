import Chronicle.Text.Keyed
import Chronicle.Text.Quoted

/-!
# Headers

The headers of an envelope map texts to texts. One of them names the type of the payload; the others
are hints for the resolvers of types.
-/

namespace Chronicle

/-- A map from texts to texts, in ascending order of its keys. -/
structure Headers where
  entries : List (String × String)
  ascending : Keyed.Ascending entries
deriving DecidableEq

namespace Headers

/-- The key of the header that names the type of the payload. -/
def typeKey : String := "Type"

/-- No headers. -/
def empty : Headers := ⟨[], List.Pairwise.nil⟩

/-- Puts a value under a key, in place of any value it had. -/
def insert (headers : Headers) (key value : String) : Headers :=
  ⟨Keyed.insert key value headers.entries, headers.ascending.insert key value⟩

/-- The headers of a list of entries, where a later entry replaces an earlier one of the same key.
-/
def ofList (entries : List (String × String)) : Headers :=
  ⟨Keyed.ofList entries, Keyed.ascending_ofList entries⟩

/-- The headers that only name a type. -/
def ofTypeName (name : String) : Headers := empty.insert typeKey name

/-- The value under a key. -/
def get? (headers : Headers) (key : String) : Option String := Keyed.lookup key headers.entries

/-- The name of the type of the payload. -/
def typeName? (headers : Headers) : Option String := headers.get? typeKey

/-- The entries between braces, quoted. -/
def text (headers : Headers) : String :=
  "\x7b" ++ ", ".intercalate
    (headers.entries.map fun e ↦ Quoted.quote e.1 ++ ": " ++ Quoted.quote e.2) ++ "\x7d"

@[simp] theorem ofList_entries (headers : Headers) : ofList headers.entries = headers := by
  cases headers
  simp_all [ofList, Keyed.ofList_eq_self]

@[simp] theorem typeName?_ofTypeName (name : String) : (ofTypeName name).typeName? = some name := by
  simp [typeName?, get?, ofTypeName, insert, Keyed.lookup_insert]

end Headers

end Chronicle
