import Chronicle.Json.Lexer

/-!
# The tree of a JSON text

A document is the tree that a text writes down, before anything is judged: members stand in the
order of the text, repeated keys included, and strings and numbers may be unknown. Nesting is
unlimited here, because the parser keeps its own stack; `Document.toJson?` is where a document
becomes a value, and where the limit on nesting, the unknown contents and the repeated keys are
dealt with.
-/

namespace Chronicle.Json

/-- The tree of a text. -/
inductive Document where
  | null
  | bool (b : Bool)
  | number (n : Option Number)
  | string (s : Option String)
  | array (items : List Document)
  | object (members : List (Option String × Document))

namespace Document

/-! ### The parser -/

/-- A container that is still open, with what it holds so far, latest first. The key is that of the
member whose value is being read. -/
inductive Frame where
  | array (items : List Document)
  | object (members : List (Option String × Document)) (key : Option String)

/-- What may come next: a value, the first item or the end of an array, the first key or the end of
an object, a further key, the colon after a key, or whatever follows a value. -/
inductive Awaits where
  | value
  | firstItem
  | firstKey
  | key (members : List (Option String × Document))
  | colon (members : List (Option String × Document)) (key : Option String)
  | after (value : Document)

/-- The open containers, innermost first, and what may come next. -/
structure Parse where
  stack : List Frame
  awaits : Awaits

namespace Parse

/-- The parser before the first token. -/
def start : Parse := ⟨[], .value⟩

/-- Reads a value, or the bracket that opens one. -/
def value? (stack : List Frame) : Lexeme → Option Parse
  | .null => some ⟨stack, .after .null⟩
  | .bool b => some ⟨stack, .after (.bool b)⟩
  | .number n => some ⟨stack, .after (.number n)⟩
  | .string s => some ⟨stack, .after (.string s)⟩
  | .openBracket => some ⟨stack, .firstItem⟩
  | .openBrace => some ⟨stack, .firstKey⟩
  | _ => none

/-- Reads what follows a value inside its container. -/
def after? (value : Document) : List Frame → Lexeme → Option Parse
  | .array items :: stack, .comma => some ⟨.array (value :: items) :: stack, .value⟩
  | .array items :: stack, .closeBracket =>
    some ⟨stack, .after (.array (value :: items).reverse)⟩
  | .object members key :: stack, .comma => some ⟨stack, .key ((key, value) :: members)⟩
  | .object members key :: stack, .closeBrace =>
    some ⟨stack, .after (.object ((key, value) :: members).reverse)⟩
  | _, _ => none

/-- Reads one token. -/
def step (p : Parse) (token : Lexeme) : Option Parse :=
  match p.awaits, token with
  | .value, token => value? p.stack token
  | .firstItem, .closeBracket => some ⟨p.stack, .after (.array [])⟩
  | .firstItem, token => value? (.array [] :: p.stack) token
  | .firstKey, .closeBrace => some ⟨p.stack, .after (.object [])⟩
  | .firstKey, .string key => some ⟨p.stack, .colon [] key⟩
  | .key members, .string key => some ⟨p.stack, .colon members key⟩
  | .colon members key, .colon => some ⟨.object members key :: p.stack, .value⟩
  | .after value, token => after? value p.stack token
  | _, _ => none

/-- The document, once a value has been read and every container is closed. -/
def document? (p : Parse) : Option Document :=
  match p with
  | ⟨[], .after value⟩ => some value
  | _ => none

end Parse

/-- The document of a list of tokens. -/
def ofTokens? (tokens : List Lexeme) : Option Document :=
  (tokens.foldlM Parse.step Parse.start).bind Parse.document?

/-- The document of a text. -/
def read? (text : Wire) : Option Document := (lex text).bind ofTokens?

/-! ### The value of a document -/

mutual

/-- The value of a document with at most `depth` nested containers, all of whose contents are known.
Of the members of one key the last counts. -/
def toJson? (depth : Nat) : Document → Option Json
  | .null => some .null
  | .bool b => some (.bool b)
  | .number n => n.map .number
  | .string s => s.map .string
  | .array items =>
    match depth with
    | 0 => none
    | depth + 1 => (itemsToJson? depth items).map .array
  | .object members =>
    match depth with
    | 0 => none
    | depth + 1 => (membersToJson? depth members).map .ofMembers

/-- The values of the items of an array. -/
def itemsToJson? (depth : Nat) : List Document → Option (List Json)
  | [] => some []
  | item :: items => do
    let item ← toJson? depth item
    let items ← itemsToJson? depth items
    pure (item :: items)

/-- The members of an object, all of whose keys must be known. -/
def membersToJson? (depth : Nat) :
    List (Option String × Document) → Option (List (String × Json))
  | [] => some []
  | (key, value) :: members => do
    let key ← key
    let value ← toJson? depth value
    let members ← membersToJson? depth members
    pure ((key, value) :: members)

end

end Document

/-- How many containers may be nested in a text. -/
def nestingLimit : Nat := 127

/-- The value of a text. -/
def read? (text : Wire) : Option Json :=
  (Document.read? text).bind (Document.toJson? nestingLimit)

/-- The value of a text. -/
def parse? (text : String) : Option Json := read? (Wire.ofString text)

end Chronicle.Json
