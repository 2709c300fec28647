import Chronicle.Json.Document
import Chronicle.Proofs.Json.Lexing

/-!
# Reading back written values

A value without doubles whose objects list their members in ascending order (`Json.Canonical`) is
told from its text. The text reads as the tree that stands for the value (`Document.read?_render`),
and that tree is the value again as long as it nests no more containers than the reader allows
(`Document.toJson?_ofJson`).
-/

namespace Chronicle.Json

/-! ### Values and their trees -/

/-- A value without doubles, whose objects list their members in ascending order of their keys. -/
inductive Canonical : Json → Prop
  | null : Canonical .null
  | bool (b : Bool) : Canonical (.bool b)
  | whole (n : Whole) : Canonical (.number (.whole n))
  | string (s : String) : Canonical (.string s)
  | array {items : List Json} (hitems : ∀ item ∈ items, Canonical item) : Canonical (.array items)
  | object {members : List (String × Json)} (hascending : Keyed.Ascending members)
      (hmembers : ∀ member ∈ members, Canonical member.2) : Canonical (.object members)

mutual

/-- How many containers are nested in a value at most. -/
def depth : Json → Nat
  | .array items => itemsDepth items + 1
  | .object members => membersDepth members + 1
  | .null | .bool _ | .number _ | .string _ => 0

/-- How many containers are nested in some items at most. -/
def itemsDepth : List Json → Nat
  | [] => 0
  | item :: items => max (depth item) (itemsDepth items)

/-- How many containers are nested in some members at most. -/
def membersDepth : List (String × Json) → Nat
  | [] => 0
  | (_, value) :: members => max (depth value) (membersDepth members)

end

namespace Document

mutual

/-- The tree of a value. -/
def ofJson : Json → Document
  | .null => .null
  | .bool b => .bool b
  | .number n => .number (some n)
  | .string s => .string (some s)
  | .array items => .array (ofItems items)
  | .object members => .object (ofMembers members)

/-- The trees of some items. -/
def ofItems : List Json → List Document
  | [] => []
  | item :: items => ofJson item :: ofItems items

/-- The trees of some members, under their keys. -/
def ofMembers : List (String × Json) → List (Option String × Document)
  | [] => []
  | (key, value) :: members => (some key, ofJson value) :: ofMembers members

end

/-! ### Parsing -/

namespace Parse

/-- The parser after some further tokens. -/
def run (p : Parse) (ts : List (Token String Number)) : Option Parse :=
  (ts.map Token.known).foldlM step p

theorem run_cons {p p' : Parse} {t : Token String Number} (h : p.step t.known = some p')
    (ts : List (Token String Number)) : p.run (t :: ts) = p'.run ts := by
  rw [run, List.map_cons, List.foldlM_cons, h]
  rfl

variable (rest : List (Token String Number)) (stack : List Frame)

/-- No value starts with the bracket that closes an array. -/
theorem exists_tokens_eq_cons (v : Json) :
    ∃ t ts, tokens rest v = t :: ts ∧ t ≠ .closeBracket := by
  cases v with
  | array items => cases items <;> exact ⟨_, _, rfl, nofun⟩
  | object members => cases members <;> exact ⟨_, _, rfl, nofun⟩
  | _ => exact ⟨_, _, rfl, nofun⟩

/-- So the first item of an array is read like any other value. -/
theorem run_firstItem (v : Json) :
    run ⟨stack, .firstItem⟩ (tokens rest v) = run ⟨.array [] :: stack, .value⟩ (tokens rest v) := by
  obtain ⟨t, ts, htokens, ht⟩ := exists_tokens_eq_cons rest v
  have hstep : step ⟨stack, .firstItem⟩ t.known = step ⟨.array [] :: stack, .value⟩ t.known := by
    cases t with
    | closeBracket => exact absurd rfl ht
    | _ => rfl
  rw [htokens, run, run, List.map_cons, List.foldlM_cons, List.foldlM_cons, hstep]

mutual

/-- The tokens of a value are read as its tree, whatever is open around it. -/
theorem run_tokens : (rest : List (Token String Number)) → (stack : List Frame) → (v : Json) →
    run ⟨stack, .value⟩ (tokens rest v) = run ⟨stack, .after (.ofJson v)⟩ rest
  | rest, _, .null => run_cons rfl rest
  | rest, _, .bool _ => run_cons rfl rest
  | rest, _, .number _ => run_cons rfl rest
  | rest, _, .string _ => run_cons rfl rest
  | rest, _, .array [] => (run_cons rfl _).trans (run_cons rfl rest)
  | rest, stack, .array (item :: items) => by
    have hitem := run_tokens (itemTokens (.closeBracket :: rest) items) (.array [] :: stack) item
    exact (run_cons rfl _).trans ((run_firstItem _ stack item).trans
      (hitem.trans (run_itemTokens rest stack [] (.ofJson item) items)))
  | rest, _, .object [] => (run_cons rfl _).trans (run_cons rfl rest)
  | rest, stack, .object ((key, value) :: members) => by
    have hvalue := run_tokens (memberTokens (.closeBrace :: rest) members)
      (.object [] (some key) :: stack) value
    exact (run_cons rfl _).trans ((run_cons rfl _).trans ((run_cons rfl _).trans
      (hvalue.trans (run_memberTokens rest stack [] (some key) (.ofJson value) members))))

/-- After the first item of an array come the others, up to its end. -/
theorem run_itemTokens : (rest : List (Token String Number)) → (stack : List Frame) →
    (earlier : List Document) → (last : Document) → (items : List Json) →
    run ⟨.array earlier :: stack, .after last⟩ (itemTokens (.closeBracket :: rest) items) =
      run ⟨stack, .after (.array ((last :: earlier).reverse ++ ofItems items))⟩ rest
  | rest, stack, earlier, last, [] => by
    rw [ofItems, List.append_nil]
    exact run_cons rfl rest
  | rest, stack, earlier, last, item :: items => by
    have hitem := run_tokens (itemTokens (.closeBracket :: rest) items)
      (.array (last :: earlier) :: stack) item
    have hitems := run_itemTokens rest stack (last :: earlier) (.ofJson item) items
    rw [List.reverse_cons, List.append_assoc] at hitems
    exact (run_cons rfl _).trans (hitem.trans hitems)

/-- After the first member of an object come the others, up to its end. -/
theorem run_memberTokens : (rest : List (Token String Number)) → (stack : List Frame) →
    (earlier : List (Option String × Document)) → (key : Option String) → (last : Document) →
    (members : List (String × Json)) →
    run ⟨.object earlier key :: stack, .after last⟩
        (memberTokens (.closeBrace :: rest) members) =
      run ⟨stack, .after (.object (((key, last) :: earlier).reverse ++ ofMembers members))⟩ rest
  | rest, stack, earlier, key, last, [] => by
    rw [ofMembers, List.append_nil]
    exact run_cons rfl rest
  | rest, stack, earlier, key, last, (next, value) :: members => by
    have hvalue := run_tokens (memberTokens (.closeBrace :: rest) members)
      (.object ((key, last) :: earlier) (some next) :: stack) value
    have hmembers := run_memberTokens rest stack ((key, last) :: earlier) (some next)
      (.ofJson value) members
    rw [List.reverse_cons, List.append_assoc] at hmembers
    exact (run_cons rfl _).trans ((run_cons rfl _).trans ((run_cons rfl _).trans
      (hvalue.trans hmembers)))

end

end Parse

/-! ### The values of trees -/

section Values

variable {limit : Nat}

/-- A tree is its value if each item of it is, as far as the limit on nesting allows. -/
theorem itemsToJson?_ofItems {items : List Json}
    (h : ∀ item ∈ items, toJson? limit (ofJson item) =
      if item.depth ≤ limit then some item else none) :
    itemsToJson? limit (ofItems items) = if itemsDepth items ≤ limit then some items else none := by
  induction items with
  | nil => rfl
  | cons item items ih =>
    obtain ⟨hitem, hitems⟩ := List.forall_mem_cons.1 h
    rw [ofItems, itemsToJson?, hitem, ih hitems, itemsDepth]
    grind

theorem membersToJson?_ofMembers {members : List (String × Json)}
    (h : ∀ member ∈ members, toJson? limit (ofJson member.2) =
      if member.2.depth ≤ limit then some member.2 else none) :
    membersToJson? limit (ofMembers members) =
      if membersDepth members ≤ limit then some members else none := by
  induction members with
  | nil => rfl
  | cons member members ih =>
    obtain ⟨key, value⟩ := member
    obtain ⟨hmember, hmembers⟩ := List.forall_mem_cons.1 h
    rw [ofMembers, membersToJson?, hmember, ih hmembers, membersDepth]
    grind

end Values

/-- The tree of a value is that value, unless it nests more containers than the reader allows. -/
theorem toJson?_ofJson {v : Json} (h : Canonical v) (limit : Nat) :
    toJson? limit (ofJson v) = if v.depth ≤ limit then some v else none := by
  induction h generalizing limit with
  | null => rw [ofJson, toJson?, depth, if_pos (Nat.zero_le _)]
  | bool b => rw [ofJson, toJson?, depth, if_pos (Nat.zero_le _)]
  | whole n => rw [ofJson, toJson?, depth, if_pos (Nat.zero_le _), Option.map_some]
  | string s => rw [ofJson, toJson?, depth, if_pos (Nat.zero_le _), Option.map_some]
  | @array items hitems ih =>
    rw [ofJson, depth]
    cases limit with
    | zero => rw [toJson?, if_neg (by omega)]
    | succ limit =>
      rw [toJson?, itemsToJson?_ofItems fun item hitem ↦ ih item hitem limit]
      simp only [Nat.add_le_add_iff_right]
      split <;> rfl
  | @object members hascending hmembers ih =>
    rw [ofJson, depth]
    cases limit with
    | zero => rw [toJson?, if_neg (by omega)]
    | succ limit =>
      rw [toJson?, membersToJson?_ofMembers fun member hmember ↦ ih member hmember limit]
      simp only [Nat.add_le_add_iff_right]
      split
      · rw [Option.map_some, Json.ofMembers, Keyed.ofList_eq_self hascending]
      · rfl

end Document

/-! ### The tokens of a value are apart -/

theorem bounded_nil : Bounded [] := by rintro _ ⟨⟩

theorem bounded_mark {t : Token String Number} (ht : t.IsMark) (ts : List (Token String Number)) :
    Bounded (t :: ts) := by
  rintro _ ⟨⟩
  exact ht

section Apart

variable {rest : List (Token String Number)}

/-- What follows an item or a member inside its container starts with a mark. -/
theorem spaced_itemTokens {items : List Json}
    (h : ∀ item ∈ items, ∀ rest, Spaced rest → Bounded rest → Spaced (tokens rest item))
    (hspaced : Spaced rest) (hbounded : Bounded rest) :
    Spaced (itemTokens rest items) ∧ Bounded (itemTokens rest items) := by
  induction items with
  | nil => exact ⟨hspaced, hbounded⟩
  | cons item items ih =>
    obtain ⟨hitem, hitems⟩ := List.forall_mem_cons.1 h
    obtain ⟨hlater, hcomma⟩ := ih hitems
    exact ⟨.mark .comma (hitem _ hlater hcomma), bounded_mark .comma _⟩

theorem spaced_memberTokens {members : List (String × Json)}
    (h : ∀ member ∈ members, ∀ rest, Spaced rest → Bounded rest → Spaced (tokens rest member.2))
    (hspaced : Spaced rest) (hbounded : Bounded rest) :
    Spaced (memberTokens rest members) ∧ Bounded (memberTokens rest members) := by
  induction members with
  | nil => exact ⟨hspaced, hbounded⟩
  | cons member members ih =>
    obtain ⟨hmember, hmembers⟩ := List.forall_mem_cons.1 h
    obtain ⟨hlater, hcomma⟩ := ih hmembers
    exact ⟨.mark .comma (.string _ (.mark .colon (hmember _ hlater hcomma))),
      bounded_mark .comma _⟩

theorem spaced_tokens {v : Json} (h : Canonical v) :
    ∀ rest, Spaced rest → Bounded rest → Spaced (tokens rest v) := by
  induction h with
  | null => exact fun _ hspaced hbounded ↦ .bare .null hbounded hspaced
  | bool b => exact fun _ hspaced hbounded ↦ .bare (.bool b) hbounded hspaced
  | whole n => exact fun _ hspaced hbounded ↦ .bare (.whole n) hbounded hspaced
  | string s => exact fun _ hspaced _ ↦ .string s hspaced
  | @array items _ ih =>
    intro rest hspaced _
    have hclose : Spaced (.closeBracket :: rest) := .mark .closeBracket hspaced
    cases items with
    | nil => exact .mark .openBracket hclose
    | cons item items =>
      obtain ⟨hitem, hitems⟩ := List.forall_mem_cons.1 ih
      obtain ⟨hlater, hcomma⟩ := spaced_itemTokens hitems hclose (bounded_mark .closeBracket _)
      exact .mark .openBracket (hitem _ hlater hcomma)
  | @object members _ _ ih =>
    intro rest hspaced _
    have hclose : Spaced (.closeBrace :: rest) := .mark .closeBrace hspaced
    cases members with
    | nil => exact .mark .openBrace hclose
    | cons member members =>
      obtain ⟨hmember, hmembers⟩ := List.forall_mem_cons.1 ih
      obtain ⟨hlater, hcomma⟩ := spaced_memberTokens hmembers hclose (bounded_mark .closeBrace _)
      exact .mark .openBrace (.string _ (.mark .colon (hmember _ hlater hcomma)))

end Apart

/-- The text of a value reads as the tree of the value. -/
theorem Document.read?_render {v : Json} (h : Canonical v) :
    Document.read? (Wire.ofString v.render) = some (.ofJson v) := by
  rw [Document.read?, render, lex_chars (spaced_tokens h [] .nil bounded_nil)]
  show ((Parse.run ⟨[], .value⟩ (tokens [] v)).bind Parse.document?) = _
  rw [Parse.run_tokens]
  rfl

end Chronicle.Json
