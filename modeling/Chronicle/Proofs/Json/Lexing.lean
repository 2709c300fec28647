import Chronicle.Proofs.Json.Contents

/-!
# Reading back written tokens

Tokens that are written one after another are told apart if no word and no numeral runs into what
follows it (`Spaced`). They are read back as they are (`lex_chars`). The machine reads one token
after another: a mark from any state in which all before it is a whole number of tokens, and any
other token from between two of them.
-/

namespace Chronicle.Json

/-! ### Tokens apart -/

/-- A token that ends where it is written. -/
inductive Token.IsMark : Token String Number → Prop
  | openBrace : IsMark .openBrace
  | closeBrace : IsMark .closeBrace
  | openBracket : IsMark .openBracket
  | closeBracket : IsMark .closeBracket
  | comma : IsMark .comma
  | colon : IsMark .colon

/-- A word or the numeral of an integer, which ends only where something else starts. -/
inductive Token.IsBare : Token String Number → Prop
  | null : IsBare .null
  | bool (b : Bool) : IsBare (.bool b)
  | whole (n : Whole) : IsBare (.number (.whole n))

/-- There is nothing, or a mark to start with. -/
def Bounded (ts : List (Token String Number)) : Prop := ∀ t ∈ ts.head?, t.IsMark

/-- Tokens that can be told apart: words and numerals stand before marks. None is a double. -/
inductive Spaced : List (Token String Number) → Prop
  | nil : Spaced []
  | mark {t : Token String Number} {ts : List (Token String Number)} (ht : t.IsMark)
      (hts : Spaced ts) : Spaced (t :: ts)
  | string (s : String) {ts : List (Token String Number)} (hts : Spaced ts) :
      Spaced (.string s :: ts)
  | bare {t : Token String Number} {ts : List (Token String Number)} (ht : t.IsBare)
      (hbounded : Bounded ts) (hts : Spaced ts) : Spaced (t :: ts)

/-- A token whose contents are known. -/
def Token.known : Token String Number → Lexeme
  | .openBrace => .openBrace
  | .closeBrace => .closeBrace
  | .openBracket => .openBracket
  | .closeBracket => .closeBracket
  | .comma => .comma
  | .colon => .colon
  | .null => .null
  | .bool b => .bool b
  | .string s => .string (some s)
  | .number n => .number (some n)

namespace Scan

/-- The machine after some further characters. -/
def run (s : Scan) (cs : List Char) : Option Scan := (cs.map some).foldlM step s

theorem run_cons {s s' : Scan} {c : Char} (h : s.step (some c) = some s') (cs : List Char) :
    s.run (c :: cs) = s'.run cs := by
  rw [run, List.map_cons, List.foldlM_cons, h]
  rfl

theorem run_append {s s' : Scan} {cs : List Char} (h : s.run cs = some s') (ds : List Char) :
    s.run (cs ++ ds) = s'.run ds := by
  rw [run, List.map_append, List.foldlM_append]
  rw [run] at h
  rw [h]
  rfl

variable {s : Scan} {read : List Lexeme}

/-! ### Marks -/

/-- A character that belongs to no word and no numeral ends the one before it. -/
theorem step_of_close {c : Char} (hword : isWordChar c = false) (hnumeral : isNumeralChar c = false)
    (hclose : s.close? = some read) : s.step (some c) = open? read c := by
  obtain ⟨mode, earlier⟩ := s
  cases mode with
  | between =>
    obtain rfl : earlier = read := Option.some.inj hclose
    rfl
  | word letters =>
    simp [step, hword, hclose]
  | numeral chars =>
    simp [step, hnumeral, hclose]
  | quoted body escaped => cases hclose

theorem run_mark {t : Token String Number} (ht : t.IsMark) (hclose : s.close? = some read) :
    s.run t.chars = some ⟨.between, t.known :: read⟩ := by
  cases ht <;> exact run_cons (step_of_close rfl rfl hclose) []

/-! ### Strings -/

variable {body : Wire}

theorem run_plain {c : Char} (h : IsPlain c) :
    run ⟨.quoted body false, read⟩ [c] = some ⟨.quoted (some c :: body) false, read⟩ := by
  obtain ⟨hquote, hbackslash, hcontrol⟩ := h
  have hstep : step ⟨.quoted body false, read⟩ (some c) =
      some ⟨.quoted (some c :: body) false, read⟩ := by
    simp [step, inString?, hquote, hbackslash, hcontrol]
  exact run_cons hstep []

theorem run_plains {cs : List Char} (h : ∀ c ∈ cs, IsPlain c) :
    run ⟨.quoted body false, read⟩ cs =
      some ⟨.quoted (cs.reverse.map some ++ body) false, read⟩ := by
  induction cs generalizing body with
  | nil => rfl
  | cons c cs ih =>
    obtain ⟨hc, hcs⟩ := List.forall_mem_cons.1 h
    refine (run_append (run_plain hc) cs).trans ((ih hcs).trans ?_)
    simp

/-- Whatever follows a backslash stays between the quotes. -/
theorem run_backslash (letter : Char) :
    run ⟨.quoted body false, read⟩ ['\\', letter] =
      some ⟨.quoted (some letter :: some '\\' :: body) false, read⟩ := rfl

/-- What a character is written as stays between the quotes. -/
theorem run_escape (c : Char) :
    run ⟨.quoted body false, read⟩ (Token.escape c) =
      some ⟨.quoted ((Token.escape c).reverse.map some ++ body) false, read⟩ := by
  obtain ⟨letter, hescape, -, -⟩ | ⟨hescape, -⟩ | ⟨hescape, hplain⟩ := escape_cases c
  · rw [hescape, run_backslash]
    rfl
  · rw [hescape, run_append (run_backslash 'u'), run_plains isPlain_of_mem_write]
    simp
  · rw [hescape, run_plain hplain]
    rfl

theorem run_escapes (cs : List Char) :
    run ⟨.quoted body false, read⟩ (cs.flatMap Token.escape) =
      some ⟨.quoted ((cs.flatMap Token.escape).reverse.map some ++ body) false, read⟩ := by
  induction cs generalizing body with
  | nil => rfl
  | cons c cs ih =>
    rw [List.flatMap_cons, run_append (run_escape c), ih]
    simp

/-- The quote ends the string, which reads as the text that it was written for. -/
theorem run_string (text : String) (hclose : s.close? = some read) :
    s.run (Token.string text).chars = some ⟨.between, (Token.string text).known :: read⟩ := by
  have hopen : s.run ['"'] = some ⟨.quoted [] false, read⟩ :=
    run_cons (step_of_close rfl rfl hclose) []
  have hchars : (Token.string text).chars = ['"'] ++ (text.toList.flatMap Token.escape ++ ['"']) :=
    rfl
  have hend : step ⟨.quoted ((text.toList.flatMap Token.escape).reverse.map some) false, read⟩
      (some '"') = some ⟨.between, (Token.string text).known :: read⟩ := by
    show (unescape _).bind _ = _
    rw [List.map_reverse, List.reverse_reverse, unescape_escape]
    show some (Scan.mk .between (.string (some (String.ofList text.toList)) :: read)) = _
    rw [String.ofList_toList]
    rfl
  rw [hchars, run_append hopen, run_append (run_escapes text.toList), List.append_nil]
  exact run_cons hend []

/-! ### Words and numerals -/

theorem open?_digit {c : Char} (h : c.isDigit = true) :
    open? read c = some ⟨.numeral [c], read⟩ := by
  have hother {d : Char} (hd : d.isDigit = false) : c ≠ d := by
    rintro rfl
    rw [h] at hd
    cases hd
  rw [open?, if_neg, if_neg (hother rfl), if_neg (hother rfl), if_neg (hother rfl),
    if_neg (hother rfl), if_neg (hother rfl), if_neg (hother rfl), if_neg (hother rfl),
    if_pos (.inl h)]
  rintro (h | h | h | h) <;> exact hother rfl h

theorem run_digits {chars digits : List Char} (h : ∀ c ∈ digits, c.isDigit = true) :
    run ⟨.numeral chars, read⟩ digits = some ⟨.numeral (digits.reverse ++ chars), read⟩ := by
  induction digits generalizing chars with
  | nil => rfl
  | cons c digits ih =>
    obtain ⟨hc, hdigits⟩ := List.forall_mem_cons.1 h
    have hstep : step ⟨.numeral chars, read⟩ (some c) = some ⟨.numeral (c :: chars), read⟩ := by
      simp [step, isNumeralChar, hc]
    rw [run_cons hstep, ih hdigits]
    simp

/-- All of a numeral is read as one. -/
theorem run_numeral (n : Whole) :
    run ⟨.between, read⟩ (Token.numeral (.whole n)) =
      some ⟨.numeral (Token.numeral (.whole n)).reverse, read⟩ := by
  have hdigits : ∀ c ∈ Nat.toDigits 10 n.value.natAbs, c.isDigit = true :=
    fun _ ↦ isDigit_of_mem_toDigits
  by_cases hnegative : n.value < 0
  case pos =>
    have hnumeral : Token.numeral (.whole n) = ['-'] ++ Nat.toDigits 10 n.value.natAbs :=
      if_pos hnegative
    have hminus : run ⟨.between, read⟩ ['-'] = some ⟨.numeral ['-'], read⟩ := rfl
    rw [hnumeral, run_append hminus, run_digits hdigits]
    simp
  case neg =>
    have hnumeral : Token.numeral (.whole n) = Nat.toDigits 10 n.value.natAbs := if_neg hnegative
    obtain ⟨c, cs, hcons⟩ := List.exists_cons_of_ne_nil (Nat.toDigits_ne_nil (n := n.value.natAbs)
      (b := 10))
    rw [hcons] at hdigits hnumeral
    obtain ⟨hc, hcs⟩ := List.forall_mem_cons.1 hdigits
    have hopen : step ⟨.between, read⟩ (some c) = some ⟨.numeral [c], read⟩ := open?_digit hc
    rw [hnumeral, run_cons hopen, run_digits hcs]
    simp

/-- A word or a numeral is read up to its end, where it could still go on. -/
theorem run_bare {t : Token String Number} (ht : t.IsBare) :
    ∃ s', run ⟨.between, read⟩ t.chars = some s' ∧ s'.close? = some (t.known :: read) := by
  cases ht with
  | null => exact ⟨⟨.word ['l', 'l', 'u', 'n'], read⟩, rfl, rfl⟩
  | bool b =>
    cases b with
    | true => exact ⟨⟨.word ['e', 'u', 'r', 't'], read⟩, rfl, rfl⟩
    | false => exact ⟨⟨.word ['e', 's', 'l', 'a', 'f'], read⟩, rfl, rfl⟩
  | whole n =>
    refine ⟨_, run_numeral n, ?_⟩
    rw [close?]
    dsimp only
    rw [List.reverse_reverse, numeral?_numeral]
    rfl

/-! ### All tokens -/

/-- Tokens that can be told apart are read as they are, after a mark or a string whatever they are,
and after anything else if they start with a mark. -/
theorem run_tokens {ts : List (Token String Number)} (hspaced : Spaced ts)
    (hclose : s.close? = some read) (hready : s.mode = .between ∨ Bounded ts) :
    ∃ s', s.run (ts.flatMap Token.chars) = some s' ∧
      s'.close? = some ((ts.map Token.known).reverse ++ read) := by
  induction hspaced generalizing s read with
  | nil => exact ⟨s, rfl, hclose⟩
  | @mark t ts ht hts ih =>
    obtain ⟨s', hrun, hread⟩ := ih (s := ⟨.between, t.known :: read⟩) rfl (.inl rfl)
    rw [List.flatMap_cons, run_append (run_mark ht hclose)]
    exact ⟨s', hrun, by simpa using hread⟩
  | @string text ts hts ih =>
    obtain ⟨s', hrun, hread⟩ :=
      ih (s := ⟨.between, (Token.string text).known :: read⟩) rfl (.inl rfl)
    rw [List.flatMap_cons, run_append (run_string text hclose)]
    exact ⟨s', hrun, by simpa using hread⟩
  | @bare t ts ht hbounded hts ih =>
    -- No word and no numeral is a mark, so the machine is not inside another one.
    have hbetween : s = ⟨.between, read⟩ := by
      rcases hready with hmode | hmark
      · obtain ⟨mode, earlier⟩ := s
        obtain rfl : mode = .between := hmode
        obtain rfl : earlier = read := Option.some.inj hclose
        rfl
      · have hnot : ¬ t.IsMark := by cases ht <;> exact nofun
        exact absurd (hmark t rfl) hnot
    obtain ⟨middle, hmiddle, hclosed⟩ : ∃ middle, run ⟨.between, read⟩ t.chars = some middle ∧
        middle.close? = some (t.known :: read) := run_bare ht
    obtain ⟨s', hrun, hread⟩ := ih hclosed (.inr hbounded)
    rw [List.flatMap_cons, hbetween, run_append hmiddle]
    exact ⟨s', hrun, by simpa using hread⟩

end Scan

/-- Tokens that can be told apart are the tokens of their text. -/
theorem lex_chars {ts : List (Token String Number)} (h : Spaced ts) :
    lex (Wire.ofString (String.ofList (ts.flatMap Token.chars))) = some (ts.map Token.known) := by
  obtain ⟨s, hrun, hread⟩ := Scan.run_tokens (s := .start) h rfl (.inl rfl)
  rw [lex, Wire.ofString, String.toList_ofList]
  rw [Scan.run] at hrun
  rw [hrun]
  show (s.close?.bind _) = _
  rw [hread]
  simp [Scan.start]

end Chronicle.Json
