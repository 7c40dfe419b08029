import DocComments.Proofs.Expression.Escape

/-!
# The spellings of a string

A character can be written between quotes in many ways: as it is, under a letter of its own, behind
a backslash, or by its code point in three notations; and a backslash at the end of a line continues
it anywhere between characters. However a string is spelled, its quoted spelling evaluates to the
string. Spellings that name no character, such as half of a pair of code units, are not treated.
-/

namespace DocComments.Expression
open Text (HexDigit hexText hexNumber)

/-- The letters under which characters can be written behind a backslash. -/
def escapeLetters : List (Char × Char) :=
  [('n', '\n'), ('t', '\t'), ('r', '\r'), ('b', '\x08'), ('f', '\x0c'), ('v', '\x0b'),
   ('0', '\x00')]

/-- The characters that do not stand for themselves behind a backslash. -/
def escapeMarks : List Char :=
  ['n', 't', 'r', 'b', 'f', 'v', '0', 'x', 'u', '\n']

/-- The ways to write a character between quotes. -/
inductive SpelledChar (quote : Char) : Char → List Char → Prop
  | itself {c : Char} (hquote : c ≠ quote) (hslash : c ≠ '\\') (hline : c ≠ '\n') :
      SpelledChar quote c [c]
  | letter {l c : Char} (h : (l, c) ∈ escapeLetters) : SpelledChar quote c ['\\', l]
  | slashed {c : Char} (h : c ∉ escapeMarks) : SpelledChar quote c ['\\', c]
  | twoDigits {c : Char} {digits : List HexDigit} (hlength : digits.length = 2)
      (h : hexNumber digits = c.toNat) : SpelledChar quote c ('\\' :: 'x' :: hexText digits)
  | fourDigits {c : Char} {digits : List HexDigit} (hlength : digits.length = 4)
      (h : hexNumber digits = c.toNat) : SpelledChar quote c ('\\' :: 'u' :: hexText digits)
  | braced {c : Char} {digits : List HexDigit} (hne : digits ≠ [])
      (h : hexNumber digits = c.toNat) :
      SpelledChar quote c ('\\' :: 'u' :: '\x7b' :: (hexText digits ++ ['\x7d']))

/-- The ways to write a string between quotes: each of its characters in some way, with the line
continued anywhere between them. -/
inductive Spelling (quote : Char) : List Char → List Char → Prop
  | nil : Spelling quote [] []
  | continued {s text : List Char} (h : Spelling quote s text) :
      Spelling quote s ('\\' :: '\n' :: text)
  | cons {c : Char} {u s text : List Char} (hc : SpelledChar quote c u)
      (h : Spelling quote s text) : Spelling quote (c :: s) (u ++ text)

section
variable {quote c : Char} {u s text : List Char}

theorem escapedChar_of_not_mem (h : c ∉ escapeMarks) : escapedChar c = [c] := by
  unfold escapedChar
  split
  case h_9 => rfl
  all_goals exact absurd (by decide) h

/-- However a character is written, it stands for itself. -/
theorem SpelledChar.standsFor (h : SpelledChar quote c u) (hquote : quote ≠ '\\') :
    StandsFor quote u [c] := by
  cases h with
  | itself hne hslash hline => exact standsFor_singleton hne hslash fun hc => absurd hc hline
  | @letter l _ hl =>
    have hletters : ∀ e ∈ escapeLetters, e.1 ≠ 'x' ∧ e.1 ≠ 'u' ∧ escapedChar e.1 = [e.2] := by
      decide
    obtain ⟨hx, hu, hvalue⟩ := hletters _ hl
    have hstands := standsFor_escapedChar hquote hx hu
    rwa [hvalue] at hstands
  | slashed hmark =>
    have hne : ∀ d ∈ escapeMarks, c ≠ d := by
      rintro d hd rfl
      exact hmark hd
    have hstands := standsFor_escapedChar hquote (hne 'x' (by decide)) (hne 'u' (by decide))
    rwa [escapedChar_of_not_mem hmark] at hstands
  | twoDigits hlength hvalue =>
    have hstands := standsFor_twoDigits hquote hlength
    rwa [hvalue, charOfCode_toNat] at hstands
  | fourDigits hlength hvalue =>
    have hstands := standsFor_fourDigits hquote hlength
    rwa [hvalue, charOfCode_toNat] at hstands
  | braced hne hvalue =>
    have hlimit : c.toNat < 2 ^ 32 := c.val.toNat_lt
    rw [← hvalue] at hlimit
    have hstands := standsFor_braced hquote hne hlimit
    rwa [hvalue, charOfCode_toNat] at hstands

theorem Spelling.standsFor (h : Spelling quote s text) (hquote : quote ≠ '\\') :
    StandsFor quote text s := by
  induction h with
  | nil => exact standsFor_nil
  | continued _ ih =>
    have hstands : StandsFor quote ['\\', '\n'] [] :=
      standsFor_escapedChar hquote (by decide) (by decide)
    exact hstands.append ih
  | cons hc _ ih => exact (hc.standsFor hquote).append ih

end

/-- Every spelling of a string between single or double quotes evaluates to the string, whatever is
in scope. -/
theorem evaluate_of_spelling (setting : Setting) {quote : Char}
    (hquote : quote = '\x27' ∨ quote = '\x22') {s : String} {text : List Char}
    (h : Spelling quote s.toList text) :
    evaluate setting (quote :: (text ++ [quote])) = .ok (.string s) := by
  have hslash : quote ≠ '\\' := by
    rcases hquote with rfl | rfl <;> decide
  have hvalue := (h.standsFor hslash).evaluate_eq hquote setting
  rwa [String.ofList_toList] at hvalue

/-- All the ways to write a character, and a continued line. -/
theorem evaluate_of_spelling_mixed :
    Spelling '\x22' "A\n\"!é😀".toList "A\\n\\\"\\x21\\\n\\u00E9\\u\x7b01f600\x7d".toList ∧
      evaluate ⟨[], defaultLimit⟩ "\"A\\n\\\"\\x21\\\n\\u00E9\\u\x7b01f600\x7d\"".toList =
        .ok (.string "A\n\"!é😀") := by
  have hspelling : Spelling '\x22' "A\n\"!é😀".toList
      "A\\n\\\"\\x21\\\n\\u00E9\\u\x7b01f600\x7d".toList := by
    have h₁ : SpelledChar '\x22' 'A' ['A'] := .itself (by decide) (by decide) (by decide)
    have h₂ : SpelledChar '\x22' '\n' ['\\', 'n'] := .letter (by decide)
    have h₃ : SpelledChar '\x22' '\x22' ['\\', '\x22'] := .slashed (by decide)
    have h₄ : SpelledChar '\x22' '!' ('\\' :: 'x' :: hexText [⟨2, false⟩, ⟨1, false⟩]) :=
      .twoDigits rfl rfl
    have h₅ : SpelledChar '\x22' 'é'
        ('\\' :: 'u' :: hexText [⟨0, false⟩, ⟨0, false⟩, ⟨14, true⟩, ⟨9, false⟩]) :=
      .fourDigits rfl rfl
    have h₆ : SpelledChar '\x22' '😀' ('\\' :: 'u' :: '\x7b' ::
        (hexText [⟨0, false⟩, ⟨1, false⟩, ⟨15, false⟩, ⟨6, false⟩, ⟨0, false⟩, ⟨0, false⟩] ++
          ['\x7d'])) :=
      .braced (by simp) rfl
    exact .cons h₁ (.cons h₂ (.cons h₃ (.cons h₄ (.continued (.cons h₅ (.cons h₆ .nil))))))
  exact ⟨hspelling, evaluate_of_spelling ⟨[], defaultLimit⟩ (.inr rfl) hspelling⟩

end DocComments.Expression
