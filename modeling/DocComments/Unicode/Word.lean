import DocComments.Unicode.Alphabetic
import DocComments.Unicode.Mark
import DocComments.Unicode.Recent

/-!
# Word characters

The characters that words are made of: alphabetic characters, marks, decimal digits, connecting
punctuation such as `_`, and the two joiners. Recent characters are not among them, though they
may be alphabetic.
-/

namespace DocComments.Unicode

/-- The connecting punctuation, of which `_` is the first. -/
def connectorRanges : Ranges :=
  [(0x5F, 0x5F), (0x203F, 0x2040), (0x2054, 0x2054), (0xFE33, 0xFE34), (0xFE4D, 0xFE4F),
   (0xFF3F, 0xFF3F)]

/-- The zero-width joiner and non-joiner. -/
def joinerRanges : Ranges :=
  [(0x200C, 0x200D)]

/-- Whether a character can stand inside a word. -/
def isWordChar (c : Char) : Bool :=
  !isRecent c &&
    (isAlphabetic c || isMark c || isDecimalDigit c || connectorRanges.covers c.toNat ||
      joinerRanges.covers c.toNat)

/-- Whether a character is a letter that can stand inside a word. -/
def isWordLetter (c : Char) : Bool :=
  !isRecent c && isLetter c

/-- A recent character stands inside no word. -/
theorem isWordChar_of_isRecent {c : Char} (h : isRecent c = true) : isWordChar c = false := by
  simp [isWordChar, h]

/-- Every other alphabetic character is a word character. -/
theorem isWordChar_of_isAlphabetic {c : Char} (hr : isRecent c = false)
    (h : isAlphabetic c = true) : isWordChar c = true := by
  simp [isWordChar, hr, h]

/-- The letters of words are word characters. -/
theorem isWordChar_of_isWordLetter {c : Char} (h : isWordLetter c = true) :
    isWordChar c = true := by
  simp only [isWordLetter, Bool.and_eq_true, Bool.not_eq_true'] at h
  exact isWordChar_of_isAlphabetic h.1 (isAlphabetic_of_isLetter h.2)

end DocComments.Unicode
