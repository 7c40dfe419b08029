import DocComments.Unicode.Blank
import DocComments.Unicode.Word

/-!
# Classes without a common character

No blank character stands in a word, and none is alphabetic or a numeral. The ranges of blank
characters are short, so their code points are looked up one by one in the ranges of the other
class.
-/

namespace DocComments.Unicode

/-- A code point that is covered lies in one of the ranges. -/
theorem Ranges.exists_of_covers {r : Ranges} {n : Nat} (h : r.covers n = true) :
    ∃ p ∈ r, p.1 ≤ n ∧ n ≤ p.2 := by
  induction r with
  | nil => cases h
  | cons p r ih =>
    obtain ⟨first, last⟩ := p
    rw [Ranges.covers] at h
    split at h
    · cases h
    · rename_i hfirst
      rcases Bool.or_eq_true_iff.mp h with hlast | hrest
      · exact ⟨_, List.mem_cons_self, Nat.le_of_not_lt hfirst, of_decide_eq_true hlast⟩
      · obtain ⟨p, hp, hin⟩ := ih hrest
        exact ⟨p, List.mem_cons_of_mem _ hp, hin⟩

/-- What is false of all code points of some ranges is false wherever the ranges cover. -/
theorem Ranges.eq_false_of_covers {r : Ranges} {P : Nat → Bool}
    (h : ∀ p ∈ r, ∀ n ∈ List.range' p.1 (p.2 + 1 - p.1), P n = false) {n : Nat}
    (hn : r.covers n = true) : P n = false := by
  obtain ⟨p, hp, hfirst, hlast⟩ := Ranges.exists_of_covers hn
  apply h p hp
  rw [List.mem_range'_1]
  omega

/-- What is false of all blanks is false of each of them. -/
theorem eq_false_of_isBlank {P : Char → Bool}
    (hP : ∀ p ∈ blankRanges, ∀ n ∈ List.range' p.1 (p.2 + 1 - p.1), P (Char.ofNat n) = false)
    {c : Char} (h : isBlank c = true) : P c = false := by
  have hcode := Ranges.eq_false_of_covers (P := fun n => P (Char.ofNat n)) hP h
  rwa [Char.ofNat_toNat] at hcode

/-- Whether a code point is that of a character of a word or of a recent character. -/
def isWordCode (n : Nat) : Bool :=
  letterRanges.covers n || letterNumeralRanges.covers n || otherAlphabeticRanges.covers n ||
    markRanges.covers n || decimalDigitRanges.covers n || connectorRanges.covers n ||
    joinerRanges.covers n

theorem isWordChar_eq (c : Char) : isWordChar c = (!isRecent c && isWordCode c.toNat) := rfl

/-- A blank stands inside no word. -/
theorem isWordChar_of_isBlank {c : Char} (h : isBlank c = true) : isWordChar c = false := by
  have hcode : isWordCode c.toNat = false :=
    Ranges.eq_false_of_covers (r := blankRanges) (by decide +kernel) h
  rw [isWordChar_eq, hcode, Bool.and_false]

/-- Whether a code point is that of an alphabetic character or of a numeral. -/
def isAlphanumericCode (n : Nat) : Bool :=
  letterRanges.covers n || letterNumeralRanges.covers n || otherAlphabeticRanges.covers n ||
    (decimalDigitRanges.covers n || letterNumeralRanges.covers n || otherNumeralRanges.covers n)

theorem isAlphanumeric_eq (c : Char) : isAlphanumeric c = isAlphanumericCode c.toNat := rfl

/-- No blank is alphabetic or a numeral. -/
theorem isAlphanumeric_of_isBlank {c : Char} (h : isBlank c = true) :
    isAlphanumeric c = false := by
  rw [isAlphanumeric_eq]
  exact Ranges.eq_false_of_covers (r := blankRanges) (by decide +kernel) h

theorem isWordLetter_of_isBlank {c : Char} (h : isBlank c = true) : isWordLetter c = false := by
  cases hl : isWordLetter c with
  | false => rfl
  | true =>
    have hword := isWordChar_of_isWordLetter hl
    rw [isWordChar_of_isBlank h] at hword
    cases hword

end DocComments.Unicode
