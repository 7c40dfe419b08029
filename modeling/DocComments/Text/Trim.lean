import DocComments.Unicode.Blank

/-!
# Trimming

Blank characters are taken off the two ends of a text; those inside it stay. The lemmas say what
remains: a text without blank ends, and never a longer one.
-/

namespace DocComments.Text
open Unicode (isBlank)

/-- The text without the blanks it starts with. -/
def trimStart (s : List Char) : List Char :=
  s.dropWhile isBlank

/-- The text without the blanks it ends with. -/
def trimEnd (s : List Char) : List Char :=
  (s.reverse.dropWhile isBlank).reverse

/-- The text without blanks at either end. -/
def trim (s : List Char) : List Char :=
  trimEnd (trimStart s)

/-- Whether a text holds nothing but blanks. -/
def isBlankText (s : List Char) : Bool :=
  s.all isBlank

/-- Dropping from the front never lengthens a list. -/
theorem length_dropWhile_le {α : Type} (p : α → Bool) (s : List α) :
    (s.dropWhile p).length ≤ s.length :=
  (List.dropWhile_suffix p).length_le

theorem length_trimStart_le (s : List Char) : (trimStart s).length ≤ s.length :=
  length_dropWhile_le isBlank s

theorem length_le_of_trimStart_eq_cons {s t : List Char} {c : Char} (h : trimStart s = c :: t) :
    (c :: t).length ≤ s.length :=
  h ▸ length_trimStart_le s

theorem trimStart_suffix (s : List Char) : trimStart s <:+ s :=
  List.dropWhile_suffix isBlank

@[simp] theorem trimStart_nil : trimStart [] = [] := rfl

/-- A text that starts with no blank is left alone. -/
theorem trimStart_cons_of_not_blank {c : Char} (h : isBlank c = false) (s : List Char) :
    trimStart (c :: s) = c :: s := by
  simp [trimStart, h]

/-- What remains starts with no blank. -/
theorem isBlank_of_trimStart_eq_cons {s t : List Char} {c : Char} (h : trimStart s = c :: t) :
    isBlank c = false := by
  have hne : s.dropWhile isBlank ≠ [] := by
    intro hnil
    rw [trimStart, hnil] at h
    exact absurd h (by simp)
  have hc := List.head_dropWhile_not isBlank hne
  simp only [trimStart] at h
  simpa [h] using hc

end DocComments.Text
