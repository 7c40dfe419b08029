import DocComments.Text.Trim

/-!
# Words

A word is a longest run of characters that are not blank. Written with one space between two
words, a text has a single form whatever blanks stood there, line ends included.
-/

namespace DocComments.Text
open Unicode (isBlank)

/-- The words of a text, in order. -/
def words (s : List Char) : List (List Char) :=
  (s.splitOnP isBlank).filter (· ≠ [])

/-- The words of a text with single spaces between them. -/
def collapseBlanks (s : List Char) : List Char :=
  List.intercalate [' '] (words s)

end DocComments.Text
