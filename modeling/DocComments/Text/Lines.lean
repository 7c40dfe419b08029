import DocComments.Text.Trim

/-!
# Lines

A line feed ends a line, and a carriage return directly before it belongs to the line end. Text
after the last line feed is a line of its own unless it is empty. A carriage return elsewhere is
an ordinary character, also at the very end of the text.
-/

namespace DocComments.Text

/-- The line without the carriage return before its line feed. -/
def dropReturn (line : List Char) : List Char :=
  if line.getLast? = some '\r' then line.dropLast else line

/-- The lines of a text, without their ends. -/
def lines (s : List Char) : List (List Char) :=
  let pieces := s.splitOn '\n'
  pieces.dropLast.map dropReturn ++ pieces.getLast?.toList.filter (· ≠ [])

/-- Lines put together again, with a line feed between two of them. -/
def unlines (ls : List (List Char)) : List Char :=
  List.intercalate ['\n'] ls

end DocComments.Text
