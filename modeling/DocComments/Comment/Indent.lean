import DocComments.Text.Lines
import DocComments.Text.Utf8

/-!
# Common indentation

Lines are moved to the left together by the width of the least indented line that is not blank. A
width is a number of bytes. A line that cannot be cut there, because it is blank and shorter or
because the cut would divide a character, loses all blanks in front instead.
-/

namespace DocComments.Comment
open Text (trimStart trimEnd isBlankText)
open Unicode (isBlank)

/-- The width of the blanks in front of a line. -/
def indent (line : List Char) : Nat :=
  Text.byteSize (line.takeWhile isBlank)

/-- The least width of the lines that are not blank, zero if all are. -/
def commonIndent (ls : List (List Char)) : Nat :=
  ((ls.filter (!isBlankText ·)).map indent).min?.getD 0

/-- A line moved to the left. -/
def moveLeft (width : Nat) (line : List Char) : List Char :=
  (Text.dropBytes? width line).getD (trimStart line)

/-- The text without line feeds at its ends. -/
def trimFeeds (s : List Char) : List Char :=
  ((s.dropWhile (· = '\n')).reverse.dropWhile (· = '\n')).reverse

/-- The text of lines without their common indentation, and without empty lines at its ends. -/
def dedent (ls : List (List Char)) : List Char :=
  trimEnd (trimFeeds (Text.unlines (ls.map (moveLeft (commonIndent ls)))))

end DocComments.Comment
