import DocComments.Comment.Fence
import DocComments.Text.Search

/-!
# Reading comments

The delimiters are taken off, and from every line the star in front with one space behind it.
Lines that start with a tag divide the rest into sections. The lines before the first such line
are the description; each section is a tag of its own, or an example if the tag says so.
-/

namespace DocComments.Comment
open Text (trim trimStart trimEnd unlines)

/-- A tag line, by its key and the text behind the key, with the lines up to the next one. -/
structure Section where
  key : List Char
  head : List Char
  body : List (List Char)

/-- The text between the delimiters of a comment. -/
def inside (comment : List Char) : List Char :=
  Text.dropClosing ['*', '/'] (Text.dropOpening ['/', '*', '*'] (trim comment))

/-- A line without the star in front and one space behind it. -/
def dropGutter (line : List Char) : List Char :=
  match trimStart line with
  | '*' :: ' ' :: rest => rest
  | '*' :: rest => rest
  | rest => rest

/-- The lines of a comment. -/
def commentLines (comment : List Char) : List (List Char) :=
  (Text.lines (inside comment)).map dropGutter

/-- Whether a character can start the key of a tag. -/
def isKeyStart (c : Char) : Bool :=
  c.isAlpha || c == '_'

/-- Whether a character can go on with the key of a tag. -/
def isKeyPart (c : Char) : Bool :=
  Unicode.isWordChar c || c == '-'

/-- The key of a tag line and the text behind it. -/
def tagLine? (line : List Char) : Option (List Char × List Char) :=
  match trimStart line with
  | '@' :: c :: s =>
    if isKeyStart c then some (c :: s.takeWhile isKeyPart, trim (s.dropWhile isKeyPart))
    else none
  | _ => none

/-- The lines before the first tag line, and the sections. -/
def sections : List (List Char) → List (List Char) × List Section
  | [] => ([], [])
  | l :: ls =>
    let (opening, rest) := sections ls
    match tagLine? l with
    | some (key, head) => ([], ⟨key, head, opening⟩ :: rest)
    | none => (l :: opening, rest)

/-- The key whose sections are examples. -/
def exampleKey : List Char := "example".toList

/-- The tag that a section is, unless it is an example. -/
def Section.tag? (x : Section) : Option Tag :=
  if x.key = exampleKey then none
  else
    some
      { key := String.ofList x.key
        value := String.ofList (trim (unlines (x.head :: x.body.map trim))) }

/-- The example that a section is, if it is one. -/
def Section.example? (x : Section) : Option Example :=
  if x.key = exampleKey then some (taggedExample x.head (x.body.map trimEnd)) else none

/-- The parts of a comment, its fenced examples before the others. -/
def read (comment : List Char) : Comment :=
  let (opening, rest) := sections (commentLines comment)
  let (description, fenced) := descriptionAndExamples (opening.map trimEnd)
  { description := String.ofList description
    tags := rest.filterMap Section.tag?
    examples := fenced ++ rest.filterMap Section.example? }

end DocComments.Comment
