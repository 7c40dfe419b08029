import DocComments.Comment.Basic
import DocComments.Comment.Indent
import DocComments.Unicode.Word

/-!
# Fenced examples

A line of three backticks, perhaps with the name of a language, opens a fence, and the next line
of three backticks alone closes it. The lines between are an example, which the paragraph directly
before describes. A fence that is never closed is ordinary text, and so is all behind it.
-/

namespace DocComments.Comment
open Text (trim trimEnd trimStart isBlankText unlines)

/-- The mark of a fence. -/
def fenceMark : List Char := ['\x60', '\x60', '\x60']

/-- Whether a character can stand in the name of a language. -/
def isLanguageChar (c : Char) : Bool :=
  Unicode.isWordChar c || c == '+' || c == '#' || c == '.' || c == '-'

/-- The language that a line names if it opens a fence; the name may be empty. -/
def fenceLanguage? (line : List Char) : Option (List Char) :=
  match fenceMark.isPrefixOf? (trim line) with
  | none => none
  | some rest => if (trimStart rest).all isLanguageChar then some (trimStart rest) else none

/-- Whether a line closes a fence. -/
def closesFence (line : List Char) : Bool :=
  trim line == fenceMark

/-- The language of an example, given what its fence says. -/
def languageOr (name : List Char) : String :=
  if name = [] then Example.defaultLanguage else String.ofList name

/-- An example between the lines of a fence, described by the lines before it. -/
def fencedExample (language : List Char) (paragraph inside : List (List Char)) : Example :=
  { language := languageOr language
    description := String.ofList (List.intercalate [' '] paragraph)
    form := .fenced
    text := String.ofList (dedent inside) }

/-- The paragraph after one more line: a blank line starts a new one. -/
def extendParagraph (paragraph : List (List Char)) (line : List Char) : List (List Char) :=
  if isBlankText line then [] else paragraph ++ [trim line]

/-- The lines outside fences and the examples inside them, behind a paragraph that has begun. -/
def liftFences (paragraph : List (List Char)) (ls : List (List Char)) :
    List (List Char) × List Example :=
  match ls with
  | [] => ([], [])
  | l :: ls =>
    match fenceLanguage? l with
    | none =>
      let (kept, examples) := liftFences (extendParagraph paragraph l) ls
      (l :: kept, examples)
    | some language =>
      if ls.any closesFence then
        let (kept, examples) := liftFences [] (ls.dropWhile (!closesFence ·)).tail
        (kept, fencedExample language paragraph (ls.takeWhile (!closesFence ·)) :: examples)
      else (l :: ls, [])
termination_by ls.length
decreasing_by
  · simp
  · have h := Text.length_dropWhile_le (!closesFence ·) ls
    simp only [List.length_tail, List.length_cons]
    omega

/-- Lines with every run of blank ones made a single empty one. The flag tells whether the line
before is blank. -/
def joinBlankLines (afterBlank : Bool) : List (List Char) → List (List Char)
  | [] => []
  | l :: ls =>
    if isBlankText l then
      if afterBlank then joinBlankLines true ls else [] :: joinBlankLines true ls
    else l :: joinBlankLines false ls

/-- The description that lines make, and the examples fenced in it. -/
def descriptionAndExamples (ls : List (List Char)) : List Char × List Example :=
  let (kept, examples) := liftFences [] ls
  (trim (unlines (joinBlankLines false kept)), examples)

/-- The text without marks of a caption, in whatever case they are written. -/
def dropCaptionMarks (s : List Char) : List Char :=
  match s with
  | [] => []
  | c :: s =>
    let lower := ((c :: s).take 10).map Char.toLower
    if "<caption>".toList.isPrefixOf lower then dropCaptionMarks (s.drop 8)
    else if "</caption>".toList.isPrefixOf lower then dropCaptionMarks (s.drop 9)
    else c :: dropCaptionMarks s
termination_by s.length
decreasing_by
  all_goals simp only [List.length_drop, List.length_cons]
  all_goals omega

/-- Lines without the blank ones at either end. -/
def dropBlankEnds (ls : List (List Char)) : List (List Char) :=
  ((ls.dropWhile isBlankText).reverse.dropWhile isBlankText).reverse

/-- The language and the lines of an example that may be fenced as a whole. -/
def unfenced (ls : List (List Char)) : String × List (List Char) :=
  match dropBlankEnds ls with
  | opening :: l :: rest =>
    match fenceLanguage? opening with
    | some language =>
      if (l :: rest).getLast?.any closesFence then (languageOr language, (l :: rest).dropLast)
      else (Example.defaultLanguage, ls)
    | none => (Example.defaultLanguage, ls)
  | _ => (Example.defaultLanguage, ls)

/-- The example of a tag with the given caption and lines. -/
def taggedExample (caption : List Char) (ls : List (List Char)) : Example :=
  let (language, body) := unfenced ls
  { language := language
    description := String.ofList (trim (dropCaptionMarks caption))
    form := .tagged
    text := String.ofList (dedent body) }

end DocComments.Comment
