import DocComments.Text.Found
import DocComments.Text.Search

/-!
# Blocks

A block is a comment together with the code behind it. Code ends with the first semicolon, closing
parenthesis or opening brace. A comment starts with a slash and two stars and ends with the first
star and slash behind which code can be found; so it may run over the ends of other comments, and
when there is no code at all behind it, the text holds no further block.
-/

namespace DocComments
open Text (Found trimStart)
open Unicode (isBlank)

/-- A comment, with its delimiters, and the code behind it. -/
structure Block where
  comment : String
  code : String
deriving DecidableEq, Repr

namespace Block

/-- How a comment starts. -/
def openingMark : List Char := ['/', '*', '*']

/-- How a comment ends. -/
def closingMark : List Char := ['*', '/']

/-- Whether a character ends a piece of code. -/
def isTerminator (c : Char) : Bool :=
  c == ';' || c == ')' || c == '\x7b'

/-- The text up to and with the first terminator. -/
def throughTerminator? : (s : List Char) → Option (Found (List Char) s)
  | [] => none
  | c :: s =>
    if isTerminator c then some ⟨[c], s, by simp⟩
    else (throughTerminator? s).map fun f => (f.map (c :: ·)).within (by simp)

/-- The code in front of a text, without the blanks before it. If the first character that is not
blank is a terminator, the code is that character and the blank before it, which there has to
be. -/
def code? (s : List Char) : Option (Found (List Char) s) :=
  match h : trimStart s with
  | [] => none
  | c :: t =>
    if isTerminator c then
      (s.takeWhile isBlank).getLast?.map fun b =>
        ⟨[b, c], t, by
          have hle := Text.length_trimStart_le s
          rw [h] at hle
          exact hle⟩
    else
      (throughTerminator? (c :: t)).map (·.within (Text.length_le_of_trimStart_eq_cons h))

/-- The code behind the end of a comment, if the comment ends here. -/
def codeAfterEnd? (s : List Char) : Option (Found (List Char) s) :=
  match s with
  | '*' :: '/' :: s => (code? s).map (·.within (by simp only [List.length_cons]; omega))
  | _ => none

/-- The text up to the first end of a comment with code behind it, and that code. -/
def bodyAndCode? : (s : List Char) → Option (Found (List Char × List Char) s)
  | [] => none
  | c :: s =>
    match codeAfterEnd? (c :: s) with
    | some f => some (f.map ([], ·))
    | none => (bodyAndCode? s).map fun f =>
        (f.map fun (body, code) => (c :: body, code)).within (by simp)

/-- The first block of a text. At least one character stands between the delimiters of its
comment. -/
def first? (s : List Char) : Option (Found Block s) :=
  match h : Text.after? openingMark s with
  | none => none
  | some [] => none
  | some (c :: t) =>
    (bodyAndCode? t).map fun f =>
      (f.map fun (body, code) =>
        { comment := String.ofList (openingMark ++ c :: body ++ closingMark)
          code := String.ofList code }).within (by
            have hle := Text.length_le_of_after? h
            simp only [List.length_cons] at hle
            omega)

/-- The blocks of a text, in order. -/
def all (s : List Char) : List Block :=
  match first? s with
  | none => []
  | some f => f.value :: all f.rest
termination_by s.length
decreasing_by exact f.shorter

end Block

end DocComments
