/-!
# Splitting at commas

A list of arguments is divided at the commas that stand neither inside brackets nor inside quotes.
The three kinds of bracket count alike, a bracket that closes nothing is passed over, and between
quotes a backslash takes away the meaning of the character after it.
-/

namespace DocComments.Signature

/-- Where a character stands: how many brackets are open, and which quote, if any, and whether a
backslash stands directly before it there. -/
structure Surrounding where
  depth : Nat := 0
  quote? : Option Char := none
  escaped : Bool := false
deriving DecidableEq, Repr

namespace Surrounding

/-- The surrounding of the first character: nothing is open. -/
def outside : Surrounding := {}

/-- Whether a character is one of the three quotes. -/
def isQuote (c : Char) : Bool :=
  c == '\x27' || c == '\x22' || c == '\x60'

/-- Whether a character is an opening bracket. -/
def isOpening (c : Char) : Bool :=
  c == '(' || c == '[' || c == '\x7b'

/-- Whether a character is a closing bracket. -/
def isClosing (c : Char) : Bool :=
  c == ')' || c == ']' || c == '\x7d'

/-- The surrounding of the character after `c`. -/
def next (x : Surrounding) (c : Char) : Surrounding :=
  match x.quote? with
  | some quote =>
    if x.escaped then { x with escaped := false }
    else if c = '\\' then { x with escaped := true }
    else if c = quote then { x with quote? := none }
    else x
  | none =>
    if isQuote c then { x with quote? := some c }
    else if isOpening c then { x with depth := x.depth + 1 }
    else if isClosing c then { x with depth := x.depth - 1 }
    else x

/-- Whether a character here is a comma that divides two arguments. -/
def divides (x : Surrounding) (c : Char) : Bool :=
  x.quote?.isNone && x.depth == 0 && c == ','

end Surrounding

/-- The pieces of a text whose first character has the given surrounding. -/
def piecesFrom (x : Surrounding) : List Char → List (List Char)
  | [] => [[]]
  | c :: s =>
    if x.divides c then [] :: piecesFrom x s
    else (piecesFrom (x.next c) s).modifyHead (c :: ·)

/-- The pieces of a list of arguments, in order and with the blanks around them. -/
def pieces (s : List Char) : List (List Char) :=
  piecesFrom .outside s

end DocComments.Signature
