/-!
# Patterns for names

A pattern is compared with a single name. A star stands for any text and a question mark for any
character, also for a dot in front; characters in brackets stand for one of them, or behind an
exclamation mark for one that is none of them. Two stars stand for any number of folders, and are
allowed only as a part of their own.
-/

namespace DocComments.Files

/-- The characters from `first` to `last`. -/
structure Span where
  first : Char
  last : Char
deriving DecidableEq, Repr

/-- Whether a character lies in a span. -/
def Span.covers (x : Span) (c : Char) : Bool :=
  x.first ≤ c && c ≤ x.last

/-- A part of a pattern for a name. -/
inductive Token
  | char (c : Char)
  | anyChar
  | anyText
  | oneOf (spans : List Span)
  | noneOf (spans : List Span)
deriving DecidableEq, Repr

/-- What a part of a path pattern stands for. -/
inductive Pattern
  | anyFolders
  | name (tokens : List Token)
deriving DecidableEq, Repr

namespace Pattern

/-- The spans that stand between brackets: a hyphen between two characters makes a span. -/
def spans : List Char → List Span
  | a :: '-' :: b :: s => ⟨a, b⟩ :: spans s
  | a :: s => ⟨a, a⟩ :: spans s
  | [] => []

/-- The characters between brackets, of which the first is given, and the text behind them. The
first character may itself be a closing bracket. -/
def bracketed? (first : Char) (s : List Char) : Option (List Char × List Char) :=
  match s.dropWhile (· ≠ ']') with
  | _ :: rest => some (first :: s.takeWhile (· ≠ ']'), rest)
  | [] => none

/-- The token of a bracket and the text behind it. -/
def bracketToken? : List Char → Option (Token × List Char)
  | '!' :: first :: s => (bracketed? first s).map fun (cs, rest) => (.noneOf (spans cs), rest)
  | ['!'] => none
  | first :: s => (bracketed? first s).map fun (cs, rest) => (.oneOf (spans cs), rest)
  | [] => none

/-- The tokens of a pattern. The first number bounds how many there are. -/
def tokensWithin? : Nat → List Char → Option (List Token)
  | _, [] => some []
  | 0, _ => none
  | n + 1, c :: s =>
    if c = '?' then (tokensWithin? n s).map (.anyChar :: ·)
    else if c = '*' then
      if s.head? = some '*' then none else (tokensWithin? n s).map (.anyText :: ·)
    else if c = '[' then
      match bracketToken? s with
      | some (t, rest) => (tokensWithin? n rest).map (t :: ·)
      | none => none
    else (tokensWithin? n s).map (.char c :: ·)

/-- The pattern that a part of a path is, if it is well formed. -/
def ofText? (s : List Char) : Option Pattern :=
  if s = ['*', '*'] then some .anyFolders
  else (tokensWithin? s.length s).map .name

/-- Whether a token stands for a character. -/
def covers (t : Token) (c : Char) : Bool :=
  match t with
  | .char d => c == d
  | .anyChar => true
  | .anyText => true
  | .oneOf xs => xs.any (·.covers c)
  | .noneOf xs => !xs.any (·.covers c)

/-- Whether `go` accepts a text or what is left after some of its characters. -/
def somewhere (go : List Char → Bool) : List Char → Bool
  | [] => go []
  | c :: s => go (c :: s) || somewhere go s

/-- Whether a name is one that tokens stand for. -/
def accepts : List Token → List Char → Bool
  | [], s => s.isEmpty
  | .anyText :: ts, s => somewhere (accepts ts) s
  | _ :: _, [] => false
  | t :: ts, c :: s => covers t c && accepts ts s

/-- The text that tokens are if each of them is a character. -/
def literal? (ts : List Token) : Option (List Char) :=
  ts.mapM fun t => match t with
    | .char c => some c
    | _ => none

end Pattern

end DocComments.Files
