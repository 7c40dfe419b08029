import DocComments.Expression.Reader

/-!
# The grammar of literals

Which texts are expressions, and what they denote, told by rules of production and without a
reader: a rule takes a part from the front of a text and leaves the rest. Blanks may stand before
each part. Of the parts below expressions only names and keys have rules here; numerals, quoted
strings and templates are taken as their readers take them. A derivation has a depth, which arrays,
objects, parentheses and signs each raise by one; a text that is derived at a depth is derived at
every greater one.
-/

namespace DocComments.Expression
open Text (Found firstMark trimStart)
open Unicode (isBlank)

/-- A reader's answer is a value and the text after it. -/
def Yields {α : Type} {s : List Char} (x : Result α s) (a : α) (rest : List Char) : Prop :=
  ∃ h : rest.length < s.length, x = .ok ⟨a, rest, h⟩

/-! ### Names and keys -/

/-- The names that denote a value in every scope. -/
def constants : List (String × Literal) :=
  [("true", .bool true), ("false", .bool false), ("null", .null), ("undefined", .undefined),
   ("NaN", .number .nan), ("Infinity", .number (.infinite false))]

/-- What a name denotes: its own value if it is a constant, and otherwise undefined if it is in
scope and no refused word. -/
inductive NameDenotes (scope : List String) (name : String) : Literal → Prop
  | constant {v : Literal} (h : (name, v) ∈ constants) : NameDenotes scope name v
  | bound (hconstant : ∀ v, (name, v) ∉ constants) (hword : name ∉ refusedWords)
      (hscope : name ∈ scope) : NameDenotes scope name .undefined

/-- The longest name in front of a text, and the text after it. -/
structure TakesName (s name rest : List Char) : Prop where
  eq_append : s = name ++ rest
  start : ∃ c t, name = c :: t ∧ isNameStart c = true ∧ ∀ d ∈ t, isNamePart d = true
  longest : ∀ d, rest.head? = some d → isNamePart d = false

/-- The key in front of a text, and the text after it: a string, a numeral that starts with a digit,
or a name. -/
inductive TakesKey : List Char → String → List Char → Prop
  | string {q : Char} {s t rest : List Char} (hq : q = '\x27' ∨ q = '\x22')
      (h : Yields (quoted q s) t rest) : TakesKey (q :: s) (String.ofList t) rest
  | number {c : Char} {s rest : List Char} {n : Number} (hc : c.isDigit = true)
      (h : Yields (numeral (c :: s)) n rest) : TakesKey (c :: s) (numberKey n) rest
  | name {s name rest : List Char} (h : TakesName s name rest) :
      TakesKey s (String.ofList name) rest

/-! ### Expressions -/

/-- Whether a text starts like a numeral: with a digit, or with a point before a digit. -/
def startsNumeral : List Char → Bool
  | [] => false
  | c :: s => c.isDigit || (c == '.' && s.head?.any Char.isDigit)

/-- Nothing goes on with a value in front of the text. -/
def Ends (rest : List Char) : Prop :=
  ∀ c, firstMark rest = some c → continuesValue c = false

/-- A part of an expression, with what it denotes. -/
inductive Phrase
  | operand (value : Literal)
  | expression (value : Literal)
  | items (values : List Literal)
  | entry (key : String) (value : Literal)
  | entries (pairs : List (String × Literal))

/-- The rules: a text starts with a phrase, and the second text is what follows it. -/
inductive Derives (scope : List String) : Nat → Phrase → List Char → List Char → Prop
  | blank {depth : Nat} {p : Phrase} {b : Char} {s rest : List Char} (hb : isBlank b = true)
      (h : Derives scope depth p s rest) : Derives scope depth p (b :: s) rest
  | number {depth : Nat} {n : Number} {s rest : List Char} (hstart : startsNumeral s = true)
      (h : Yields (numeral s) n rest) : Derives scope depth (.operand (.number n)) s rest
  | string {depth : Nat} {q : Char} {s t rest : List Char} (hq : q = '\x27' ∨ q = '\x22')
      (h : Yields (quoted q s) t rest) :
      Derives scope depth (.operand (.string (String.ofList t))) (q :: s) rest
  | template {depth : Nat} {s t rest : List Char} (h : Yields (template s) t rest) :
      Derives scope depth (.operand (.string (String.ofList t))) ('\x60' :: s) rest
  | name {depth : Nat} {v : Literal} {s name rest : List Char} (hname : TakesName s name rest)
      (h : NameDenotes scope (String.ofList name) v) : Derives scope depth (.operand v) s rest
  | plus {depth : Nat} {n : Number} {s rest : List Char}
      (h : Derives scope depth (.operand (.number n)) s rest) :
      Derives scope (depth + 1) (.operand (.number n)) ('+' :: s) rest
  | minus {depth : Nat} {n : Number} {s rest : List Char}
      (h : Derives scope depth (.operand (.number n)) s rest) :
      Derives scope (depth + 1) (.operand (.number n.negate)) ('-' :: s) rest
  | group {depth : Nat} {v : Literal} {s t rest : List Char}
      (h : Derives scope depth (.expression v) s t) (hclose : trimStart t = ')' :: rest) :
      Derives scope (depth + 1) (.operand v) ('(' :: s) rest
  | array {depth : Nat} {vs : List Literal} {s rest : List Char}
      (h : Derives scope depth (.items vs) s rest) :
      Derives scope (depth + 1) (.operand (.array vs)) ('[' :: s) rest
  | object {depth : Nat} {es : List (String × Literal)} {s rest : List Char}
      (h : Derives scope depth (.entries es) s rest) :
      Derives scope (depth + 1) (.operand (.object es)) ('\x7b' :: s) rest
  | expression {depth : Nat} {v : Literal} {s rest : List Char}
      (h : Derives scope depth (.operand v) s rest) (hends : Ends rest) :
      Derives scope depth (.expression v) s rest
  | noItems {depth : Nat} {rest : List Char} : Derives scope depth (.items []) (']' :: rest) rest
  | hole {depth : Nat} {vs : List Literal} {s rest : List Char}
      (h : Derives scope depth (.items vs) s rest) :
      Derives scope depth (.items (.undefined :: vs)) (',' :: s) rest
  | lastItem {depth : Nat} {v : Literal} {s t rest : List Char}
      (h : Derives scope depth (.expression v) s t) (hclose : trimStart t = ']' :: rest) :
      Derives scope depth (.items [v]) s rest
  | item {depth : Nat} {v : Literal} {vs : List Literal} {s t u rest : List Char}
      (h : Derives scope depth (.expression v) s t) (hcomma : trimStart t = ',' :: u)
      (hmore : Derives scope depth (.items vs) u rest) :
      Derives scope depth (.items (v :: vs)) s rest
  | pair {depth : Nat} {k : String} {v : Literal} {s t u rest : List Char}
      (hkey : TakesKey s k t) (hcolon : trimStart t = ':' :: u)
      (h : Derives scope depth (.expression v) u rest) : Derives scope depth (.entry k v) s rest
  | bareKey {depth : Nat} {k : String} {v : Literal} {s rest : List Char}
      (hkey : TakesKey s k rest) (h : NameDenotes scope k v) :
      Derives scope depth (.entry k v) s rest
  | noEntries {depth : Nat} {rest : List Char} :
      Derives scope depth (.entries []) ('\x7d' :: rest) rest
  | lastEntry {depth : Nat} {k : String} {v : Literal} {s t rest : List Char}
      (h : Derives scope depth (.entry k v) s t) (hclose : trimStart t = '\x7d' :: rest) :
      Derives scope depth (.entries [(k, v)]) s rest
  | entry {depth : Nat} {k : String} {v : Literal} {es : List (String × Literal)}
      {s t u rest : List Char} (h : Derives scope depth (.entry k v) s t)
      (hcomma : trimStart t = ',' :: u) (hmore : Derives scope depth (.entries es) u rest) :
      Derives scope depth (.entries ((k, v) :: es)) s rest

end DocComments.Expression
