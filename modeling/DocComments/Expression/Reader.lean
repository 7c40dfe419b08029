import DocComments.Expression.Quoted
import DocComments.Expression.Key
import DocComments.Literal.Basic
import DocComments.Unicode.Alphabetic

/-!
# The value of an expression

An expression is a literal: a scalar, an array, an object, a signed number, a literal in
parentheses, or the name of something in scope, which is undefined. Whatever would have to be run
is refused. Arrays, objects, parentheses and signs may be nested up to a limit, and a reader for
one level is built from the reader for the levels inside it.
-/

namespace DocComments.Expression
open Text (Found firstMark afterMark trimStart)
open Unicode (isAlphabetic isAlphanumeric)

/-- What an expression is read against: the names in scope, and how deep it may be nested. -/
structure Setting where
  scope : List String
  limit : Nat

/-- The nesting that is allowed unless another limit is asked for. -/
def defaultLimit : Nat := 64

/-- A reader of values. -/
abbrev Reader := (s : List Char) → Result Literal s

/-- Whether a character can start a name. -/
def isNameStart (c : Char) : Bool :=
  c == '$' || c == '_' || isAlphabetic c

/-- Whether a character can go on with a name. -/
def isNamePart (c : Char) : Bool :=
  c == '$' || c == '_' || isAlphanumeric c

/-- The words that start an expression of a refused kind. -/
def refusedWords : List String :=
  ["new", "function", "async", "await", "class", "typeof", "void", "delete", "this", "yield",
   "super", "import"]

/-- The value of a name: a constant, or undefined if the name is in scope. -/
def valueOfName (scope : List String) (name : String) : Except (Fault (List Char)) Literal :=
  if name = "true" then .ok (.bool true)
  else if name = "false" then .ok (.bool false)
  else if name = "null" then .ok .null
  else if name = "undefined" then .ok .undefined
  else if name = "NaN" then .ok (.number .nan)
  else if name = "Infinity" then .ok (.number (.infinite false))
  else if name ∈ refusedWords then .error (.unsupported .keyword)
  else if name ∈ scope then .ok .undefined
  else .error (.unbound name)

/-- Whether a character directly after a value always goes on with the expression. -/
def continuesValue (c : Char) : Bool :=
  c == '.' || c == '(' || c == '[' || c == '?'

/-- Whether a character is an operator or starts one. -/
def isOperatorChar (c : Char) : Bool :=
  "+-*/%&|^<>=!".toList.contains c

/-- The fault of a value that is followed by `c` and then by `s`. -/
def continuation (c : Char) (s : List Char) : Fault (List Char) :=
  if c = '.' then .unsupported .memberAccess
  else if c = '(' then .unsupported .call
  else if c = '[' then .unsupported .indexAccess
  else if c = '?' then .unsupported .conditional
  else if c = '=' && s.head? = some '>' then .unsupported .arrowFunction
  else if isOperatorChar c then .unsupported .operator
  else .trailing (String.ofList (c :: s))

/-- Reads what `value` reads where nothing goes on with it. -/
def closed (value : Reader) : Reader := fun s =>
  match value s with
  | .error e => .error e
  | .ok f =>
    match firstMark f.rest with
    | none => .ok f
    | some c =>
      if continuesValue c then .error (continuation c (afterMark f.rest)) else .ok f

/-- Whether a text starts with three points. -/
def startsSpread (s : List Char) : Bool :=
  "...".toList.isPrefixOf s

/-- The items of an array up to its closing bracket. A comma where an item should stand leaves an
undefined item there. -/
def items (value : Reader) (s : List Char) : Result (List Literal) s :=
  match s with
  | [] => .error .unexpectedEnd
  | c :: s =>
    if c = ']' then .ok (.one [])
    else if c = ',' then
      (items value (trimStart s)).map fun g =>
        ((g.map (Literal.undefined :: ·)).within (Text.length_trimStart_le s)).behind
    else if startsSpread (c :: s) then .error (.unsupported .spread)
    else
      match closed value (c :: s) with
      | .error e => .error e
      | .ok f =>
        match firstMark f.rest with
        | none => .error .unexpectedEnd
        | some d =>
          if d = ',' then
            (items value (trimStart (afterMark f.rest))).map fun g =>
              f.after
                ((g.map (f.value :: ·)).within (Text.length_trimStart_afterMark_le f.rest))
          else if d = ']' then
            .ok ((f.leaving (afterMark f.rest) (Text.length_afterMark_le f.rest)).map ([·]))
          else .error (.unexpectedChar d (trimStart f.rest))
termination_by s.length
decreasing_by
  · have h := Text.length_trimStart_le s
    simp only [List.length_cons]
    omega
  · have h₁ := Text.length_trimStart_afterMark_le f.rest
    have h₂ := f.shorter
    omega

/-- The key of an object entry whose first character is `c`: a name, a string or a numeral. -/
def key (c : Char) (s : List Char) : Result String (c :: s) :=
  if c = '\x27' || c = '\x22' then
    (quoted c s).map fun f => (f.map String.ofList).behind
  else if c = '[' then .error (.unsupported .computedKey)
  else if startsSpread (c :: s) then .error (.unsupported .spread)
  else if c.isDigit then (numeral (c :: s)).map (·.map numberKey)
  else if isNameStart c then
    .ok ⟨String.ofList (c :: s.takeWhile isNamePart), s.dropWhile isNamePart, by
      have h := Text.length_dropWhile_le isNamePart s
      simp only [List.length_cons]
      omega⟩
  else .error (.unexpectedChar c (c :: s))

/-- An entry whose key has been read: a colon and a value, or a key that names its own value. -/
def entryAfterKey (scope : List String) (value : Reader) {s : List Char} (k : Found String s) :
    Result (String × Literal) s :=
  match firstMark k.rest with
  | none => .error .unexpectedEnd
  | some c =>
    if c = ':' then
      (closed value (afterMark k.rest)).map fun f =>
        k.after ((f.map (k.value, ·)).within (Text.length_afterMark_le k.rest))
    else if c = ',' || c = '\x7d' then
      match valueOfName scope k.value with
      | .error e => .error e
      | .ok v => .ok ⟨(k.value, v), k.rest, k.shorter⟩
    else if c = '(' then .error (.unsupported .method)
    else .error (.unexpectedChar c (trimStart k.rest))

/-- An entry of an object whose first character is `c`. -/
def entry (scope : List String) (value : Reader) (c : Char) (s : List Char) :
    Result (String × Literal) (c :: s) :=
  match key c s with
  | .error e => .error e
  | .ok k => entryAfterKey scope value k

/-- The entries of an object up to its closing brace. -/
def entries (scope : List String) (value : Reader) (s : List Char) :
    Result (List (String × Literal)) s :=
  match s with
  | [] => .error .unexpectedEnd
  | c :: s =>
    if c = '\x7d' then .ok (.one [])
    else
      match entry scope value c s with
      | .error e => .error e
      | .ok f =>
        match firstMark f.rest with
        | none => .error .unexpectedEnd
        | some d =>
          if d = ',' then
            (entries scope value (trimStart (afterMark f.rest))).map fun g =>
              f.after
                ((g.map (f.value :: ·)).within (Text.length_trimStart_afterMark_le f.rest))
          else if d = '\x7d' then
            .ok ((f.leaving (afterMark f.rest) (Text.length_afterMark_le f.rest)).map ([·]))
          else .error (.unexpectedChar d (trimStart f.rest))
termination_by s.length
decreasing_by
  have h₁ := Text.length_trimStart_afterMark_le f.rest
  have h₂ := f.shorter
  omega

/-- A value in parentheses, read from behind the opening one. -/
def grouped (value : Reader) : Reader := fun s =>
  match closed value s with
  | .error e => .error e
  | .ok f =>
    match firstMark f.rest with
    | none => .error .unexpectedEnd
    | some c =>
      if c = ')' then
        .ok (f.leaving (afterMark f.rest) (Text.length_afterMark_le f.rest))
      else .error (.unexpectedChar c (trimStart f.rest))

/-- A signed number, read from behind its sign. -/
def signed (negative : Bool) (value : Reader) : Reader := fun s =>
  match value s with
  | .error e => .error e
  | .ok f =>
    match f.value with
    | .number n => .ok (f.map fun _ => .number (if negative then n.negate else n))
    | _ => .error (.unsupported .signOfNonNumber)

/-- What a reader for the levels inside reads behind an opening character, or the fault of being
nested too deep if there are no such levels. -/
def inside (limit : Nat) (value? : Option Reader) (read : Reader → Reader) (c : Char)
    (s : List Char) : Result Literal (c :: s) :=
  match value? with
  | none => .error (.tooDeep limit)
  | some value => (read value s).map Found.behind

/-- An array, read from behind its opening bracket. -/
def array (value : Reader) : Reader := fun s =>
  (items value (trimStart s)).map fun f =>
    (f.map Literal.array).within (Text.length_trimStart_le s)

/-- An object, read from behind its opening brace. -/
def object (scope : List String) (value : Reader) : Reader := fun s =>
  (entries scope value (trimStart s)).map fun f =>
    (f.map Literal.object).within (Text.length_trimStart_le s)

/-- A value whose first character is `c`. The reader given is for the levels inside it. -/
def valueFrom (setting : Setting) (value? : Option Reader) (c : Char) (s : List Char) :
    Result Literal (c :: s) :=
  if c = '-' || c = '+' then inside setting.limit value? (signed (c == '-')) c s
  else if c = '!' || c = '~' then .error (.unsupported .operator)
  else if c.isDigit || (c == '.' && (s.head?.any Char.isDigit)) then
    (numeral (c :: s)).map (·.map Literal.number)
  else if c = '\x27' || c = '\x22' then
    (quoted c s).map fun f => (f.map (Literal.string ∘ String.ofList)).behind
  else if c = '\x60' then
    (template s).map fun f => (f.map (Literal.string ∘ String.ofList)).behind
  else if c = '[' then inside setting.limit value? array c s
  else if c = '\x7b' then inside setting.limit value? (object setting.scope) c s
  else if c = '(' then inside setting.limit value? grouped c s
  else if isNameStart c then
    match valueOfName setting.scope (String.ofList (c :: s.takeWhile isNamePart)) with
    | .error e => .error e
    | .ok v =>
      .ok ⟨v, s.dropWhile isNamePart, by
        have h := Text.length_dropWhile_le isNamePart s
        simp only [List.length_cons]
        omega⟩
  else .error (.unexpectedChar c (c :: s))

/-- The reader for one level, given the reader for the levels inside it. -/
def level (setting : Setting) (value? : Option Reader) : Reader := fun s =>
  match h : trimStart s with
  | [] => .error .unexpectedEnd
  | c :: t =>
    (valueFrom setting value? c t).map (·.within (Text.length_le_of_trimStart_eq_cons h))

/-- The reader for values that are nested at most as deep as the first number says. -/
def value (setting : Setting) : Nat → Reader
  | 0 => level setting none
  | depth + 1 => level setting (some (value setting depth))

/-- The value of a text that is a single expression, blanks at its ends apart. -/
def evaluate (setting : Setting) (s : List Char) : Except (Fault Nat) Literal :=
  match closed (value setting setting.limit) s with
  | .error e => .error (e.inText s)
  | .ok f =>
    match firstMark f.rest with
    | none => .ok f.value
    | some c => .error ((continuation c (afterMark f.rest)).inText s)

end DocComments.Expression
