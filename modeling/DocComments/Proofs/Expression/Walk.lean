import DocComments.Expression.Reader

/-!
# Expressions read by positions in bytes

The readers of expressions hold on to the text that is still to be read. Here the whole text stays
where it is and a number of bytes tells how much of it has been read, as a program does that has no
other view of a text. A character is looked at by cutting the text at that number, and the number
goes on by the size of a character, or by one where a character is known to take one byte. A cut
that would divide a character has no result, nor has a step that leads inside a character or beyond
the end of the text, nor a loop that takes more rounds than the text has characters and one more;
that none of these ever happens is not part of the definitions.
-/

namespace DocComments.Expression
open Text (dropBytes?)
open Unicode (isBlank)

/-- What is done with a text at a position in it: it goes to another position and gives a value, or
fails with a fault, or has no result. -/
abbrev Walk (α : Type) := StateT Nat (ExceptT (Fault Nat) Option) α

/-- The text between two positions in bytes. -/
def between? (start stop : Nat) (s : List Char) : Option (List Char) :=
  if start ≤ stop then
    (dropBytes? start s).bind fun t =>
      (dropBytes? stop s).map fun rest => t.take (t.length - rest.length)
  else none

namespace Walk
variable (text : List Char)

/-! ### Steps -/

/-- No result. -/
def stuck {α : Type} : Walk α := fun _ => none

/-- The number of rounds that a loop may take. -/
def rounds : Nat :=
  text.length + 1

/-- The text from the position on. -/
def ahead : Walk (List Char) := fun position =>
  (dropBytes? position text).map fun s => .ok (s, position)

/-- The text from an earlier position up to this one. -/
def spelling (start : Nat) : Walk (List Char) := fun position =>
  (between? start position text).map fun s => .ok (s, position)

/-- The character at the position. -/
def peek : Walk (Option Char) := do
  return (← ahead text).head?

/-- Goes on by a number of bytes, to a position where the text can be cut. -/
def advance (bytes : Nat) : Walk Unit := fun position =>
  (dropBytes? (position + bytes) text).map fun _ => .ok ((), position + bytes)

/-- Goes behind the character at the position and gives it. -/
def bump : Walk (Option Char) := do
  match ← peek text with
  | none => return none
  | some c =>
    advance text c.utf8Size
    return some c

/-- The character at the position, or a fault if the text ends there. -/
def peekOr (fault : Fault Nat) : Walk Char := do
  match ← peek text with
  | none => throw fault
  | some c => return c

/-- Goes behind the character at the position and gives it, or a fault if the text ends there. -/
def bumpOr (fault : Fault Nat) : Walk Char := do
  match ← bump text with
  | none => throw fault
  | some c => return c

/-- Goes on over a character of a sort, by the given number of bytes, and tells whether it did. -/
def skipOne (sort : Char → Bool) (width : Char → Nat) : Walk Bool := do
  match ← peek text with
  | none => return false
  | some c =>
    if sort c then
      advance text (width c)
      return true
    else return false

/-- Goes on over all characters of a sort, by the given number of bytes for each. -/
def skipWhile (sort : Char → Bool) (width : Char → Nat) : Nat → Walk Unit
  | 0 => stuck
  | rounds + 1 => do
    if ← skipOne text sort width then skipWhile sort width rounds else return ()

/-- Goes on over blanks. -/
def skipBlanks : Walk Unit :=
  skipWhile text isBlank Char.utf8Size (rounds text)

/-- Goes on over characters of a sort that take one byte each. -/
def skipBytes (sort : Char → Bool) : Walk Unit :=
  skipWhile text sort (fun _ => 1) (rounds text)

/-- Fails with the character at the position. -/
def unexpected {α : Type} (c : Char) : Walk α := do
  throw (.unexpectedChar c (← get))

/-- Fails with the character before the position. -/
def unexpectedBehind {α : Type} (c : Char) : Walk α := do
  throw (.unexpectedChar c ((← get) - c.utf8Size))

/-- Goes over blanks and behind the given character. -/
def expect (wanted : Char) : Walk Unit := do
  skipBlanks text
  let c ← bumpOr text .unexpectedEnd
  if c = wanted then return () else unexpectedBehind c

/-- Fails with what goes on with a value, or stands behind it, from `c` on. -/
def continued {α : Type} (c : Char) : Walk α := do
  throw ((continuation c (← ahead text).tail).inText text)

/-! ### Names and numerals -/

/-- The longest name at the position. -/
def name : Walk String := do
  let start ← get
  skipWhile text isNamePart Char.utf8Size (rounds text)
  return String.ofList (← spelling text start)

/-- The value of a name. -/
def named (scope : List String) (name : String) : Walk Literal :=
  match valueOfName scope name with
  | .ok v => return v
  | .error fault => throw (fault.inText text)

/-- A numeral with a marked base. -/
def marked (base start : Nat) : Walk Number := do
  advance text 2
  skipBytes text isMarkedDigit
  match markedValue? base (← spelling text (start + 2)) with
  | some n => return n
  | none => throw (.invalidNumber (String.ofList (← spelling text start)))

/-- The point of a decimal and the digits behind it, if there is one. -/
def fraction : Walk Unit := do
  if (← peek text) = some '.' then
    advance text 1
    skipBytes text isDigitOrGap
  else return ()

/-- The sign of an exponent, if there is one. -/
def sign : Walk Unit := do
  if (← peek text).any fun c => c == '+' || c == '-' then advance text 1 else return ()

/-- The exponent of a decimal, if there is one. -/
def exponent : Walk Unit := do
  if (← peek text).any isExponentMark then
    advance text 1
    sign text
    skipBytes text Char.isDigit
  else return ()

/-- What is made of the spelling of a decimal that has been passed. -/
def decimalFrom (start : Nat) : Walk Number := do
  if (← peek text) = some 'n' then throw (.unsupported .bigInteger)
  else
    let digits ← spelling text start
    match decimal? (digits.filter (· ≠ '_')) with
    | some d => return d.toNumber
    | none => throw (.invalidNumber (String.ofList digits))

/-- A decimal numeral. -/
def decimal : Walk Number := do
  let start ← get
  skipBytes text isDigitOrGap
  fraction text
  exponent text
  decimalFrom text start

/-- The base that the first two characters at the position mark. -/
def markedBase? : List Char → Option Nat
  | '0' :: mark :: _ => base? mark
  | _ => none

/-- A numeral. -/
def number : Walk Number := do
  match markedBase? (← ahead text) with
  | some base => marked text base (← get)
  | none => decimal text

/-! ### Strings and templates -/

/-- Goes over a number of hexadecimal digits. -/
def hexDigits : Nat → Walk Unit
  | 0 => return ()
  | count + 1 => do
    let c ← bumpOr text .unterminatedString
    if isHexDigit c then hexDigits count else unexpectedBehind c

/-- The character of a code point that is written in hexadecimal digits. -/
def codePoint (digits : List Char) : Walk (List Char) :=
  match wholeValue? 16 digits with
  | some n =>
    if n < 2 ^ 32 then return [charOfCode n] else throw (.invalidNumber (String.ofList digits))
  | none => throw (.invalidNumber (String.ofList digits))

/-- A code point of a number of hexadecimal digits. -/
def fixedCode (count : Nat) : Walk (List Char) := do
  let start ← get
  hexDigits text count
  codePoint (← spelling text start)

/-- A code point in braces. -/
def bracedCode : Walk (List Char) := do
  let _ ← bump text
  let start ← get
  skipBytes text isHexDigit
  let digits ← spelling text start
  expect text '\x7d'
  codePoint digits

/-- What follows a backslash. -/
def escape : Walk (List Char) := do
  let c ← bumpOr text .unterminatedString
  if c = 'x' then fixedCode text 2
  else if c = 'u' then
    if (← peek text) = some '\x7b' then bracedCode text else fixedCode text 4
  else return escapedChar c

/-- The characters up to the closing quote. -/
def untilQuote (quote : Char) : Nat → Walk (List Char)
  | 0 => stuck
  | rounds + 1 => do
    let c ← bumpOr text .unterminatedString
    if c = quote then return []
    else if c = '\\' then
      let front ← escape text
      let behind ← untilQuote quote rounds
      return front ++ behind
    else if c = '\n' && quote ≠ '\x60' then throw .unterminatedString
    else
      let behind ← untilQuote quote rounds
      return c :: behind

/-- A string between quotes. -/
def string (quote : Char) : Walk (List Char) := do
  let _ ← bump text
  untilQuote text quote (rounds text)

/-- A template. -/
def template : Walk (List Char) := do
  let start ← get
  let value ← string text '\x60'
  if Text.occursIn interpolationMark (← spelling text (start + 1)) then
    throw (.unsupported .templateInterpolation)
  else return value

/-! ### Values inside values -/

/-- What `value` gives where nothing goes on with it. -/
def closed (value : Walk Literal) : Walk Literal := do
  let v ← value
  skipBlanks text
  match ← peek text with
  | none => return v
  | some c => if continuesValue c then continued text c else return v

/-- The items of an array up to its closing bracket. -/
def items (value : Walk Literal) : Nat → Walk (List Literal)
  | 0 => stuck
  | rounds + 1 => do
    skipBlanks text
    let c ← peekOr text .unexpectedEnd
    if c = ']' then
      let _ ← bump text
      return []
    else if c = ',' then
      let _ ← bump text
      let behind ← items value rounds
      return Literal.undefined :: behind
    else if startsSpread (← ahead text) then throw (.unsupported .spread)
    else
      let v ← closed text value
      skipBlanks text
      let d ← bumpOr text .unexpectedEnd
      if d = ',' then
        let behind ← items value rounds
        return v :: behind
      else if d = ']' then return [v]
      else unexpectedBehind d

/-- The key of an object entry whose first character is `c`. -/
def key (c : Char) : Walk String := do
  if c = '\x27' || c = '\x22' then return String.ofList (← string text c)
  else if c = '[' then throw (.unsupported .computedKey)
  else if startsSpread (← ahead text) then throw (.unsupported .spread)
  else if c.isDigit then return numberKey (← number text)
  else if isNameStart c then name text
  else unexpected c

/-- An entry whose key has been read. -/
def entryBehind (scope : List String) (value : Walk Literal) (key : String) :
    Walk (String × Literal) := do
  skipBlanks text
  let c ← peekOr text .unexpectedEnd
  if c = ':' then
    let _ ← bump text
    return (key, ← closed text value)
  else if c = ',' || c = '\x7d' then return (key, ← named text scope key)
  else if c = '(' then throw (.unsupported .method)
  else unexpected c

/-- The entries of an object up to its closing brace. -/
def entries (scope : List String) (value : Walk Literal) :
    Nat → Walk (List (String × Literal))
  | 0 => stuck
  | rounds + 1 => do
    skipBlanks text
    let c ← peekOr text .unexpectedEnd
    if c = '\x7d' then
      let _ ← bump text
      return []
    else
      let k ← key text c
      let entry ← entryBehind text scope value k
      skipBlanks text
      let d ← bumpOr text .unexpectedEnd
      if d = ',' then
        let behind ← entries scope value rounds
        return entry :: behind
      else if d = '\x7d' then return [entry]
      else unexpectedBehind d

/-- An array, from its opening bracket on. -/
def array (value : Walk Literal) : Walk Literal := do
  let _ ← bump text
  return .array (← items text value (rounds text))

/-- An object, from its opening brace on. -/
def object (scope : List String) (value : Walk Literal) : Walk Literal := do
  let _ ← bump text
  return .object (← entries text scope value (rounds text))

/-- A value in parentheses, from the opening one on. -/
def grouped (value : Walk Literal) : Walk Literal := do
  let _ ← bump text
  let v ← closed text value
  expect text ')'
  return v

/-- A signed number, from behind its sign. -/
def signed (negative : Bool) (value : Walk Literal) : Walk Literal := do
  match ← value with
  | .number n => return .number (if negative then n.negate else n)
  | _ => throw (.unsupported .signOfNonNumber)

/-- What is read with a walk for the levels inside, if there are such levels. -/
def inside (limit : Nat) (value? : Option (Walk Literal)) (read : Walk Literal → Walk Literal) :
    Walk Literal :=
  match value? with
  | none => throw (.tooDeep limit)
  | some value => read value

/-- A value whose first character is `c`. -/
def valueFrom (setting : Setting) (value? : Option (Walk Literal)) (c : Char) :
    Walk Literal := do
  if c = '-' || c = '+' then
    let _ ← bump text
    inside setting.limit value? (signed (c == '-'))
  else if c = '!' || c = '~' then throw (.unsupported .operator)
  else if c.isDigit || (c == '.' && (← ahead text).tail.head?.any Char.isDigit) then
    return .number (← number text)
  else if c = '\x27' || c = '\x22' then return .string (String.ofList (← string text c))
  else if c = '\x60' then return .string (String.ofList (← template text))
  else if c = '[' then inside setting.limit value? (array text)
  else if c = '\x7b' then inside setting.limit value? (object text setting.scope)
  else if c = '(' then inside setting.limit value? (grouped text)
  else if isNameStart c then named text setting.scope (← name text)
  else unexpected c

/-- The walk for one level, given the walk for the levels inside it. -/
def level (setting : Setting) (value? : Option (Walk Literal)) : Walk Literal := do
  skipBlanks text
  valueFrom text setting value? (← peekOr text .unexpectedEnd)

/-- The walk for values that are nested at most as deep as the number says. -/
def value (setting : Setting) : Nat → Walk Literal
  | 0 => level text setting none
  | depth + 1 => level text setting (some (value setting depth))

/-- The walk over a single expression. -/
def expression (setting : Setting) : Walk Literal := do
  let v ← closed text (value text setting setting.limit)
  skipBlanks text
  match ← peek text with
  | none => return v
  | some c => continued text c

end Walk

/-- The value of a text that is a single expression, found by positions in bytes. -/
def evaluateByPosition (setting : Setting) (text : List Char) :
    Option (Except (Fault Nat) Literal) :=
  Option.map (Except.map Prod.fst) (Walk.expression text setting 0)

end DocComments.Expression
