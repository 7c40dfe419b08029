import DocComments.Expression.Numeral
import DocComments.Text.Search

/-!
# Strings and templates in expressions

A string stands between two equal quotes on one line; a template stands between backticks and may
span lines. A backslash gives the character after it a meaning of its own or takes one away, names
a code point in hexadecimal, or continues the line. A template is refused if its spelling holds a
dollar sign directly before a brace, also where a backslash stands before the two.
-/

namespace DocComments.Expression
open Text (Found firstMark afterMark)

/-- What a backslash and one more character stand for, code points apart. -/
def escapedChar (c : Char) : List Char :=
  match c with
  | 'n' => ['\n']
  | 't' => ['\t']
  | 'r' => ['\r']
  | 'b' => ['\x08']
  | 'f' => ['\x0c']
  | 'v' => ['\x0b']
  | '0' => ['\x00']
  | '\n' => []
  | _ => [c]

/-- The character of a code point, or the replacement character if there is none. -/
def charOfCode (n : Nat) : Char :=
  if n.isValidChar then Char.ofNat n else '\ufffd'

/-- The value of exactly `count` hexadecimal digits, added to those read before. -/
def hexValue : Nat → Nat → List Char → Except (Fault (List Char)) Nat
  | 0, value, _ => .ok value
  | _ + 1, _, [] => .error .unterminatedString
  | count + 1, value, c :: s =>
    match digitValue? 16 c with
    | some d => hexValue count (16 * value + d) s
    | none => .error (.unexpectedChar c (c :: s))

/-- A code point of exactly `count` hexadecimal digits. -/
def fixedCode (count : Nat) (mark : Char) (s : List Char) : Result (List Char) (mark :: s) :=
  match hexValue count 0 s with
  | .error e => .error e
  | .ok n =>
    .ok ⟨[charOfCode n], s.drop count, by
      simp only [List.length_drop, List.length_cons]
      omega⟩

/-- Whether a character is a hexadecimal digit. -/
def isHexDigit (c : Char) : Bool :=
  (digitValue? 16 c).isSome

/-- A code point of any number of hexadecimal digits, up to the closing brace. -/
def bracedCode (s : List Char) : Result (List Char) ('u' :: '\x7b' :: s) :=
  let digits := s.takeWhile isHexDigit
  let rest := s.dropWhile isHexDigit
  match firstMark rest with
  | none => .error .unexpectedEnd
  | some c =>
    if c = '\x7d' then
      match wholeValue? 16 digits with
      | some n =>
        if n < 2 ^ 32 then
          .ok ⟨[charOfCode n], afterMark rest, by
            have h₁ := Text.length_afterMark_le rest
            have h₂ : rest.length ≤ s.length := Text.length_dropWhile_le isHexDigit s
            simp only [List.length_cons]
            omega⟩
        else .error (.invalidNumber (String.ofList digits))
      | none => .error (.invalidNumber (String.ofList digits))
    else .error (.unexpectedChar c (Text.trimStart rest))

/-- What follows a backslash. -/
def escape : (s : List Char) → Result (List Char) s
  | [] => .error .unterminatedString
  | 'x' :: s => fixedCode 2 'x' s
  | 'u' :: '\x7b' :: s => bracedCode s
  | 'u' :: s => fixedCode 4 'u' s
  | c :: _ => .ok (.one (escapedChar c))

/-- The characters up to the closing quote. -/
def quoted (quote : Char) (s : List Char) : Result (List Char) s :=
  match s with
  | [] => .error .unterminatedString
  | c :: s =>
    if c = quote then .ok (.one [])
    else if c = '\\' then
      match escape s with
      | .error e => .error e
      | .ok f =>
        (quoted quote f.rest).map fun g => (f.after (g.map (f.value ++ ·))).behind
    else if c = '\n' && quote ≠ '\x60' then .error .unterminatedString
    else (quoted quote s).map fun g => (g.map (c :: ·)).behind
termination_by s.length
decreasing_by
  all_goals simp only [List.length_cons]
  · have h := f.shorter
    omega
  · omega

/-- The mark of an interpolation: a dollar sign and a brace. -/
def interpolationMark : List Char := ['$', '\x7b']

/-- The characters of a template up to its closing backtick. -/
def template (s : List Char) : Result (List Char) s :=
  match quoted '\x60' s with
  | .error e => .error e
  | .ok f =>
    if Text.occursIn interpolationMark (s.take (s.length - f.rest.length)) then
      .error (.unsupported .templateInterpolation)
    else .ok f

end DocComments.Expression
