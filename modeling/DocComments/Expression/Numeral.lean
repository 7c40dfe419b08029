import DocComments.Expression.Fault
import DocComments.Number.Decimal
import DocComments.Text.Found

/-!
# Numerals in expressions

A numeral is a whole number in base sixteen, eight or two, marked by its second character, or a
decimal with an optional fraction and an optional exponent. Underscores may stand among the digits
and mean nothing. A reader takes as long a spelling as it can before it asks for the value.
-/

namespace DocComments.Expression
open Text (Found)

/-- What a reader makes of a text. -/
abbrev Result (α : Type) (s : List Char) := Except (Fault (List Char)) (Found α s)

/-- A digit, or the underscore that may stand between digits. -/
def isDigitOrGap (c : Char) : Bool :=
  c.isDigit || c == '_'

/-- What may stand in a numeral whose base is marked, before its digits are looked at. -/
def isMarkedDigit (c : Char) : Bool :=
  c.isAlphanum || c == '_'

/-- The base that the second character of a numeral marks. -/
def base? (c : Char) : Option Nat :=
  if c = 'x' || c = 'X' then some 16
  else if c = 'o' || c = 'O' then some 8
  else if c = 'b' || c = 'B' then some 2
  else none

/-- The value of a digit or letter in a base that has it. -/
def digitValue? (base : Nat) (c : Char) : Option Nat :=
  let value :=
    if c.isDigit then c.toNat - 48
    else if c.isLower then c.toNat - 87
    else if c.isUpper then c.toNat - 55
    else base
  if value < base then some value else none

/-- The value of a row of one or more digits. -/
def wholeValue? (base : Nat) (digits : List Char) : Option Nat :=
  if digits = [] then none
  else digits.foldlM (fun n c => (digitValue? base c).map (base * n + ·)) 0

/-- The value of a numeral with a marked base, if its digits are right and it fits 64 bits. -/
def markedValue? (base : Nat) (digits : List Char) : Option Number :=
  match wholeValue? base (digits.filter (· ≠ '_')) with
  | some n => if n < 2 ^ 64 then some (Number.ofNat n) else none
  | none => none

/-- The text after a row of digits and underscores. -/
def afterDigits (s : List Char) : List Char :=
  s.dropWhile isDigitOrGap

/-- The text after a point and the digits that follow it. -/
def afterFraction : List Char → List Char
  | [] => []
  | c :: s => if c = '.' then afterDigits s else c :: s

/-- The text without a sign in front. -/
def afterSign : List Char → List Char
  | [] => []
  | c :: s => if c = '+' || c = '-' then s else c :: s

/-- The text after an exponent mark, its sign and its digits. -/
def afterExponent : List Char → List Char
  | [] => []
  | c :: s => if c = 'e' || c = 'E' then (afterSign s).dropWhile Char.isDigit else c :: s

/-- The text after a decimal numeral whose first character is `c`, a digit or a point. -/
def afterDecimal (c : Char) (s : List Char) : List Char :=
  if c = '.' then afterExponent (afterDigits s) else afterExponent (afterFraction (afterDigits s))

theorem length_afterDigits_le (s : List Char) : (afterDigits s).length ≤ s.length :=
  Text.length_dropWhile_le _ s

theorem length_afterFraction_le (s : List Char) : (afterFraction s).length ≤ s.length := by
  cases s with
  | nil => simp [afterFraction]
  | cons c s =>
    have h := length_afterDigits_le s
    rw [afterFraction]
    split
    · simp only [List.length_cons]
      omega
    · exact Nat.le_refl _

theorem length_afterSign_le (s : List Char) : (afterSign s).length ≤ s.length := by
  cases s with
  | nil => simp [afterSign]
  | cons c s => rw [afterSign]; split <;> simp

theorem length_afterExponent_le (s : List Char) : (afterExponent s).length ≤ s.length := by
  cases s with
  | nil => simp [afterExponent]
  | cons c s =>
    have h₁ := Text.length_dropWhile_le Char.isDigit (afterSign s)
    have h₂ := length_afterSign_le s
    rw [afterExponent]
    split
    · simp only [List.length_cons]
      omega
    · exact Nat.le_refl _

theorem length_afterDecimal_le (c : Char) (s : List Char) :
    (afterDecimal c s).length ≤ s.length := by
  have h₁ := length_afterDigits_le s
  unfold afterDecimal
  split
  · exact Nat.le_trans (length_afterExponent_le _) h₁
  · exact Nat.le_trans (length_afterExponent_le _)
      (Nat.le_trans (length_afterFraction_le _) h₁)

/-- The value of the part after an exponent mark: a sign or none, and at least one digit. -/
def exponentValue? (s : List Char) : Option Int :=
  let digits := afterSign s
  if digits = [] then none
  else
    let magnitude : Int := Nat.ofDigitChars 10 digits 0
    some (if s.head? = some '-' then -magnitude else magnitude)

/-- Whether a character marks the exponent of a decimal. -/
def isExponentMark (c : Char) : Bool :=
  c == 'e' || c == 'E'

/-- The decimal that a spelling without underscores denotes, unless its exponent lacks digits. -/
def decimal? (spelling : List Char) : Option Decimal :=
  let mantissa := spelling.takeWhile (!isExponentMark ·)
  let whole := mantissa.takeWhile (· ≠ '.')
  let fraction := (mantissa.dropWhile (· ≠ '.')).drop 1
  let digits := Nat.ofDigitChars 10 (whole ++ fraction) 0
  match spelling.dropWhile (!isExponentMark ·) with
  | [] => some ⟨digits, -fraction.length⟩
  | _ :: s => (exponentValue? s).map fun e => ⟨digits, e - fraction.length⟩

/-- A numeral with a marked base: `0`, the mark, and everything that could be one of its digits. -/
def markedNumeral (base : Nat) (mark : Char) (s : List Char) :
    Result Number ('0' :: mark :: s) :=
  let digits := s.takeWhile isMarkedDigit
  match markedValue? base digits with
  | some n =>
    .ok ⟨n, s.dropWhile isMarkedDigit, by
      have h := Text.length_dropWhile_le isMarkedDigit s
      simp only [List.length_cons]
      omega⟩
  | none => .error (.invalidNumber (String.ofList ('0' :: mark :: digits)))

/-- A decimal numeral whose first character is `c`, a digit or a point. -/
def decimalNumeral (c : Char) (s : List Char) : Result Number (c :: s) :=
  let rest := afterDecimal c s
  if rest.head? = some 'n' then .error (.unsupported .bigInteger)
  else
    let spelling := c :: s.take (s.length - rest.length)
    match decimal? (spelling.filter (· ≠ '_')) with
    | some d =>
      .ok ⟨d.toNumber, rest, Nat.lt_succ_of_le (length_afterDecimal_le c s)⟩
    | none => .error (.invalidNumber (String.ofList spelling))

/-- A numeral whose first character is a digit, or a point before a digit. -/
def numeral : (s : List Char) → Result Number s
  | [] => .error .unexpectedEnd
  | '0' :: mark :: s =>
    match base? mark with
    | some base => markedNumeral base mark s
    | none => decimalNumeral '0' (mark :: s)
  | c :: s => decimalNumeral c s

end DocComments.Expression
