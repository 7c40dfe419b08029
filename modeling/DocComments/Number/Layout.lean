import DocComments.Number.Decimal

/-!
# Written numbers

How a decimal is written: which exponents are spelled out with zeros, what ends a whole number
written so, and which of two equally near decimals is shown. Signs are written by the caller.
-/

namespace DocComments

/-- The choices that fix the written form of a magnitude. -/
structure Layout where
  /-- Whether a number whose leading digit has this exponent is written without an exponent. -/
  positional : Int → Bool
  /-- What follows a whole number that is written without an exponent. -/
  wholeEnd : String
  /-- Which of two equally near decimals is written. -/
  tie : Decimal.Tie

namespace Layout

/-- The row of digits without the zeros at its end, of which the exponent takes account. -/
def dropZeros (digits : List Char) (exponent : Int) : List Char × Int :=
  let kept := (digits.reverse.dropWhile (· = '0')).reverse
  (kept, exponent + (digits.length - kept.length : Nat))

/-- A row of digits with the point where the exponent puts it. -/
def positionalText (wholeEnd : String) (digits : List Char) (exponent : Int) : List Char :=
  if 0 ≤ exponent then
    digits ++ List.replicate exponent.toNat '0' ++ wholeEnd.toList
  else
    let places := (-exponent).toNat
    if places < digits.length then
      digits.take (digits.length - places) ++ '.' :: digits.drop (digits.length - places)
    else '0' :: '.' :: (List.replicate (places - digits.length) '0' ++ digits)

/-- A row of digits with the point after the first and the exponent of that digit. -/
def scientificText (digits : List Char) (leading : Int) : List Char :=
  let fraction := if digits.length ≤ 1 then [] else '.' :: digits.drop 1
  let sign := if leading < 0 then '-' else '+'
  digits.take 1 ++ fraction ++ 'e' :: sign :: Nat.toDigits 10 leading.natAbs

/-- The written form of a rank's magnitude. -/
def magnitudeText (l : Layout) (rank : Nat) : List Char :=
  if rank = 0 then '0' :: l.wholeEnd.toList
  else
    let d := Decimal.shortest l.tie rank
    let (digits, exponent) := dropZeros (Nat.toDigits 10 d.digits) d.exponent
    let leading := exponent + digits.length - 1
    if l.positional leading then positionalText l.wholeEnd digits exponent
    else scientificText digits leading

end Layout

end DocComments
