import DocComments.Number.Basic

/-!
# Decimal numbers

A decimal is a row of digits and a power of ten. Reading one gives the nearest number. In the
other direction a finite number other than zero has a shortest decimal: among the decimals that
read back as the number, one with the fewest digits, and of those the one nearest to it. When two
are equally near, the caller decides.
-/

namespace DocComments

/-- The decimal `digits * 10 ^ exponent`. -/
structure Decimal where
  digits : Nat
  exponent : Int
deriving DecidableEq, Repr

namespace Decimal

/-- Which of two equally near decimals is taken. -/
inductive Tie
  | even
  | up
deriving DecidableEq, Repr

/-- The number nearest to a decimal. Beyond an exponent of 400 either way the answer is infinite
or zero, whatever the digits. -/
def toNumber (d : Decimal) : Number :=
  if d.digits = 0 then Number.ofNat 0
  else if 0 ≤ d.exponent then
    if 400 < d.exponent then .infinite false
    else Number.ofRatio false (d.digits * 10 ^ d.exponent.toNat) 1
  else if d.digits.log2 + 400 < (-d.exponent).toNat then Number.ofNat 0
  else Number.ofRatio false d.digits (10 ^ (-d.exponent).toNat)

/-- The value between `low` and `high` on the grid of whole multiples of `step` that is nearest to
`value`, counted in steps. All four are in one measure, and the ends count if `closed`. -/
def nearestOnGrid? (tie : Tie) (closed : Bool) (low value high step : Nat) : Option Nat :=
  let below := value / step
  let above := below + 1
  let within (x : Nat) : Bool :=
    if closed then low ≤ x * step && x * step ≤ high else low < x * step && x * step < high
  match within below, within above with
  | true, true =>
    let down := value - below * step
    let rise := above * step - value
    if down < rise then some below
    else if rise < down then some above
    else match tie with
      | .up => some above
      | .even => some (if below % 2 = 0 then below else above)
  | true, false => some below
  | false, true => some above
  | false, false => none

/-- The decimal with the given exponent that reads back as the number of a rank, if there is one,
and the nearest of them. The bounds are the midpoints to the neighbouring ranks. -/
def withExponent? (tie : Tie) (rank : Nat) (exponent : Int) : Option Decimal :=
  let scale := 10 ^ (-exponent).toNat
  let low := (Number.units (rank - 1) + Number.units rank) * scale
  let high := (Number.units rank + Number.units (rank + 1)) * scale
  let value := 2 * Number.units rank * scale
  let step := 10 ^ exponent.toNat * (2 * Number.unitsPerOne)
  (nearestOnGrid? tie (rank % 2 = 0) low value high step).map fun n => ⟨n, exponent⟩

/-- The first decimal found while the exponent goes down, so the one with the fewest digits. -/
def firstFrom (tie : Tie) (rank : Nat) : Nat → Int → Decimal
  | 0, exponent => ⟨0, exponent⟩
  | tries + 1, exponent =>
    match withExponent? tie rank exponent with
    | some d => d
    | none => firstFrom tie rank tries (exponent - 1)

/-- How many decimal digits a natural number has. -/
def digitCount (n : Nat) : Nat :=
  (Nat.toDigits 10 n).length

/-- The exponent of the leading digit of a rank's magnitude, or the exponent above it. -/
def leadingExponent (rank : Nat) : Int :=
  if Number.unitsPerOne ≤ Number.units rank then
    (digitCount (Number.units rank / Number.unitsPerOne) : Int) - 1
  else 1 - (digitCount (Number.unitsPerOne / Number.units rank) : Int)

/-- The shortest decimal of a rank other than zero. Seventeen digits always suffice. -/
def shortest (tie : Tie) (rank : Nat) : Decimal :=
  firstFrom tie rank 18 (leadingExponent rank)

end Decimal

end DocComments
