import DocComments.Number.Layout

/-!
# Numbers as keys

The key that a numeral gives to an object entry. A whole number is written by its digits as long
as it is below `10 ^ 21`, but never above the largest signed integer of 64 bits; every other
number is written without an exponent, however many zeros that takes. Numerals have no sign.
-/

namespace DocComments.Expression

/-- Keys never have an exponent, and a whole number ends with its last digit. -/
def keyLayout : Layout := ⟨fun _ => true, "", .up⟩

/-- The largest signed integer of 64 bits. -/
def largestKey : Int := ((2 ^ 63 - 1 : Nat) : Int)

/-- The key of a rank, given the integer that its magnitude is equal to, if there is one. -/
def finiteKey (rank : Nat) : Option Int → String
  | some n =>
    if n < ((10 ^ 21 : Nat) : Int) then toString (min n largestKey)
    else String.ofList (keyLayout.magnitudeText rank)
  | none => String.ofList (keyLayout.magnitudeText rank)

/-- The text of a numeral's value as a key. -/
def numberKey : Number → String
  | .nan => "NaN"
  | .infinite _ => "inf"
  | .finite _ rank => finiteKey rank (Number.finite false rank).toInt?

end DocComments.Expression
