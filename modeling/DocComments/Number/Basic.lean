/-!
# Numbers

A number is one of binary64. The magnitudes that the format can hold, listed upwards from zero,
are numbered by their rank: rank 0 is zero, each of the first `2 ^ 53` ranks is one unit above the
one before, and from there on the step doubles every `2 ^ 52` ranks. A unit is `2 ^ (-1074)`, so
every magnitude is a whole number of units and all arithmetic here is exact arithmetic on natural
numbers, rounded once at the end. Nothing is said about how a machine computes.
-/

namespace DocComments

/-- Powers of natural numbers are those of the core library, whatever other powers are in sight. -/
@[default_instance 10001]
instance (priority := 1001) naturalPower : Pow Nat Nat := instPowNat

/-- A binary64 number. Zero has a sign, and there is a single value that is not a number. -/
inductive Number
  | nan
  | infinite (negative : Bool)
  | finite (negative : Bool) (rank : Fin (2047 * 2 ^ 52))
deriving DecidableEq, Repr

namespace Number

/-- How many units make one. -/
def unitsPerOne : Nat := 2 ^ 1074

/-- How often the step between neighbours has doubled at a rank. -/
def doublings (rank : Nat) : Nat :=
  rank / 2 ^ 52 - 1

/-- The magnitude of a rank, in units. -/
def units (rank : Nat) : Nat :=
  (rank - doublings rank * 2 ^ 52) * 2 ^ doublings rank

/-- The rank whose magnitude is nearest to `num / den` units; a tie goes to the even rank. -/
def nearestRank (num den : Nat) : Nat :=
  let doubled := (num / den).log2 - 52
  let step := den * 2 ^ doubled
  let steps := num / step
  let left := num % step
  let up := step < 2 * left || (2 * left == step && steps % 2 == 1)
  doubled * 2 ^ 52 + steps + if up then 1 else 0

/-- The number of a rank, infinite if the rank is past the last finite one. -/
def ofRank (negative : Bool) (rank : Nat) : Number :=
  if h : rank < 2047 * 2 ^ 52 then .finite negative ⟨rank, h⟩ else .infinite negative

/-- The number nearest to `num / den`. -/
def ofRatio (negative : Bool) (num den : Nat) : Number :=
  ofRank negative (nearestRank (num * unitsPerOne) den)

/-- The number nearest to a natural number. -/
def ofNat (n : Nat) : Number :=
  ofRatio false n 1

/-- The number nearest to an integer. -/
def ofInt (i : Int) : Number :=
  ofRatio (i < 0) i.natAbs 1

/-- The rank of the product of two magnitudes, given by their ranks. -/
def productRank (r s : Nat) : Nat :=
  nearestRank (units r * units s) unitsPerOne

/-- The rank of the quotient of two magnitudes, given by their ranks. -/
def quotientRank (r s : Nat) : Nat :=
  nearestRank (units r * unitsPerOne) (units s)

/-- The number with the other sign. -/
def negate : Number → Number
  | nan => nan
  | infinite negative => infinite (!negative)
  | finite negative rank => finite (!negative) rank

/-- The integer that a number is equal to, if there is one. -/
def toInt? : Number → Option Int
  | finite negative rank =>
    if units rank % unitsPerOne = 0 then
      let magnitude : Int := units rank / unitsPerOne
      some (if negative then -magnitude else magnitude)
    else none
  | _ => none

/-- The 64 bits of the interchange format: the sign, and then the rank. -/
def toBits : Number → Nat
  | nan => 2047 * 2 ^ 52 + 2 ^ 51
  | infinite negative => (if negative then 2 ^ 63 else 0) + 2047 * 2 ^ 52
  | finite negative rank => (if negative then 2 ^ 63 else 0) + rank

@[simp] theorem negate_negate (n : Number) : n.negate.negate = n := by
  cases n <;> simp [negate]

end Number

end DocComments
