/-!
# Ranges of code points

A character property is given as the ranges of code points that have it, in increasing order.
The order is used to stop early; nothing here checks it.
-/

namespace DocComments.Unicode

/-- Ranges of code points, each with its first and last, in increasing order. -/
abbrev Ranges := List (Nat × Nat)

/-- Whether a code point lies in one of the ranges. -/
def Ranges.covers : Ranges → Nat → Bool
  | [], _ => false
  | (first, last) :: rest, n => if n < first then false else n ≤ last || Ranges.covers rest n

end DocComments.Unicode
