import DocComments.Text.Found
import DocComments.Number.Basic

/-!
# Numbers in data

A numeral has a whole part without needless zeros, and optionally a fraction and an exponent, each
of at least one digit. Its value is found in two roundings: the leading digits, as many as fit 64
bits, are rounded to a number, and that number is multiplied or divided by a rounded power of ten.
A numeral whose value would be infinite is refused.
-/

namespace DocComments.Json
open Text (Found)

/-- The parts of a numeral. -/
structure Numeral where
  negative : Bool
  whole : List Char
  fraction : List Char
  exponentNegative : Bool
  exponent : Nat

namespace Numeral

/-- The largest whole number of 64 bits. -/
def significandLimit : Nat := 2 ^ 64 - 1

/-- The largest exponent that is told from an infinite one. -/
def exponentLimit : Nat := 2 ^ 31 - 1

/-- The largest power of ten by which a number is multiplied or divided at once. -/
def largestPower : Nat := 308

/-- Digits taken into a significand until the next would not fit, and the digits left over. -/
def takeDigits (significand : Nat) : List Char → Nat × List Char
  | [] => (significand, [])
  | c :: s =>
    let next := 10 * significand + (c.toNat - 48)
    if next ≤ significandLimit then takeDigits next s else (significand, c :: s)

/-- The rank of a power of ten. -/
def powerRank (n : Nat) : Nat :=
  Number.nearestRank (10 ^ n * Number.unitsPerOne) 1

/-- A magnitude divided by a power of ten, in steps of the largest power. -/
def divided (rank n : Nat) : Nat :=
  if n ≤ largestPower then Number.quotientRank rank (powerRank n)
  else if rank = 0 then 0
  else divided (Number.quotientRank rank (powerRank largestPower)) (n - largestPower)
termination_by n
decreasing_by
  simp only [largestPower] at *
  omega

/-- A magnitude multiplied by a power of ten, unless the product is infinite. -/
def multiplied? (rank n : Nat) : Option Nat :=
  if n ≤ largestPower then
    let product := Number.productRank rank (powerRank n)
    if product < 2047 * 2 ^ 52 then some product else none
  else if rank = 0 then some 0 else none

/-- The rank of `significand * 10 ^ exponent`, unless it is infinite. -/
def scaled? (significand : Nat) (exponent : Int) : Option Nat :=
  let rank := Number.nearestRank (significand * Number.unitsPerOne) 1
  if 0 ≤ exponent then multiplied? rank exponent.toNat
  else some (divided rank (-exponent).toNat)

/-- The number that a numeral denotes, unless it is too large. -/
def value? (n : Numeral) : Option Number :=
  let (leading, dropped) := takeDigits 0 n.whole
  let (significand, ignored) := takeDigits leading n.fraction
  let places : Int := (dropped.length : Int) - (n.fraction.length - ignored.length : Nat)
  let rank? :=
    if exponentLimit < n.exponent then
      if significand = 0 || n.exponentNegative then some 0 else none
    else
      let exponent : Int := if n.exponentNegative then -n.exponent else n.exponent
      scaled? significand (places + exponent)
  rank?.map (Number.ofRank n.negative)

end Numeral

/-- The whole part of a numeral and the text after it: a zero alone, or digits without a zero in
front. -/
def wholePart? : List Char → Option (List Char × List Char)
  | [] => none
  | c :: s =>
    if c = '0' then
      if s.head?.any Char.isDigit then none else some (['0'], s)
    else if c.isDigit then some (c :: s.takeWhile Char.isDigit, s.dropWhile Char.isDigit)
    else none

/-- At least one digit, and the text after the digits. -/
def digits? (s : List Char) : Option (List Char × List Char) :=
  if s.head?.any Char.isDigit then some (s.takeWhile Char.isDigit, s.dropWhile Char.isDigit)
  else none

/-- The fraction of a numeral, empty if there is none, and the text after it. -/
def fractionPart? : List Char → Option (List Char × List Char)
  | '.' :: s => digits? s
  | s => some ([], s)

/-- The sign of an exponent and the text after it. -/
def exponentSign : List Char → Bool × List Char
  | '-' :: s => (true, s)
  | '+' :: s => (false, s)
  | s => (false, s)

/-- The exponent of a numeral, zero if there is none, and the text after it. -/
def exponentPart? : List Char → Option (Bool × Nat × List Char)
  | [] => some (false, 0, [])
  | c :: s =>
    if c = 'e' || c = 'E' then
      let (negative, t) := exponentSign s
      (digits? t).map fun (digits, rest) => (negative, Nat.ofDigitChars 10 digits 0, rest)
    else some (false, 0, c :: s)

/-- A numeral without its sign, and the text after it. -/
def unsigned? (negative : Bool) (s : List Char) : Option (Numeral × List Char) :=
  match wholePart? s with
  | none => none
  | some (whole, s) =>
    match fractionPart? s with
    | none => none
    | some (fraction, s) =>
      match exponentPart? s with
      | none => none
      | some (exponentNegative, exponent, s) =>
        some (⟨negative, whole, fraction, exponentNegative, exponent⟩, s)

theorem length_of_digits? {s digits rest : List Char} (h : digits? s = some (digits, rest)) :
    rest.length ≤ s.length := by
  unfold digits? at h
  split at h
  · simp only [Option.some.injEq, Prod.mk.injEq] at h
    exact h.2 ▸ Text.length_dropWhile_le Char.isDigit s
  · cases h

theorem length_of_wholePart? {s digits rest : List Char}
    (h : wholePart? s = some (digits, rest)) : rest.length < s.length := by
  cases s with
  | nil => cases h
  | cons c s =>
    have hs := Text.length_dropWhile_le Char.isDigit s
    simp only [wholePart?] at h
    simp only [List.length_cons]
    split at h
    · split at h
      · cases h
      · cases h
        omega
    · split at h
      · simp only [Option.some.injEq, Prod.mk.injEq] at h
        rw [← h.2]
        omega
      · cases h

theorem length_of_fractionPart? {s digits rest : List Char}
    (h : fractionPart? s = some (digits, rest)) : rest.length ≤ s.length := by
  unfold fractionPart? at h
  split at h
  · exact Nat.le_succ_of_le (length_of_digits? h)
  · cases h
    exact Nat.le_refl _

theorem length_exponentSign_le (s : List Char) : (exponentSign s).2.length ≤ s.length := by
  unfold exponentSign
  split <;> simp

theorem length_of_exponentPart? {s rest : List Char} {negative : Bool} {n : Nat}
    (h : exponentPart? s = some (negative, n, rest)) : rest.length ≤ s.length := by
  cases s with
  | nil =>
    cases h
    exact Nat.le_refl _
  | cons c s =>
    rw [exponentPart?] at h
    split at h
    · obtain ⟨x, hx, he⟩ := Option.map_eq_some_iff.1 h
      have hd := length_of_digits? (s := (exponentSign s).2) hx
      have hs := length_exponentSign_le s
      simp only [Prod.mk.injEq] at he
      rw [← he.2.2]
      simp only [List.length_cons]
      omega
    · cases h
      exact Nat.le_refl _

theorem length_of_unsigned? {negative : Bool} {s rest : List Char} {n : Numeral}
    (h : unsigned? negative s = some (n, rest)) : rest.length < s.length := by
  unfold unsigned? at h
  split at h
  · cases h
  · rename_i hw
    split at h
    · cases h
    · rename_i hf
      split at h
      · cases h
      · rename_i he
        cases h
        exact Nat.lt_of_le_of_lt
          (Nat.le_trans (length_of_exponentPart? he) (length_of_fractionPart? hf))
          (length_of_wholePart? hw)

/-- The number in front of a text, which has no sign of its own. -/
def unsignedNumber? (negative : Bool) (s : List Char) : Option (Found Number s) :=
  match h : unsigned? negative s with
  | none => none
  | some (n, rest) => n.value?.map fun v => ⟨v, rest, length_of_unsigned? h⟩

/-- The number in front of a text, with the text after it. -/
def numeral? (c : Char) (s : List Char) : Option (Found Number (c :: s)) :=
  if c = '-' then (unsignedNumber? true s).map Found.behind
  else unsignedNumber? false (c :: s)

end DocComments.Json
