/-!
# Written hexadecimal digits

A hexadecimal digit is written as a figure or as a letter in either case, and a row of digits denotes
a number, the first digit counting most. Nothing is said here about who reads them.
-/

namespace DocComments.Text

/-- A hexadecimal digit as it is written. A figure looks the same whether it is capital or not. -/
structure HexDigit where
  value : Fin 16
  capital : Bool

/-- The character of a digit. -/
def HexDigit.char (d : HexDigit) : Char :=
  if d.capital then (Nat.digitChar d.value).toUpper else Nat.digitChar d.value

/-- The text of a row of digits. -/
def hexText (digits : List HexDigit) : List Char :=
  digits.map HexDigit.char

/-- The number that a row of digits denotes behind another number. -/
def hexNumberFrom (start : Nat) (digits : List HexDigit) : Nat :=
  digits.foldl (fun n d => 16 * n + d.value) start

/-- The number that a row of digits denotes. -/
def hexNumber (digits : List HexDigit) : Nat :=
  hexNumberFrom 0 digits

@[simp] theorem length_hexText (digits : List HexDigit) : (hexText digits).length = digits.length :=
  List.length_map _

end DocComments.Text
