import DocComments.Json.Basic
import DocComments.Number.Layout

/-!
# Writing data

The text of a value, on one line or over many. The two styles differ only in the blanks between
the parts. A whole number of magnitude up to `2 ^ 53` is written as an integer, so negative zero
loses its sign; a number that is not finite is written as null.
-/

namespace DocComments.Json

/-- The blanks between the parts of a value: what stands at each depth before an item and before
the closing bracket, and what stands after a colon. -/
structure Style where
  gap : Nat → List Char
  afterColon : List Char

/-- Everything on one line, without blanks. -/
def compactStyle : Style := ⟨fun _ => [], []⟩

/-- Each item on a line of its own, two spaces further in than its container. -/
def prettyStyle : Style := ⟨fun depth => '\n' :: List.replicate (2 * depth) ' ', [' ']⟩

/-- A number has an exponent from `10 ^ 16` on and below `10 ^ (-5)`. -/
def numberLayout : Layout := ⟨fun leading => -5 ≤ leading && leading ≤ 15, ".0", .even⟩

/-- The largest magnitude that is written as an integer. -/
def largestInteger : Nat := 2 ^ 53

/-- A sign if there is one, and the magnitude of a rank. -/
def signedText (negative : Bool) (rank : Nat) : List Char :=
  let magnitude := numberLayout.magnitudeText rank
  if negative then '-' :: magnitude else magnitude

/-- The text of a finite number, given the integer that it is equal to, if there is one. -/
def finiteText (negative : Bool) (rank : Nat) : Option Int → List Char
  | some i =>
    if i.natAbs ≤ largestInteger then (toString i).toList else signedText negative rank
  | none => signedText negative rank

/-- The text of a number. -/
def numberText (n : Number) : List Char :=
  match n with
  | .finite negative rank => finiteText negative rank n.toInt?
  | _ => "null".toList

/-- A character as it stands in a string. -/
def escapedChar (c : Char) : List Char :=
  if c = '\x22' then ['\\', '\x22']
  else if c = '\\' then ['\\', '\\']
  else if c = '\x08' then ['\\', 'b']
  else if c = '\x0c' then ['\\', 'f']
  else if c = '\n' then ['\\', 'n']
  else if c = '\r' then ['\\', 'r']
  else if c = '\t' then ['\\', 't']
  else if c.toNat < 32 then
    ['\\', 'u', '0', '0', Nat.digitChar (c.toNat / 16), Nat.digitChar (c.toNat % 16)]
  else [c]

/-- The text of a string. -/
def stringText (s : String) : List Char :=
  '\x22' :: (s.toList.flatMap escapedChar ++ ['\x22'])

mutual

/-- The text of a value at a depth. -/
def textAt (style : Style) (depth : Nat) : Json → List Char
  | null => "null".toList
  | bool value => (if value then "true" else "false").toList
  | number value => numberText value
  | string value => stringText value
  | array [] => ['[', ']']
  | array (x :: xs) =>
    '[' :: (itemsText style (depth + 1) (x :: xs) ++ style.gap depth ++ [']'])
  | object [] => ['\x7b', '\x7d']
  | object (x :: xs) =>
    '\x7b' :: (entriesText style (depth + 1) (x :: xs) ++ style.gap depth ++ ['\x7d'])

/-- The texts of items, each after its gap and with commas between them. -/
def itemsText (style : Style) (depth : Nat) : List Json → List Char
  | [] => []
  | [x] => style.gap depth ++ textAt style depth x
  | x :: y :: xs =>
    style.gap depth ++ textAt style depth x ++ ',' :: itemsText style depth (y :: xs)

/-- The texts of entries, each after its gap and with commas between them. -/
def entriesText (style : Style) (depth : Nat) : List (String × Json) → List Char
  | [] => []
  | [(k, x)] =>
    style.gap depth ++ stringText k ++ ':' :: (style.afterColon ++ textAt style depth x)
  | (k, x) :: y :: xs =>
    style.gap depth ++ stringText k ++ ':' :: (style.afterColon ++ textAt style depth x) ++
      ',' :: entriesText style depth (y :: xs)

end

/-- The text of a value on one line. -/
def compact (j : Json) : String :=
  String.ofList (textAt compactStyle 0 j)

/-- The text of a value over many lines. -/
def pretty (j : Json) : String :=
  String.ofList (textAt prettyStyle 0 j)

end DocComments.Json
