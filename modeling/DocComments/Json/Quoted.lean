import DocComments.Text.Found

/-!
# Strings in data

A string stands between double quotes and holds no control character. A backslash names a
character by a letter or by its code point in four hexadecimal digits; a code point above the
first plane takes two such names, and half of such a pair names nothing.
-/

namespace DocComments.Json
open Text (Found)

/-- The value of a hexadecimal digit. -/
def hexDigit? (c : Char) : Option Nat :=
  if c.isDigit then some (c.toNat - 48)
  else if 'a' ≤ c && c ≤ 'f' then some (c.toNat - 87)
  else if 'A' ≤ c && c ≤ 'F' then some (c.toNat - 55)
  else none

/-- The value of four hexadecimal digits in front of a text. -/
def hexUnit? : List Char → Option Nat
  | a :: b :: c :: d :: _ =>
    match hexDigit? a, hexDigit? b, hexDigit? c, hexDigit? d with
    | some a, some b, some c, some d => some (((a * 16 + b) * 16 + c) * 16 + d)
    | _, _, _, _ => none
  | _ => none

/-- Whether a unit is the first half of a pair. -/
def isFirstHalf (n : Nat) : Bool :=
  0xD800 ≤ n && n ≤ 0xDBFF

/-- Whether a unit is the second half of a pair. -/
def isSecondHalf (n : Nat) : Bool :=
  0xDC00 ≤ n && n ≤ 0xDFFF

/-- The character that two halves stand for. -/
def pairedChar (first second : Nat) : Char :=
  Char.ofNat (0x10000 + (first - 0xD800) * 0x400 + (second - 0xDC00))

/-- The character named by a code point, read from behind the letter that announces it. -/
def codeEscape? (s : List Char) : Option (Found Char ('u' :: s)) :=
  match hexUnit? s with
  | none => none
  | some n =>
    if isSecondHalf n then none
    else if isFirstHalf n then
      match s.drop 4 with
      | '\\' :: 'u' :: t =>
        match hexUnit? t with
        | some m =>
          if isSecondHalf m then
            some ⟨pairedChar n m, s.drop 10, by
              simp only [List.length_drop, List.length_cons]
              omega⟩
          else none
        | none => none
      | _ => none
    else
      some ⟨Char.ofNat n, s.drop 4, by
        simp only [List.length_drop, List.length_cons]
        omega⟩

/-- The character that a letter names behind a backslash. -/
def namedChar? (c : Char) : Option Char :=
  match c with
  | '\x22' => some '\x22'
  | '\\' => some '\\'
  | '/' => some '/'
  | 'b' => some '\x08'
  | 'f' => some '\x0c'
  | 'n' => some '\n'
  | 'r' => some '\r'
  | 't' => some '\t'
  | _ => none

/-- The character that is named behind a backslash. -/
def escape? : (s : List Char) → Option (Found Char s)
  | [] => none
  | 'u' :: s => codeEscape? s
  | c :: _ => (namedChar? c).map Found.one

/-- The characters up to the closing quote. -/
def quoted? (s : List Char) : Option (Found (List Char) s) :=
  match s with
  | [] => none
  | c :: s =>
    if c = '\x22' then some (.one [])
    else if c = '\\' then
      match escape? s with
      | none => none
      | some f =>
        (quoted? f.rest).map fun g => (f.after (g.map (f.value :: ·))).behind
    else if c.toNat < 32 then none
    else (quoted? s).map fun g => (g.map (c :: ·)).behind
termination_by s.length
decreasing_by
  all_goals simp only [List.length_cons]
  · have h := f.shorter
    omega
  · omega

end DocComments.Json
