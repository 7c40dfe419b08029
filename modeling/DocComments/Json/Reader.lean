import DocComments.Json.Basic
import DocComments.Json.Numeral
import DocComments.Json.Quoted
import DocComments.Text.Search

/-!
# Reading data

The value of a text, if it has one. Containers may be nested up to a given depth. Blanks are the
space, the tab and the two line ends. A key that occurs twice is kept twice.
-/

namespace DocComments.Json
open Text (Found)

/-- Whether a character may stand between the parts of a value. -/
def isSpace (c : Char) : Bool :=
  c == ' ' || c == '\n' || c == '\t' || c == '\r'

/-- The text without the blanks in front. -/
def skip (s : List Char) : List Char :=
  s.dropWhile isSpace

theorem length_skip_le (s : List Char) : (skip s).length ≤ s.length :=
  Text.length_dropWhile_le isSpace s

theorem length_tail_skip_le (s : List Char) : (skip s).tail.length ≤ s.length := by
  have h := length_skip_le s
  simp only [List.length_tail]
  omega

/-- A reader of values. -/
abbrev Reader := (s : List Char) → Option (Found Json s)

/-- One or more items and the bracket that closes them. -/
def items? (value : Reader) (s : List Char) : Option (Found (List Json) s) :=
  match value s with
  | none => none
  | some f =>
    match (skip f.rest).head? with
    | some ',' =>
      (items? value (skip f.rest).tail).map fun g =>
        f.after ((g.map (f.value :: ·)).within (length_tail_skip_le f.rest))
    | some ']' =>
      some ((f.leaving (skip f.rest).tail (length_tail_skip_le f.rest)).map ([·]))
    | _ => none
termination_by s.length
decreasing_by
  have h₁ := length_tail_skip_le f.rest
  have h₂ := f.shorter
  omega

/-- A key, which is a string, after the blanks in front of it. -/
def key? (s : List Char) : Option (Found String s) :=
  if (skip s).head? = some '\x22' then
    (quoted? (skip s).tail).map fun f =>
      (f.map String.ofList).within (length_tail_skip_le s)
  else none

/-- A key, a colon and a value. -/
def entry? (value : Reader) (s : List Char) : Option (Found (String × Json) s) :=
  match key? s with
  | none => none
  | some k =>
    if (skip k.rest).head? = some ':' then
      (value (skip k.rest).tail).map fun f =>
        k.after ((f.map (k.value, ·)).within (length_tail_skip_le k.rest))
    else none

/-- One or more entries and the brace that closes them. -/
def entries? (value : Reader) (s : List Char) : Option (Found (List (String × Json)) s) :=
  match entry? value s with
  | none => none
  | some f =>
    match (skip f.rest).head? with
    | some ',' =>
      (entries? value (skip f.rest).tail).map fun g =>
        f.after ((g.map (f.value :: ·)).within (length_tail_skip_le f.rest))
    | some '\x7d' =>
      some ((f.leaving (skip f.rest).tail (length_tail_skip_le f.rest)).map ([·]))
    | _ => none
termination_by s.length
decreasing_by
  have h₁ := length_tail_skip_le f.rest
  have h₂ := f.shorter
  omega

/-- An array, read from behind its opening bracket. -/
def array? (value : Reader) : Reader := fun s =>
  if h : (skip s).head? = some ']' then
    some ⟨.array [], (skip s).tail, by
      have h₁ := length_skip_le s
      cases hs : skip s with
      | nil => simp [hs] at h
      | cons c t =>
        simp only [hs, List.length_cons] at h₁
        simp only [List.tail_cons]
        omega⟩
  else (items? value s).map (·.map Json.array)

/-- An object, read from behind its opening brace. -/
def object? (value : Reader) : Reader := fun s =>
  if h : (skip s).head? = some '\x7d' then
    some ⟨.object [], (skip s).tail, by
      have h₁ := length_skip_le s
      cases hs : skip s with
      | nil => simp [hs] at h
      | cons c t =>
        simp only [hs, List.length_cons] at h₁
        simp only [List.tail_cons]
        omega⟩
  else (entries? value s).map (·.map Json.object)

/-- A word that stands for a value, read from behind its first character. -/
def word? (ending : String) (value : Json) (c : Char) (s : List Char) :
    Option (Found Json (c :: s)) :=
  match h : ending.toList.isPrefixOf? s with
  | some rest => some ⟨value, rest, by
      rw [Text.eq_append_of_isPrefixOf? h]
      simp only [List.length_cons, List.length_append]
      omega⟩
  | none => none

/-- A value whose first character is `c`. The reader given is for the levels inside it. -/
def valueFrom? (inner? : Option Reader) (c : Char) (s : List Char) :
    Option (Found Json (c :: s)) :=
  if c = '\x22' then
    (quoted? s).map fun f => (f.map (Json.string ∘ String.ofList)).behind
  else if c = '[' then
    match inner? with
    | some inner => (array? inner s).map Found.behind
    | none => none
  else if c = '\x7b' then
    match inner? with
    | some inner => (object? inner s).map Found.behind
    | none => none
  else if c = '-' || c.isDigit then (numeral? c s).map (·.map Json.number)
  else if c = 'n' then word? "ull" .null c s
  else if c = 't' then word? "rue" (.bool true) c s
  else if c = 'f' then word? "alse" (.bool false) c s
  else none

/-- The reader for one level, given the reader for the levels inside it. -/
def level? (inner? : Option Reader) : Reader := fun s =>
  match h : skip s with
  | [] => none
  | c :: t => (valueFrom? inner? c t).map (·.within (h ▸ length_skip_le s))

/-- The reader for values whose containers are nested at most as deep as the number says. -/
def value? : Nat → Reader
  | 0 => level? none
  | depth + 1 => level? (some (value? depth))

/-- The nesting of containers that is allowed. -/
def defaultLimit : Nat := 127

/-- The value of a text that holds a single value, blanks at its ends apart. -/
def read? (limit : Nat) (s : List Char) : Option Json :=
  match value? limit s with
  | some f => if skip f.rest = [] then some f.value else none
  | none => none

end DocComments.Json
