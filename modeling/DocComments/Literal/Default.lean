import DocComments.Expression.Reader
import DocComments.Json.Reader
import DocComments.Literal.Json
import DocComments.Text.Trim

/-!
# Defaults written in tags

The literal that the text of a default stands for. Text that starts like an array or an object is
read as data, any other text as an expression with nothing in scope. Text that cannot be read is a
string that says what was written. Undefined is the same as no default.
-/

namespace DocComments.Literal
open Text (trim)

/-- What an expression in a tag is read against. -/
def tagSetting : Expression.Setting := ⟨[], Expression.defaultLimit⟩

/-- Whether a text starts like an array or an object. -/
def startsContainer (s : List Char) : Bool :=
  s.head? == some '[' || s.head? == some '\x7b'

/-- The literal that a text without blank ends stands for. -/
def ofTrimmed (s : List Char) : Literal :=
  if startsContainer s then
    match Json.read? Json.defaultLimit s with
    | some j => ofJson j
    | none => string (String.ofList s)
  else
    match Expression.evaluate tagSetting s with
    | .ok l => l
    | .error _ => string (String.ofList s)

/-- The default that a text stands for, if it stands for one. -/
def ofDefault? (s : List Char) : Option Literal :=
  let s := trim s
  if s = [] then none
  else
    match ofTrimmed s with
    | undefined => none
    | l => some l

end DocComments.Literal
