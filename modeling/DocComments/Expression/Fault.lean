import DocComments.Text.Quoted
import DocComments.Text.Utf8

/-!
# Why an expression has no value

Each way in which reading an expression can fail, with what its message needs. While a text is
being read, a place in it is the text that starts there; the message counts bytes from the front.
-/

namespace DocComments.Expression

/-- A form of expression that is recognised and refused. -/
inductive Unsupported
  | memberAccess
  | call
  | indexAccess
  | conditional
  | arrowFunction
  | operator
  | signOfNonNumber
  | keyword
  | bigInteger
  | templateInterpolation
  | spread
  | computedKey
  | method
deriving DecidableEq, Repr

/-- The name of a refused form. -/
def Unsupported.text : Unsupported → String
  | memberAccess => "member access"
  | call => "call"
  | indexAccess => "index access"
  | conditional => "conditional"
  | arrowFunction => "arrow function"
  | operator => "operator"
  | signOfNonNumber => "unary operator on non-number"
  | keyword => "keyword"
  | bigInteger => "bigint"
  | templateInterpolation => "template interpolation"
  | spread => "spread"
  | computedKey => "computed key"
  | method => "method"

/-- Why an expression has no value. -/
inductive Fault (Place : Type)
  | unexpectedChar (found : Char) (place : Place)
  | unexpectedEnd
  | unterminatedString
  | unsupported (form : Unsupported)
  | unbound (name : String)
  | invalidNumber (spelling : String)
  | trailing (rest : String)
  | tooDeep (limit : Nat)
deriving DecidableEq, Repr

namespace Fault

/-- The same fault with its place told in another way. -/
def relocate {Place Other : Type} (f : Place → Other) : Fault Place → Fault Other
  | unexpectedChar found place => unexpectedChar found (f place)
  | unexpectedEnd => unexpectedEnd
  | unterminatedString => unterminatedString
  | unsupported form => unsupported form
  | unbound name => unbound name
  | invalidNumber spelling => invalidNumber spelling
  | trailing rest => trailing rest
  | tooDeep limit => tooDeep limit

/-- The fault in a whole text, its place counted in bytes from the front. -/
def inText (s : List Char) (fault : Fault (List Char)) : Fault Nat :=
  fault.relocate fun rest => Text.byteSize s - Text.byteSize rest

/-- The message for a fault whose place is a number of bytes. -/
def message : Fault Nat → String
  | unexpectedChar found place =>
    "unexpected character " ++ Text.quotedChar found ++ " at offset " ++ place.repr
  | unexpectedEnd => "unexpected end of expression"
  | unterminatedString => "unterminated string literal"
  | unsupported form => "unsupported expression: " ++ form.text
  | unbound name => "unbound identifier: " ++ name
  | invalidNumber spelling => "invalid number literal: " ++ spelling
  | trailing rest => "trailing input after expression: " ++ Text.quotedText rest
  | tooDeep limit => "expression nested deeper than " ++ limit.repr ++ " levels"

end Fault

end DocComments.Expression
