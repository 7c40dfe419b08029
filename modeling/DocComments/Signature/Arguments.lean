import DocComments.Expression.Reader
import DocComments.Parameter.Basic
import DocComments.Signature.Commas
import DocComments.Signature.Identifier

/-!
# The arguments of a signature

The text between the first opening and the last closing parenthesis, and the parameters that it
declares. A parameter is a name, perhaps with three points in front, or a pattern in brackets, and
either may have a default behind an equals sign. A default that is no literal makes its parameter
optional and tells nothing more, and no default has a bearing on another parameter.
-/

namespace DocComments.Signature
open Text (trim trimStart)

/-- The arguments of a function: their text, and the parameters declared there. -/
structure Arguments where
  text : String := ""
  parameters : List Parameter := []

/-- One argument as it is written, before its default is looked at. -/
structure Argument where
  name : List Char
  default? : Option (List Char)

/-- The text between the first opening parenthesis and the last closing one after it. -/
def betweenParentheses? (s : List Char) : Option (List Char) :=
  let inside := (s.dropWhile (· ≠ '(')).tail
  if ')' ∈ inside then some (inside.reverse.dropWhile (· ≠ ')')).tail.reverse else none

/-- The default behind a pattern, if the pattern can end there. -/
def afterPattern? (s : List Char) : Option (Option (List Char)) :=
  match trimStart s with
  | [] => some none
  | '=' :: d => some (some d)
  | _ => none

/-- A pattern up to the first closing bracket behind which it can end, and its default. -/
def patternEnd? (closing : Char) : List Char → Option (List Char × Option (List Char))
  | [] => none
  | c :: s =>
    match if c = closing then afterPattern? s else none with
    | some default? => some ([c], default?)
    | none => (patternEnd? closing s).map fun (inside, default?) => (c :: inside, default?)

/-- An argument that is a pattern in braces or brackets. -/
def patternArgument? : List Char → Option Argument
  | '\x7b' :: s => (patternEnd? '\x7d' s).map fun (t, default?) => ⟨'\x7b' :: t, default?⟩
  | '[' :: s => (patternEnd? ']' s).map fun (t, default?) => ⟨'[' :: t, default?⟩
  | _ => none

/-- The words that look like a name and are none. -/
def reservedWords : List String := ["true", "false", "null", "undefined"]

/-- The text without the three points that may stand in front. -/
def dropPoints (s : List Char) : List Char :=
  ("...".toList.isPrefixOf? s).getD s

/-- The text behind the first equals sign. -/
def afterEquals? (s : List Char) : Option (List Char) :=
  match s.dropWhile (· ≠ '=') with
  | [] => none
  | _ :: d => some d

/-- An argument that is a name. Whatever stands between the name and an equals sign is passed
over. -/
def namedArgument? (s : List Char) : Option Argument :=
  match identifier? (dropPoints s) with
  | none => none
  | some (name, rest) =>
    if String.ofList name ∈ reservedWords then none else some ⟨name, afterEquals? rest⟩

/-- The argument that a piece between commas declares, if it declares one. -/
def argument? (piece : List Char) : Option Argument :=
  match patternArgument? (trim piece) with
  | some a => some a
  | none => namedArgument? (trim piece)

/-- The parameter that an argument declares, its default read with all names in scope. -/
def Argument.toField (scope : List String) (a : Argument) : Field :=
  match a.default? with
  | none => { name := String.ofList a.name }
  | some d =>
    match Expression.evaluate ⟨scope, Expression.defaultLimit⟩ d with
    | .error _ => { name := String.ofList a.name, required := false }
    | .ok l =>
      { name := String.ofList a.name
        declaredType := l.typeName
        required := false
        defaultValue := if l.isUndefined then none else some l }

/-- The parameters that the text between the parentheses declares. -/
def parameters (s : List Char) : List Parameter :=
  let arguments := (pieces s).filterMap argument?
  let scope := arguments.map fun a => String.ofList a.name
  arguments.map fun a => (a.toField scope).toParameter

/-- The arguments of a signature, none if there is nothing between its parentheses. -/
def arguments (s : List Char) : Arguments :=
  match betweenParentheses? s with
  | none => {}
  | some [] => {}
  | some (c :: inside) =>
    { text := String.ofList (trim (c :: inside)), parameters := parameters (c :: inside) }

end DocComments.Signature
