import DocComments.Literal.Default
import DocComments.Parameter.Basic
import DocComments.Parameter.TypeName
import DocComments.Text.Words

/-!
# Parameters and outcomes written in tags

A tag gives a type in braces, then for a parameter its name, then a description. Brackets about
the name make the parameter optional and may hold a default behind an equals sign; a question mark
in front of the type makes it optional too. A tag with an open brace or bracket is a parameter
without a name, and all of its text is the description.
-/

namespace DocComments
open Text (trim trimStart collapseBlanks)
open Unicode (isBlank)

namespace Tag

/-- The text between an opening brace and the first closing one, and the text after it. -/
def braced? : List Char → Option (List Char × List Char)
  | '\x7b' :: s =>
    match s.dropWhile (· ≠ '\x7d') with
    | _ :: rest => some (s.takeWhile (· ≠ '\x7d'), rest)
    | [] => none
  | _ => none

/-- The text up to the bracket that closes an open one, and the text after it. Brackets and braces
inside come in pairs, of either kind, and those between quotes are ordinary characters; a backslash
does not protect a quote. -/
def closeBracket (depth : Nat) (quote? : Option Char) : List Char → Option (List Char × List Char)
  | [] => none
  | c :: s =>
    let inner (depth : Nat) (quote? : Option Char) :=
      (closeBracket depth quote? s).map fun (inside, rest) => (c :: inside, rest)
    match quote? with
    | some quote => inner depth (if c = quote then none else some quote)
    | none =>
      if c = '\x22' || c = '\x27' then inner depth (some c)
      else if c = '[' || c = '\x7b' then inner (depth + 1) none
      else if c = ']' || c = '\x7d' then
        if 0 < depth then inner (depth - 1) none
        else if c = ']' then some ([], s) else none
      else inner depth none

/-- A name and the text of its default, which an equals sign divides. -/
def nameAndDefault (s : List Char) : List Char × Option (List Char) :=
  match s.dropWhile (· ≠ '=') with
  | _ :: value => (trim (s.takeWhile (· ≠ '=')), some (trim value))
  | [] => (trim s, none)

end Tag

namespace Field

/-- The field whose type is given, if any, read from the name on. -/
def afterType? (type? : Option (List Char)) (s : List Char) : Option Field :=
  let declared := type?.bind TypeName.ofText?
  let nullable := type?.any fun type => type.head? = some '?'
  match s with
  | '[' :: t =>
    (Tag.closeBracket 0 none t).map fun (inside, rest) =>
      let (name, value?) := Tag.nameAndDefault inside
      { name := String.ofList name
        declaredType := declared
        description := String.ofList (collapseBlanks rest)
        required := false
        defaultValue := value?.bind Literal.ofDefault? }
  | _ =>
    some
      { name := String.ofList (s.takeWhile (!isBlank ·))
        declaredType := declared
        description := String.ofList (collapseBlanks (s.dropWhile (!isBlank ·)))
        required := !nullable }

/-- The field that a trimmed tag describes, unless a brace or bracket stays open. -/
def ofTrimmed? (s : List Char) : Option Field :=
  if s.head? = some '\x7b' then
    match Tag.braced? s with
    | some (type, rest) => afterType? (some (trim type)) (trimStart rest)
    | none => none
  else afterType? none s

/-- The field that a tag describes. -/
def ofTag (s : List Char) : Field :=
  match ofTrimmed? (trim s) with
  | some f => f
  | none => { name := "", description := String.ofList (collapseBlanks s) }

end Field

namespace Outcome

/-- The outcome that a tag describes. -/
def ofTag (s : List Char) : Outcome :=
  match Tag.braced? (trim s) with
  | some (type, rest) =>
    { type := TypeName.ofText? type, description := String.ofList (collapseBlanks rest) }
  | none => { description := String.ofList (collapseBlanks s) }

end Outcome

end DocComments
