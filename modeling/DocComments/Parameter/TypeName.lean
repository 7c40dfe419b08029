import DocComments.Text.Trim

/-!
# Names of types

A type is one name or several with bars between them. In its normal form a name has no blanks
around it, no marks for null in front and no parentheses about it, and a name with a better known
form has that form, whatever the case of its letters. A pair of brackets at the end is kept.
-/

namespace DocComments.TypeName
open Text (trim)

/-- The names with a better known form, in lower case, and that form. -/
def aliases : List (String × String) :=
  [("bool", "Boolean"), ("boolean", "Boolean"), ("int", "Number"), ("integer", "Number"),
   ("func", "Function"), ("function", "Function"), ("string", "String"), ("array", "Array"),
   ("null", "null"), ("undefined", "undefined"), ("void", "undefined")]

/-- The better known form of a name, or the name itself. -/
def canonical (base : List Char) : List Char :=
  match aliases.lookup (String.ofList (base.map Char.toLower)) with
  | some name => name.toList
  | none => base

/-- Whether a character marks that null is or is not allowed. -/
def isNullMark (c : Char) : Bool :=
  c == '?' || c == '!'

/-- The text inside a pair of parentheses that encloses all of it, or the text itself. -/
def unwrapped (s : List Char) : List Char :=
  match s with
  | '(' :: t => if t.getLast? = some ')' then t.dropLast else s
  | _ => s

/-- A name without blanks, marks and parentheses. -/
def bare (member : List Char) : List Char :=
  trim (unwrapped ((trim member).dropWhile isNullMark))

/-- The brackets that make a name the name of a list. -/
def listSuffix : List Char := ['[', ']']

/-- The normal form of one name. -/
def normalMember (member : List Char) : List Char :=
  match listSuffix.isSuffixOf? (bare member) with
  | some base => canonical base ++ listSuffix
  | none => canonical (bare member)

/-- The normal form of a type. -/
def normal (s : List Char) : List Char :=
  List.intercalate ['|'] ((s.splitOn '|').map normalMember)

/-- The normal form of a type whose text may be blank, in which case there is none. -/
def ofText? (s : List Char) : Option String :=
  let s := trim s
  if s = [] then none else some (String.ofList (normal s))

end DocComments.TypeName
