import DocComments.Text.Search
import DocComments.Unicode.Alphabetic
import DocComments.Unicode.LowerCase

/-!
# Links

A text that is to be linked may be a relative path, may hold a link already, may hold addresses,
or may be the name of something on the same page, whose anchor is the slug of its heading. The
first of these that applies decides.
-/

namespace DocComments.Page
open Unicode (isAlphanumeric lowerCase)

/-- Whether a character stays in a slug. -/
def staysInSlug (c : Char) : Bool :=
  isAlphanumeric c || c == ' ' || c == '-'

/-- The anchor of a heading: its letters in lower case, digits and hyphens, with hyphens for
spaces. -/
def slug (s : List Char) : List Char :=
  ((lowerCase s).filter staysInSlug).map fun c => if c = ' ' then '-' else c

/-- A link to a target, with its text. -/
def linkTo (text target : List Char) : List Char :=
  '[' :: (text ++ [']', '('] ++ target ++ [')'])

/-- Whether a text is a path that starts at the root or at this or the directory above. -/
def isRelativePath (s : List Char) : Bool :=
  "/".toList.isPrefixOf s || "./".toList.isPrefixOf s || "../".toList.isPrefixOf s

/-- Whether a text holds a link with its text in brackets and its target in parentheses. -/
def holdsLink (s : List Char) : Bool :=
  match Text.after? [']', '('] (s.dropWhile (· ≠ '[')) with
  | some rest => rest.contains ')'
  | none => false

/-- How a link between comments starts. -/
def inlineLinkMark : List Char := "\x7b@link".toList

/-- What stands between the scheme of an address and the rest of it. -/
def addressMark : List Char := "://".toList

/-- A text with a link in place of every word that is an address. -/
def linkAddresses (s : List Char) : List Char :=
  List.intercalate [' '] ((s.splitOn ' ').map fun word =>
    if Text.occursIn addressMark word then linkTo word word else word)

/-- A text as a link, or with links, or as it is if it holds one. -/
def link (s : List Char) : List Char :=
  if isRelativePath s then linkTo s s
  else if holdsLink s || Text.occursIn inlineLinkMark s then s
  else if Text.occursIn addressMark s then linkAddresses s
  else linkTo s ('#' :: slug s)

/-- A name as an item of the index. -/
def indexItem (s : List Char) : List Char :=
  '*' :: ' ' :: link s

/-- A text as a link, or with links, or as it is if it holds one. -/
def linkText (s : String) : String :=
  String.ofList (link s.toList)

/-- A name as an item of the index. -/
def indexItemText (s : String) : String :=
  String.ofList (indexItem s.toList)

end DocComments.Page
