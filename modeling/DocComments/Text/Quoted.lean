import DocComments.Unicode.Extender
import DocComments.Unicode.Printable

/-!
# Quoted text in messages

A character or a text as a message shows it: between quotes, with a backslash before the quote
and the backslash, short names for four controls, and the code point in hexadecimal for whatever
could not be seen or would join the character before it.
-/

namespace DocComments.Text

/-- A character as it stands between the given quotes. -/
def visible (quote c : Char) : List Char :=
  if c = '\x00' then ['\\', '0']
  else if c = '\t' then ['\\', 't']
  else if c = '\r' then ['\\', 'r']
  else if c = '\n' then ['\\', 'n']
  else if c = '\\' || c = quote then ['\\', c]
  else if Unicode.isExtender c || !Unicode.isPrintable c then
    '\\' :: 'u' :: '\x7b' :: (Nat.toDigits 16 c.toNat ++ ['\x7d'])
  else [c]

/-- A text between the given quotes. -/
def quotedBy (quote : Char) (s : List Char) : List Char :=
  quote :: (s.flatMap (visible quote) ++ [quote])

/-- A character in single quotes. -/
def quotedChar (c : Char) : String :=
  String.ofList (quotedBy '\x27' [c])

/-- A text in double quotes. -/
def quotedText (s : String) : String :=
  String.ofList (quotedBy '\x22' s.toList)

end DocComments.Text
