/-!
# Comments

What a comment says: a description, tags, and examples of code.
-/

namespace DocComments

/-- A tag: its key without the sign in front, and its text. -/
structure Tag where
  key : String
  value : String
deriving DecidableEq, Repr

/-- Where an example was written: behind a tag, or fenced in the description. -/
inductive ExampleForm
  | tagged
  | fenced
deriving DecidableEq, Repr

/-- A piece of code that shows how something is used. -/
structure Example where
  language : String
  description : String
  form : ExampleForm
  text : String
deriving DecidableEq, Repr

/-- The parts of a comment. -/
structure Comment where
  description : String
  tags : List Tag
  examples : List Example
deriving DecidableEq, Repr

/-- The language of an example that does not say. -/
def Example.defaultLanguage : String := "js"

end DocComments
