import DocComments.Comment.Basic
import DocComments.Signature.Declaration

/-!
# Records

What is known of one documented declaration, from its comment and its code together.
-/

namespace DocComments

/-- Who may use what is documented. -/
inductive Access
  | everyone
  | privately
  | protectedly
  | other (text : String)
deriving DecidableEq, Repr

namespace Access

/-- The access that a word stands for. -/
def ofText (s : String) : Access :=
  if s = "public" then everyone
  else if s = "private" then privately
  else if s = "protected" then protectedly
  else other s

/-- The word for an access. -/
def text : Access → String
  | everyone => "public"
  | privately => "private"
  | protectedly => "protected"
  | other s => s

@[simp] theorem text_ofText (s : String) : (ofText s).text = s := by
  unfold ofText
  split
  · simp_all [text]
  · split
    · simp_all [text]
    · split <;> simp_all [text]

end Access

/-- What is known of one documented declaration. -/
structure Record where
  name : String
  construct : Construct
  description : String
  access : Access
  chainable : Bool
  deprecated : Bool
  version : Option String
  since : Option String
  todos : List String
  seeAlso : List String
  throws : List Outcome
  examples : List Example
  parameters : List Parameter
  returns : Outcome
  customTags : List Tag
  ignore : Bool
  signature : Option String

/-- Whether a description can be attached to what is documented. -/
def Record.canAttach (r : Record) : Bool :=
  r.construct.attachable r.name

end DocComments
