import DocComments.Literal.Basic

/-!
# Parameters

What is known of one argument of a function, or of one property of an argument or a result. Only
a parameter has properties; a property has none of its own.
-/

namespace DocComments

/-- A named value with its type, description and default. -/
structure Field where
  name : String
  declaredType : Option String := none
  description : String := ""
  required : Bool := true
  defaultValue : Option Literal := none

/-- An argument of a function, with the properties that are documented for it. -/
structure Parameter extends Field where
  properties : List Field := []

/-- What a function returns or throws. -/
structure Outcome where
  type : Option String := none
  description : String := ""
  properties : List Field := []

/-- A parameter without properties. -/
def Field.toParameter (f : Field) : Parameter :=
  ⟨f, []⟩

end DocComments
