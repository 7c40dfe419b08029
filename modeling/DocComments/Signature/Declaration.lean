import DocComments.Signature.Arguments

/-!
# Declarations

What the code behind a comment declares: nothing that is recognised, a class, a property of the
object at hand, or a function in one of several roles. All that is told of a declaration besides
its name and arguments follows from that. Nothing here reads code.
-/

namespace DocComments

/-- The role of a function where it is declared. -/
inductive Role
  | plain
  | assigned
  | initializer
  | method (isStatic : Bool)
deriving DecidableEq, Repr

/-- What a piece of code declares. -/
inductive Construct
  | unrecognised
  | classHead
  | property
  | callable (role : Role) (isAsync : Bool)
deriving DecidableEq, Repr

namespace Construct

/-- The kind of thing declared. -/
def kind? : Construct → Option String
  | unrecognised => none
  | classHead => some "class"
  | property => some "variable"
  | callable _ _ => some "function"

/-- The sort within the kind, where there are several. -/
def subtype? : Construct → Option String
  | property => some "property"
  | callable .assigned _ => some "variable"
  | callable .initializer _ => some "constructor"
  | callable (.method _) _ => some "method"
  | _ => none

/-- Whether a function is asynchronous. -/
def isAsync? : Construct → Option Bool
  | callable _ isAsync => some isAsync
  | _ => none

/-- Whether a function belongs to the class and not to its instances. -/
def isStatic? : Construct → Option Bool
  | callable (.method isStatic) _ => some isStatic
  | callable _ _ => some false
  | _ => none

/-- Whether the declared thing is a function. -/
def isCallable : Construct → Bool
  | callable _ _ => true
  | _ => false

/-- Whether something can be attached to the declared thing under the given name. -/
def attachable (name : String) : Construct → Bool
  | callable .plain _ => name ≠ ""
  | callable .assigned _ => true
  | _ => false

end Construct

/-- A declaration with its name, which may be empty, and its arguments, which only a function
has. -/
structure Declaration where
  name : String := ""
  construct : Construct := .unrecognised
  arguments : Signature.Arguments := {}

namespace Declaration

/-- The parameters of a function. -/
def parameters? (d : Declaration) : Option (List Parameter) :=
  if d.construct.isCallable then some d.arguments.parameters else none

/-- Whether something can be attached to what is declared. -/
def attachable (d : Declaration) : Bool :=
  d.construct.attachable d.name

end Declaration

end DocComments
