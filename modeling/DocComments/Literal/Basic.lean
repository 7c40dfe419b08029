import DocComments.Number.Basic

/-!
# Literal values

The values that a default can have: the scalars, arrays, and objects whose entries keep the order
in which they were written. A key may occur in an object more than once.
-/

namespace DocComments

/-- A literal value. -/
inductive Literal
  | undefined
  | null
  | bool (value : Bool)
  | number (value : Number)
  | string (value : String)
  | array (items : List Literal)
  | object (entries : List (String × Literal))

namespace Literal

/-- The type shown for a literal. The undefined value has none, and `null` is its own. -/
def typeName : Literal → Option String
  | undefined => none
  | null => some "null"
  | bool _ => some "Boolean"
  | number _ => some "Number"
  | string _ => some "String"
  | array _ => some "Array"
  | object _ => some "Object"

/-- Whether a literal is the undefined value. -/
def isUndefined : Literal → Bool
  | undefined => true
  | _ => false

theorem typeName_eq_none_iff (l : Literal) : l.typeName = none ↔ l = undefined := by
  cases l <;> simp [typeName]

end Literal

end DocComments
