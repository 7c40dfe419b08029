import DocComments.Number.Basic

/-!
# Values of a data format

Data as it is exchanged in text: scalars, arrays, and objects whose entries have an order. The
type does not forbid that a key occurs twice; whoever reads decides what that means.
-/

namespace DocComments

/-- A value of the data format. -/
inductive Json
  | null
  | bool (value : Bool)
  | number (value : Number)
  | string (value : String)
  | array (items : List Json)
  | object (entries : List (String × Json))

namespace Json

/-- The entries of an object that are there, in order. -/
def present (entries : List (String × Option Json)) : List (String × Json) :=
  entries.filterMap fun e => e.2.map (e.1, ·)

/-- An optional value, null if it is absent. -/
def orNull {α : Type} (f : α → Json) : Option α → Json
  | some a => f a
  | none => null

end Json

end DocComments
