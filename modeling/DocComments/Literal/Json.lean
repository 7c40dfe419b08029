import DocComments.Json.Printer
import DocComments.Literal.Basic

/-!
# Literals as data

A literal becomes data by leaving out the entries whose value is undefined; elsewhere undefined,
and every number that is not finite, becomes null. Data becomes a literal by keeping, of the
entries with one key, the place of the first and the value of the last.
-/

namespace DocComments.Literal

/-- A number as data: null unless it is finite. -/
def numberToJson (n : Number) : Json :=
  match n with
  | .finite _ _ => .number n
  | _ => .null

mutual

/-- A literal as data. -/
def toJson : Literal → Json
  | undefined => .null
  | null => .null
  | bool value => .bool value
  | number value => numberToJson value
  | string value => .string value
  | array items => .array (itemsToJson items)
  | object entries => .object (entriesToJson entries)

/-- The items of an array as data. -/
def itemsToJson : List Literal → List Json
  | [] => []
  | x :: xs => x.toJson :: itemsToJson xs

/-- The entries of an object as data, without those whose value is undefined. -/
def entriesToJson : List (String × Literal) → List (String × Json)
  | [] => []
  | (k, x) :: xs =>
    if x.isUndefined then entriesToJson xs else (k, x.toJson) :: entriesToJson xs

end

/-- The text of a literal as data on one line. -/
def jsonText (l : Literal) : String :=
  l.toJson.compact

/-- Entries with one more: in the place of the entry with the same key, or else at the end. -/
def put (entries : List (String × Literal)) (k : String) (x : Literal) :
    List (String × Literal) :=
  match entries with
  | [] => [(k, x)]
  | (k', x') :: rest => if k' = k then (k, x) :: rest else (k', x') :: put rest k x

mutual

/-- The literal that data stands for. -/
def ofJson : Json → Literal
  | .null => null
  | .bool value => bool value
  | .number value => number value
  | .string value => string value
  | .array items => array (itemsOfJson items)
  | .object entries => object (entriesOfJson [] entries)

/-- The literals that the items of an array stand for. -/
def itemsOfJson : List Json → List Literal
  | [] => []
  | x :: xs => ofJson x :: itemsOfJson xs

/-- The entries of an object, put one after the other into those there are. -/
def entriesOfJson (done : List (String × Literal)) : List (String × Json) → List (String × Literal)
  | [] => done
  | (k, x) :: xs => entriesOfJson (put done k (ofJson x)) xs

end

end DocComments.Literal
