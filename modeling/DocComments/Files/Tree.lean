/-!
# Trees of files

The files below one folder, each with the names that lead to it. A tree is a list of entries; the
order of the list says nothing, and the folder itself has no entry. Whether every entry lies in a
folder of the tree is up to whoever builds it.
-/

namespace DocComments.Files

/-- What a file holds: text, or bytes that are no text. -/
inductive Content
  | text (s : String)
  | binary (bytes : ByteArray)

/-- The content that bytes make: text if they are its encoding. -/
def Content.ofBytes (bytes : ByteArray) : Content :=
  match String.fromUTF8? bytes with
  | some s => .text s
  | none => .binary bytes

/-- What stands at a place of a tree. -/
inductive Entry
  | folder
  | file (content : Content)

/-- The names that lead from the folder of a tree to a place in it. -/
abbrev Place := List String

/-- The places below a folder at which something stands. -/
abbrev Tree := List (Place × Entry)

namespace Tree

/-- What stands at a place. -/
def get? (t : Tree) (p : Place) : Option Entry :=
  if p = [] then some .folder else t.lookup p

/-- Whether a folder stands at a place. -/
def isFolder (t : Tree) (p : Place) : Bool :=
  match t.get? p with
  | some .folder => true
  | _ => false

/-- Whether a file stands at a place. -/
def isFile (t : Tree) (p : Place) : Bool :=
  match t.get? p with
  | some (.file _) => true
  | _ => false

/-- The tree with an entry at a place, instead of the one that stood there. -/
def put (t : Tree) (p : Place) (e : Entry) : Tree :=
  match t with
  | [] => [(p, e)]
  | (q, f) :: rest => if q = p then (p, e) :: rest else (q, f) :: put rest p e

/-- What is left of the names that lead to the places below a place. -/
def below (t : Tree) (p : Place) : List Place :=
  (t.filterMap fun e => p.isPrefixOf? e.1).filter (· ≠ [])

/-- The names in the folder at a place. -/
def names (t : Tree) (p : Place) : List String :=
  (t.below p).filterMap fun q => match q with
    | [n] => some n
    | _ => none

/-- The files in the folder at a place, by name. -/
def filesIn (t : Tree) (p : Place) : List (String × Content) :=
  let found := (t.names p).filterMap fun n =>
    match t.get? (p ++ [n]) with
    | some (.file c) => some (n, c)
    | _ => none
  found.mergeSort fun a b => decide (a.1 ≤ b.1)

end Tree

end DocComments.Files
