import DocComments.Files.Tree

/-!
# Paths

A path is the text between its slashes, part by part. Two paths are compared by the steps they
take, so that a doubled slash or a dot in the middle makes no difference. Where a path leads is
looked up part by part, and only a folder can be gone through, also by an empty part.
-/

namespace DocComments.Files

/-- The parts of a path between its slashes. -/
abbrev Path := List String

/-- A step of a path. -/
inductive Step
  | root
  | here
  | up
  | name (s : String)
deriving DecidableEq, Repr

namespace Step

/-- The steps that are no names come before names, in this order. -/
def rank : Step → Nat
  | root => 0
  | here => 1
  | up => 2
  | name _ => 3

/-- Whether a step comes before another; names are in the order of their characters. -/
def before : Step → Step → Bool
  | name a, name b => decide (a < b)
  | a, b => decide (a.rank < b.rank)

/-- The step that a part takes after the first, if it takes one. -/
def ofPart? (part : String) : Option Step :=
  if part = "" || part = "." then none
  else if part = ".." then some up
  else some (name part)

end Step

namespace Path

/-- The path that a text is. -/
def ofText (s : String) : Path :=
  (s.toList.splitOn '/').map String.ofList

/-- The text of a path. -/
def text (p : Path) : String :=
  String.intercalate "/" p

/-- Whether a path starts at the root or is empty, so that it leads nowhere in a tree. -/
def isOutside (p : Path) : Bool :=
  p.head? == some "" || p.isEmpty

/-- The steps of a path. A dot is a step only at the front. -/
def steps (p : Path) : List Step :=
  match p with
  | [] => []
  | first :: rest =>
    let start :=
      if first = "" then (if rest.isEmpty then none else some Step.root)
      else if first = "." then some .here
      else Step.ofPart? first
    start.toList ++ rest.filterMap Step.ofPart?

/-- Whether the steps of a path come before those of another or are the same. -/
def stepsBefore : List Step → List Step → Bool
  | [], _ => true
  | _ :: _, [] => false
  | a :: as, b :: bs => if a = b then stepsBefore as bs else a.before b

/-- Whether a path comes before another or takes the same steps. -/
def atMost (p q : Path) : Bool :=
  stepsBefore p.steps q.steps

/-- A path with a further part. A slash at the end of the path is not doubled. -/
def join (p : Path) (part : String) : Path :=
  if p.getLast? = some "" then p.dropLast ++ [part] else p ++ [part]

/-- Whether a path takes no step but a dot. -/
def isHere (p : Path) : Bool :=
  p.steps == [.here]

/-- The name at the end of a path, if it ends with one. -/
def name? (p : Path) : Option String :=
  match p.steps.getLast? with
  | some (.name s) => some s
  | _ => none

/-- The place to which one part leads from a place. -/
def next? (t : Tree) (p : Place) (part : String) : Option Place :=
  if !t.isFolder p then none
  else
    match Step.ofPart? part with
    | none => some p
    | some .up => if p.isEmpty then none else some p.dropLast
    | _ => if (t.get? (p ++ [part])).isSome then some (p ++ [part]) else none

/-- The place to which a path leads. -/
def place? (t : Tree) (p : Path) : Option Place :=
  if p.isOutside then none else p.foldlM (next? t) []

/-- What stands where a path leads. -/
def get? (t : Tree) (p : Path) : Option Entry :=
  (place? t p).bind t.get?

/-- Whether a path leads to a file. -/
def isFile (t : Tree) (p : Path) : Bool :=
  (place? t p).any t.isFile

/-- Whether a path leads to a folder. -/
def isFolder (t : Tree) (p : Path) : Bool :=
  (place? t p).any t.isFolder

/-- Whether the parts behind a name only say that it is a folder, and say so with a dot. -/
def onlyDots (rest : Path) : Bool :=
  rest.contains "." && rest.all fun part => part = "" || part = "."

/-- The tree with the folders to which parts lead from a place, those made that are missing, and
the place of the last. A folder that is missing cannot be made with a dot behind its name. -/
def makeFrom? (t : Tree) (p : Place) : Path → Option (Tree × Place)
  | [] => if t.isFolder p then some (t, p) else none
  | part :: rest =>
    match next? t p part with
    | some q => makeFrom? t q rest
    | none =>
      if !t.isFolder p || part = ".." || onlyDots rest then none
      else makeFrom? (t.put (p ++ [part]) .folder) (p ++ [part]) rest

/-- The tree with the folder to which a path leads, made if it is missing, and its place. -/
def makeFolder? (t : Tree) (p : Path) : Option (Tree × Place) :=
  if p.isOutside then none else makeFrom? t [] p

end Path

end DocComments.Files
