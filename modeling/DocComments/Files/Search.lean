import DocComments.Files.Path
import DocComments.Files.Pattern

/-!
# Files that a pattern names

A path pattern is followed part by part. A part without any sign of a pattern leads where a path
would; any other part leads to the entries of a folder with a fitting name, and two stars lead to
everything below a folder. A fitting pattern that itself starts with a dot leads to the folder
itself and to the one above it, too. Only files count, so a slash at the end finds nothing.
-/

namespace DocComments.Files

/-- Why a search is refused. -/
inductive SearchFault
  | badPattern
deriving DecidableEq, Repr

namespace Search

/-- A path with a further part, which replaces a path that only says where it is. -/
def extend (p : Path) (part : String) : Path :=
  if p.isHere then [part] else p.join part

/-- Whether a part of a pattern that is no more than a text leads anywhere from a path. -/
def leadsOn (t : Tree) (p : Path) (part : String) : Bool :=
  if part = "." || part = ".." then p.isFolder t
  else ((extend p part).get? t).isSome

/-- The paths one level below a path. -/
def children (t : Tree) (p : Path) : List Path :=
  match p.place? t with
  | some q => if t.isFolder q then (t.names q).map (extend p) else []
  | none => []

/-- The paths at all levels below a path. -/
def descendants (t : Tree) (p : Path) : List Path :=
  match p.place? t with
  | some q => if t.isFolder q then (t.below q).map (·.foldl extend p) else []
  | none => []

/-- The folder itself and the one above it, where tokens that start with a dot name them. -/
def dotPaths (t : Tree) (p : Path) (ts : List Token) : List Path :=
  if p.isFolder t && ts.head? = some (.char '.') then
    ([".", ".."].filter fun part => Pattern.accepts ts part.toList).map p.join
  else []

/-- Whether the last name of a path is one that tokens stand for. -/
def fits (ts : List Token) (p : Path) : Bool :=
  p.name?.any fun n => Pattern.accepts ts n.toList

/-- The paths to which the first part of a pattern leads, if it stands for a name. -/
def stepsTo (t : Tree) (p : Path) (ts : List Token) : List Path :=
  match Pattern.literal? ts with
  | some part =>
    let part := String.ofList part
    if leadsOn t p part then [extend p part] else []
  | none => (children t p).filter (fits ts) ++ dotPaths t p ts

/-- The paths to which a pattern leads from a path. Behind any number of folders, a part is
compared with the names at all levels. -/
def follow (t : Tree) (deep : Bool) : List Pattern → Path → List Path
  | [], p => if deep then [] else [p]
  | .anyFolders :: ps, p => follow t true ps p
  | .name ts :: ps, p =>
    let found := if deep then (descendants t p).filter (fits ts) else stepsTo t p ts
    found.flatMap (follow t false ps)

/-- The parts of a path pattern. A slash at the end adds none. -/
def parts (s : String) : List (List Char) :=
  let pieces := s.toList.splitOn '/'
  if pieces.getLast? = some [] then pieces.dropLast else pieces

/-- The files that a path pattern names. -/
def files (t : Tree) (s : String) : Except SearchFault (List Path) :=
  match (parts s).mapM Pattern.ofText? with
  | none => .error .badPattern
  | some ps =>
    if s = "" || s.toList.head? = some '/' || s.toList.getLast? = some '/' then .ok []
    else .ok ((follow t false ps ["."]).filter (·.isFile t))

end Search

end DocComments.Files
