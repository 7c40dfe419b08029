import DocComments.Command.Selection
import DocComments.Files.Search
import DocComments.Page.Format
import DocComments.Record.Reader

/-!
# The command

Without names of files the command writes the page of one text. With them it writes a page for
each file that has records, into one folder and in the order of the paths, so that of two pages
with one name the later stays. A file that is no text is passed over. The first failure ends the
run; the pages written before it stay.
-/

namespace DocComments.Command
open Files (Content Entry Path Place Tree)

/-- The format that options ask for. -/
def format (o : Options) : Except Failure Format :=
  match Format.ofName? o.format with
  | some f => .ok f
  | none => .error (.unknownFormat o.format)

/-- The page of one text. -/
def runText (o : Options) (input : Content) : Except Failure String :=
  match input with
  | .binary _ => .error .unreadableInput
  | .text s =>
    match format o with
    | .error e => .error e
    | .ok f => .ok (f.render (select o (Record.all s.toList)))

/-- The endings of source files. -/
def sourceEndings : List String := ["js", "mjs", "cjs", "jsx", "ts"]

/-- The part of a name before its last dot and the ending behind it. A dot in front divides
nothing. -/
def splitEnding? (name : String) : Option (String × String) :=
  let reversed := name.toList.reverse
  match reversed.dropWhile (· ≠ '.') with
  | _ :: c :: stem =>
    some (String.ofList (c :: stem).reverse,
      String.ofList (reversed.takeWhile (· ≠ '.')).reverse)
  | _ => none

/-- The name of a source file without its ending. -/
def sourceStem? (name : String) : Option String :=
  match splitEnding? name with
  | some (stem, ending) => if ending ∈ sourceEndings then some stem else none
  | none => none

/-- The name of the page of a file, without its ending. -/
def pageName (name : String) : String :=
  (sourceStem? name).getD name

/-- The source files directly in the folder to which a path leads. -/
def sourcesIn (t : Tree) (p : Path) : List Path :=
  match p.place? t with
  | none => []
  | some q =>
    (t.names q).filterMap fun n =>
      if t.isFile (q ++ [n]) && (sourceStem? n).isSome then some (p.join n) else none

/-- The files that one pattern names: a file, the source files of a folder, or those that fit. -/
def expand (t : Tree) (pattern : String) : Except Failure (List Path) :=
  let p := Path.ofText pattern
  if p.isFile t then .ok [p]
  else if p.isFolder t then .ok (sourcesIn t p)
  else
    match Files.Search.files t pattern with
    | .ok found => .ok found
    | .error .badPattern => .error (.invalidPattern pattern)

/-- Paths of which no two neighbours take the same steps. -/
def dropRepeats : List Path → List Path
  | [] => []
  | p :: ps =>
    match dropRepeats ps with
    | [] => [p]
    | q :: qs => if p.steps = q.steps then p :: qs else p :: q :: qs

/-- The files that patterns name, in order and each once. -/
def inputs (t : Tree) (patterns : List String) : Except Failure (List Path) :=
  match patterns.mapM (expand t) with
  | .error e => .error e
  | .ok found => .ok (dropRepeats (found.flatten.mergeSort Path.atMost))

/-- The folder for pages: the path as it was given, and the place to which it leads. -/
structure Output where
  path : Path
  place : Place

/-- The page that a file asks for, by its name and its text: none if the file is no text or if no
record of it is selected. -/
def page? (o : Options) (f : Format) (t : Tree) (p : Path) : Option (String × String) :=
  match p.get? t with
  | some (.file (.text s)) =>
    let records := select o (Record.all s.toList)
    if records.isEmpty then none
    else some (pageName (p.name?.getD "") ++ "." ++ f.extension, f.render records)
  | _ => none

/-- The tree with the page of one file. -/
def writePage (o : Options) (f : Format) (out : Output) (t : Tree) (p : Path) :
    Except Failure Tree :=
  match page? o f t p with
  | none => .ok t
  | some (name, text) =>
    if t.isFolder (out.place ++ [name]) then .error (.notWritten (out.path.join name).text)
    else .ok (t.put (out.place ++ [name]) (.file (.text text)))

/-- What a run comes to: the tree that it leaves, also when it fails, and the place of the folder
for pages or the failure that ended it. -/
structure Ending where
  tree : Tree
  result : Except Failure Place

/-- The pages of files, written into the tree one after the other up to the first failure. -/
def writePages (o : Options) (f : Format) (out : Output) (t : Tree) : List Path → Ending
  | [] => ⟨t, .ok out.place⟩
  | p :: ps =>
    match writePage o f out t p with
    | .error e => ⟨t, .error e⟩
    | .ok t => writePages o f out t ps

/-- A run on files: the folder for pages is made, then the pages of all files are written. -/
def run (o : Options) (t : Tree) : Ending :=
  match o.output? with
  | none => ⟨t, .error .outputMissing⟩
  | some output =>
    match format o with
    | .error e => ⟨t, .error e⟩
    | .ok f =>
      let path := Path.ofText output
      match path.makeFolder? t with
      | none => ⟨t, .error (.folderNotMade output)⟩
      | some (t, place) =>
        match inputs t o.patterns with
        | .error e => ⟨t, .error e⟩
        | .ok paths => writePages o f ⟨path, place⟩ t paths

/-- The tree that a run leaves and the place of the folder for pages, if it does not fail. -/
def runFiles (o : Options) (t : Tree) : Except Failure (Tree × Place) :=
  let ending := run o t
  ending.result.map fun place => (ending.tree, place)

end DocComments.Command
