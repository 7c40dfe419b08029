import DocComments.Command.Arguments
import DocComments.Command.Run

/-!
# The command line

Reads the arguments and either the standard input or the folder at hand, runs the command, and
writes what it yields. Nothing is decided here. Paths lead from the folder at hand downwards.
-/

namespace DocComments.Main
open Command Files

/-- All bytes of a stream, behind those already read. -/
partial def readAll (input : IO.FS.Stream) (done : ByteArray) : IO ByteArray := do
  let more ← input.read 65536
  if more.isEmpty then return done
  readAll input (done ++ more)

/-- The tree of the files below a folder, whose place is given. -/
partial def readTree (folder : String) (place : Place) : IO Tree := do
  let mut tree : Tree := []
  for found in ← (← IO.FS.realPath folder).readDir do
    let here := place ++ [found.fileName]
    let path := folder ++ "/" ++ found.fileName
    if ← found.path.isDir then
      tree := tree ++ (here, Entry.folder) :: (← readTree path here)
    else
      let bytes ← try IO.FS.readBinFile path catch _ => pure ⟨#[0xff]⟩
      tree := tree ++ [(here, Entry.file (Content.ofBytes bytes))]
  return tree

/-- Writes the folders and the texts that are in one tree and not in the one before. -/
def writeTree (before after : Tree) : IO Unit := do
  for (place, entry) in after do
    let path := String.intercalate "/" ("." :: place)
    match entry, before.get? place with
    | .folder, none => IO.FS.createDirAll path
    | .file (.text s), some (.file (.text old)) => if s ≠ old then IO.FS.writeFile path s
    | .file (.text s), _ => IO.FS.writeFile path s
    | _, _ => pure ()

/-- Tells of a failure, and the status that stands for it. -/
def fail (message : String) (status : UInt32) : IO UInt32 := do
  IO.eprintln ("Error: " ++ message)
  return status

/-- Runs the command that the arguments ask for. -/
def run (arguments : List String) : IO UInt32 := do
  match Options.ofArguments arguments with
  | .error misuse => fail misuse.message 2
  | .ok o =>
    if o.patterns.isEmpty then
      let bytes ← readAll (← IO.getStdin) ByteArray.empty
      match runText o (Content.ofBytes bytes) with
      | .error e => fail e.message 1
      | .ok page =>
        IO.print page
        return 0
    else
      let tree ← readTree "." []
      let ending := Command.run o tree
      writeTree tree ending.tree
      match ending.result with
      | .error e => fail e.message 1
      | .ok _ => return 0

end DocComments.Main

/-- Runs the command line. -/
def main (arguments : List String) : IO UInt32 :=
  DocComments.Main.run arguments
