/-!
# Options of the command

What the command is asked to do, and the ways in which it can fail.
-/

namespace DocComments.Command

/-- What the command is asked to do. -/
structure Options where
  format : String := "json"
  hideIgnored : Bool := false
  filters : List String := []
  output? : Option String := none
  patterns : List String := []
deriving DecidableEq, Repr

/-- Why the command fails. -/
inductive Failure
  | unreadableInput
  | outputMissing
  | unknownFormat (name : String)
  | folderNotMade (path : String)
  | invalidPattern (pattern : String)
  | notWritten (path : String)
deriving DecidableEq, Repr

/-- The message of a failure. -/
def Failure.message : Failure → String
  | unreadableInput => "failed to read stdin"
  | outputMissing => "--output is required when files are given"
  | unknownFormat name => "unknown format: " ++ name ++ ". Use json, markdown, or docgen"
  | folderNotMade path => "failed to create output directory: " ++ path
  | invalidPattern pattern => "invalid glob pattern: " ++ pattern
  | notWritten path => "failed to write " ++ path

end DocComments.Command
