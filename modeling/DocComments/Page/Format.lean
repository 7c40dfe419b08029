import DocComments.Page.Attachment
import DocComments.Page.Markdown

/-!
# Formats

The forms in which records are written, with their names and the endings of their files.
-/

namespace DocComments

/-- A form in which records are written. -/
inductive Format
  | data
  | page
  | attachments
deriving DecidableEq, Repr

namespace Format

/-- The format of a name. -/
def ofName? (s : String) : Option Format :=
  match s with
  | "json" => some data
  | "markdown" | "md" => some page
  | "docgen" | "js" => some attachments
  | _ => none

/-- The ending of a file in a format. -/
def extension : Format → String
  | data => "json"
  | page => "md"
  | attachments => "docgen.js"

/-- Records as the text of a data file. -/
def dataText (rs : List Record) : String :=
  (Json.array (rs.map Record.toJson)).pretty ++ "\n"

/-- Records in a format. -/
def render : Format → List Record → String
  | data, rs => dataText rs
  | page, rs => Page.markdown rs
  | attachments, rs => Page.attachments rs

end Format

end DocComments
