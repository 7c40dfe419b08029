import DocComments.Literal.Json
import DocComments.Page.Link
import DocComments.Record.Basic

/-!
# Pages to read

Records as a text for readers: an index of names, and behind it a section for each record. Records
that are to be ignored or have no name are left out. Only the cells of a table are protected from
what is written in them; all other texts stand as they are.
-/

namespace DocComments.Page

/-- A text between backticks. -/
def code (s : String) : String :=
  "`" ++ s ++ "`"

/-- A text that cannot end the cell or the row in which it stands. -/
def cell (s : String) : String :=
  String.ofList (s.toList.flatMap fun c =>
    if c = '|' then ['\\', '|'] else if c = '\n' then [' '] else [c])

/-- The row of a field under the given name. -/
def row (name : String) (f : Field) : String :=
  let type := match f.declaredType with
    | some t => code (cell t)
    | none => ""
  let default := match f.defaultValue with
    | some l => code l.jsonText
    | none => ""
  "| " ++ code (cell name) ++ " | " ++ type ++ " | " ++ (if f.required then "yes" else "no") ++
    " | " ++ cell default ++ " | " ++ cell f.description ++ " |"

/-- The name of a property behind the name of what it belongs to, which it may hold already. -/
def qualified (owner property : String) : String :=
  let front := owner ++ "."
  if front.toList.isPrefixOf property.toList then property else front ++ property

/-- The row of a parameter and those of its properties. -/
def rows (p : Parameter) : List String :=
  row p.name p.toField :: p.properties.map fun f => row (qualified p.name f.name) f

/-- What is returned or thrown, in one line. -/
def outcomeLine (o : Outcome) : String :=
  match o.type with
  | some t => if o.description = "" then code t else code t ++ ": " ++ o.description
  | none => o.description

/-- A property of what is returned or thrown, in one line. -/
def propertyLine (f : Field) : String :=
  let type := match f.declaredType with
    | some t => " (" ++ code t ++ ")"
    | none => ""
  let description := if f.description = "" then "" else ": " ++ f.description
  "**" ++ f.name ++ "**" ++ type ++ description

/-- The lines for what is returned or thrown and its properties. -/
def outcomeLines (o : Outcome) : List String :=
  ("* " ++ outcomeLine o) :: o.properties.map fun f => "  * " ++ propertyLine f

/-- The marks of a record: its access, kind and flags, where they are not the usual ones. -/
def badges (r : Record) : List String :=
  let access := if r.access = .everyone then [] else [r.access.text]
  let kind := if r.construct.isCallable then [] else r.construct.kind?.toList
  let flag (set : Bool) (text : String) : List String := if set then [text] else []
  (access ++ kind ++ flag (r.construct.isAsync? = some true) "async" ++
    flag (r.construct.isStatic? = some true) "static" ++ flag r.chainable "chainable" ++
    (r.version.map ("v" ++ ·)).toList ++ (r.since.map ("since " ++ ·)).toList).map code

/-- A part of a section: its lines and an empty one, or nothing if there are none. -/
def part (lines : List String) : List String :=
  if lines.isEmpty then [] else lines ++ [""]

/-- A part of a section under a heading of its own, or nothing if it has no lines. -/
def headed (heading : String) (lines : List String) : List String :=
  if lines.isEmpty then [] else part (("#### " ++ heading ++ "\n") :: lines)

/-- The lines of an example. -/
def exampleLines (e : Example) : List String :=
  "#### Example\n" :: (part (if e.description = "" then [] else [e.description]) ++
    ["```" ++ e.language, e.text, "```", ""])

/-- The line of the marks of a record. -/
def badgeLines (r : Record) : List String :=
  if (badges r).isEmpty then [] else ["> " ++ String.intercalate " " (badges r)]

/-- The lines of the table of parameters. -/
def tableLines (ps : List Parameter) : List String :=
  if ps.isEmpty then []
  else
    "| Name | Type | Required | Default | Description |" :: "| --- | --- | --- | --- | --- |" ::
      ps.flatMap rows

/-- The lines for what a function returns, if anything is known of it. -/
def returnLines (o : Outcome) : List String :=
  if o.type.isSome || o.description ≠ "" then outcomeLines o else []

/-- The lines of a record's section. -/
def sectionLines (r : Record) : List String :=
  ("### " ++ r.name ++ "\n") ::
    (part (badgeLines r) ++ part (r.signature.map code).toList ++
      part (if r.deprecated then ["**Deprecated.**"] else []) ++
      part (if r.description = "" then [] else [r.description]) ++
      headed "Parameters" (tableLines r.parameters) ++
      headed "Returns" (returnLines r.returns) ++
      headed "Throws" (r.throws.flatMap outcomeLines) ++
      r.examples.flatMap exampleLines ++
      headed "See also" (r.seeAlso.map fun s => "* " ++ linkText s) ++
      headed "Todo" (r.todos.map ("* " ++ ·)))

/-- The section of a record. -/
def sectionText (r : Record) : String :=
  String.intercalate "\n" (sectionLines r)

/-- Whether a record has a place on the page. -/
def isVisible (r : Record) : Bool :=
  !r.ignore && r.name ≠ ""

/-- The index of names. -/
def indexText (rs : List Record) : String :=
  if rs.isEmpty then ""
  else "## Index\n\n" ++ String.join (rs.map fun r => indexItemText r.name ++ "\n") ++ "\n"

/-- The page of records. -/
def markdown (rs : List Record) : String :=
  let visible := rs.filter isVisible
  indexText visible ++ String.join (visible.map fun r => sectionText r ++ "\n")

end DocComments.Page
