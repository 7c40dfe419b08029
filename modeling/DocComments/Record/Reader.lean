import DocComments.Block
import DocComments.Comment.Reader
import DocComments.Record.Draft
import DocComments.Signature.Shape

/-!
# Reading records

A source text has one record for each of its blocks. Where the comment names no parameters the
record has those of the code, and where it says nothing of access a name that starts with an
underscore is private.
-/

namespace DocComments

/-- The access of a name about which a comment says nothing. -/
def Access.ofName (name : String) : Access :=
  if name.toList.head? = some '_' then .privately else .everyone

namespace Record

/-- How a function is called: its name and arguments, and the type of what it returns. -/
def signatureText (d : Declaration) (returns : Outcome) : String :=
  let mark := if d.construct.isAsync? = some true then "async " else ""
  let type := returns.type.getD "undefined"
  String.ofList (Text.trim
    (mark ++ d.name ++ "(" ++ d.arguments.text ++ ") ⇒ \x7b" ++ type ++ "\x7d").toList)

/-- The record of a declaration with a comment. -/
def ofComment (d : Declaration) (c : Comment) : Record :=
  let draft := Draft.ofComment c
  { name := d.name
    construct := d.construct
    description := draft.description
    access := draft.access?.getD (Access.ofName d.name)
    chainable := draft.chainable
    deprecated := draft.deprecated
    version := draft.version
    since := draft.since
    todos := draft.todos
    seeAlso := draft.seeAlso
    throws := draft.throws
    examples := c.examples
    parameters :=
      if draft.parameters.isEmpty then d.parameters?.getD [] else draft.parameters
    returns := draft.returns
    customTags := draft.customTags
    ignore := draft.ignore
    signature :=
      if d.construct.isCallable then some (signatureText d draft.returns) else none }

/-- The record of a block. -/
def ofBlock (b : Block) : Record :=
  ofComment (Declaration.ofCode b.code.toList) (Comment.read b.comment.toList)

/-- The records of a source text, in order. -/
def all (source : List Char) : List Record :=
  (Block.all source).map ofBlock

end Record

end DocComments
