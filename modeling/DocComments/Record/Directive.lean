import DocComments.Parameter.Tag
import DocComments.Record.Basic

/-!
# Directives

What a tag asks for. Tags of one meaning may have several keys, a tag whose key has no meaning is
kept as it is, and an access tag without text asks for nothing.
-/

namespace DocComments

/-- What a tag asks for. -/
inductive Directive
  | nothing
  | access (value : Access)
  | describe (text : String)
  | ignore
  | chainable
  | deprecated
  | see (text : String)
  | todo (text : String)
  | version (text : String)
  | since (text : String)
  | throws (outcome : Outcome)
  | parameter (field : Field)
  | returns (outcome : Outcome)
  | property (field : Field)
  | custom (tag : Tag)

/-- What a tag asks for. -/
def Directive.ofTag (t : Tag) : Directive :=
  match t.key with
  | "public" | "private" | "protected" => .access (Access.ofText t.key)
  | "api" | "access" => if t.value = "" then .nothing else .access (Access.ofText t.value)
  | "desc" | "description" => .describe t.value
  | "ignore" => .ignore
  | "chainable" => .chainable
  | "deprecated" => .deprecated
  | "see" => .see t.value
  | "todo" => .todo t.value
  | "version" => .version t.value
  | "since" => .since t.value
  | "throws" => .throws (Outcome.ofTag t.value.toList)
  | "param" => .parameter (Field.ofTag t.value.toList)
  | "returns" | "return" => .returns (Outcome.ofTag t.value.toList)
  | "property" => .property (Field.ofTag t.value.toList)
  | _ => .custom t

end DocComments
