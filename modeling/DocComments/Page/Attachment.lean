import DocComments.Json.Printer
import DocComments.Record.Json

/-!
# Descriptions attached to code

Records as code that attaches a description to each thing that can carry one. Each attachment is
guarded on its own, so that one that fails does not hinder the next. Ignored records are left out.
-/

namespace DocComments.Page

/-- A parameter as it is described in an attachment. -/
def attachedParameter (p : Parameter) : Json :=
  .object
    [("description", .string p.description),
     ("required", .bool p.required),
     ("type", .object (Json.present [("name", p.declaredType.map .string)])),
     ("defaultValue", .object (Json.present
       [("value", p.defaultValue.map Literal.toJson), ("computed", some (.bool false))]))]

/-- The description that is attached for a record. -/
def attachedDescription (r : Record) : Json :=
  .object
    [("displayName", .string r.name),
     ("description", .string r.description),
     ("props", .object (r.parameters.map fun p => (p.name, attachedParameter p))),
     ("rawRecord", r.toJson)]

/-- The statement that attaches a record's description. -/
def attachment (r : Record) : String :=
  "\ntry \x7b\n  " ++ r.name ++ ".__docgenInfo = " ++ (attachedDescription r).pretty ++
    ";\n\x7d catch (e) \x7b\x7d"

/-- The statements for all records to which something can be attached. -/
def attachments (rs : List Record) : String :=
  String.intercalate "\n" ((rs.filter fun r => r.canAttach && !r.ignore).map attachment)

end DocComments.Page
