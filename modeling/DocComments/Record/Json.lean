import DocComments.Literal.Json
import DocComments.Record.Basic

/-!
# Records as data

The entries of a record, in order. Types, defaults and signatures that are not there leave out
their entries; the other entries are always present, with null where nothing is known.
-/

namespace DocComments

/-- A flag as data: null unless it is set. -/
def Json.ofFlag (b : Bool) : Json :=
  if b then .bool true else .null

/-- Texts as data. -/
def Json.ofTexts (texts : List String) : Json :=
  .array (texts.map .string)

/-- The entries of a field with the given properties. -/
def Field.toJsonWith (f : Field) (properties : List Json) : Json :=
  .object (Json.present
    [("name", some (.string f.name)),
     ("declaredType", f.declaredType.map .string),
     ("description", some (.string f.description)),
     ("required", some (.bool f.required)),
     ("defaultValue", f.defaultValue.map Literal.toJson),
     ("properties", some (.array properties))])

/-- A property as data. -/
def Field.toJson (f : Field) : Json :=
  f.toJsonWith []

/-- A parameter as data. -/
def Parameter.toJson (p : Parameter) : Json :=
  p.toField.toJsonWith (p.properties.map Field.toJson)

/-- An outcome as data. -/
def Outcome.toJson (o : Outcome) : Json :=
  .object (Json.present
    [("type", o.type.map .string),
     ("description", some (.string o.description)),
     ("properties", some (.array (o.properties.map Field.toJson)))])

/-- The word for where an example was written. -/
def ExampleForm.text : ExampleForm → String
  | tagged => "javadoc"
  | fenced => "gfm"

/-- An example as data. -/
def Example.toJson (e : Example) : Json :=
  .object
    [("language", .string e.language),
     ("description", .string e.description),
     ("kind", .string e.form.text),
     ("text", .string e.text)]

/-- A tag as data. -/
def Tag.toJson (t : Tag) : Json :=
  .object [("tag", .string t.key), ("value", .string t.value)]

/-- A record as data. -/
def Record.toJson (r : Record) : Json :=
  .object (Json.present
    [("name", some (.string r.name)),
     ("kind", some (Json.orNull .string r.construct.kind?)),
     ("subtype", some (Json.orNull .string r.construct.subtype?)),
     ("description", some (.string r.description)),
     ("access", some (.string r.access.text)),
     ("chainable", some (Json.ofFlag r.chainable)),
     ("deprecated", some (Json.ofFlag r.deprecated)),
     ("version", some (Json.orNull .string r.version)),
     ("since", some (Json.orNull .string r.since)),
     ("todos", some (Json.ofTexts r.todos)),
     ("seeAlso", some (Json.ofTexts r.seeAlso)),
     ("throws", some (.array (r.throws.map Outcome.toJson))),
     ("examples", some (.array (r.examples.map Example.toJson))),
     ("parameters", some (.array (r.parameters.map Parameter.toJson))),
     ("returns", some r.returns.toJson),
     ("customTags", some (.array (r.customTags.map Tag.toJson))),
     ("ignore", some (.bool r.ignore)),
     ("isAsync", some (Json.orNull .bool r.construct.isAsync?)),
     ("isStatic", some (Json.orNull .bool r.construct.isStatic?)),
     ("signature", r.signature.map .string),
     ("canAttach", some (.bool r.canAttach))])

end DocComments
