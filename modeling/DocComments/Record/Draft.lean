import DocComments.Record.Directive

/-!
# Drafts

A record is written by following the directives of a comment in order. A property belongs to the
last parameter, outcome or error that came before it; a property before all of those, and one of a
result that a later result replaces, is lost.
-/

namespace DocComments

/-- What a property would belong to: a parameter or an error, by its place among them, or the
result. -/
inductive Target
  | parameter (index : Nat)
  | thrown (index : Nat)
  | returned
deriving DecidableEq, Repr

/-- What the directives so far have asked for. -/
structure Draft where
  description : String
  access? : Option Access := none
  chainable : Bool := false
  deprecated : Bool := false
  version : Option String := none
  since : Option String := none
  todos : List String := []
  seeAlso : List String := []
  throws : List Outcome := []
  parameters : List Parameter := []
  returns : Outcome := {}
  customTags : List Tag := []
  ignore : Bool := false
  target? : Option Target := none

/-- A parameter with one more property. -/
def Parameter.addProperty (f : Field) (p : Parameter) : Parameter :=
  { p with properties := p.properties ++ [f] }

/-- An outcome with one more property. -/
def Outcome.addProperty (f : Field) (o : Outcome) : Outcome :=
  { o with properties := o.properties ++ [f] }

namespace Draft

/-- The description with a further text, on a line of its own unless it is the first. -/
def describe (description text : String) : String :=
  if description = "" then text else description ++ "\n" ++ text

/-- The draft with a property of the target there is. -/
def addProperty (d : Draft) (f : Field) : Draft :=
  match d.target? with
  | none => d
  | some (.parameter index) =>
    { d with parameters := d.parameters.modify index (Parameter.addProperty f) }
  | some (.thrown index) => { d with throws := d.throws.modify index (Outcome.addProperty f) }
  | some .returned => { d with returns := d.returns.addProperty f }

/-- The draft after one more directive. -/
def follow (d : Draft) : Directive → Draft
  | .nothing => d
  | .access value => { d with access? := some value }
  | .describe text => { d with description := describe d.description text }
  | .ignore => { d with ignore := true }
  | .chainable => { d with chainable := true }
  | .deprecated => { d with deprecated := true }
  | .see text => { d with seeAlso := d.seeAlso ++ [text] }
  | .todo text => { d with todos := d.todos ++ [text] }
  | .version text => { d with version := some text }
  | .since text => { d with since := some text }
  | .throws outcome =>
    { d with throws := d.throws ++ [outcome], target? := some (.thrown d.throws.length) }
  | .parameter field =>
    { d with
      parameters := d.parameters ++ [field.toParameter]
      target? := some (.parameter d.parameters.length) }
  | .returns outcome => { d with returns := outcome, target? := some .returned }
  | .property field => d.addProperty field
  | .custom tag => { d with customTags := d.customTags ++ [tag] }

/-- The draft that the tags of a comment ask for. -/
def ofComment (c : Comment) : Draft :=
  c.tags.foldl (fun d t => d.follow (Directive.ofTag t)) { description := c.description }

end Draft

end DocComments
