import DocComments.Command.Options
import DocComments.Record.Basic

/-!
# Selecting records

A record is kept if every filter allows it. A filter asks for a word that is the kind of what is
documented or its access, or behind an exclamation mark for the absence of that word.
-/

namespace DocComments.Command

/-- Whether a word is the kind of what a record documents or its access. -/
def hasWord (r : Record) (word : String) : Bool :=
  r.construct.kind? == some word || r.access.text == word

/-- Whether a filter allows a record. -/
def allows (filter : String) (r : Record) : Bool :=
  match filter.toList with
  | '!' :: word => !hasWord r (String.ofList word)
  | _ => hasWord r filter

/-- The records that options select. -/
def select (o : Options) (rs : List Record) : List Record :=
  rs.filter fun r => !(o.hideIgnored && r.ignore) && o.filters.all (allows · r)

end DocComments.Command
