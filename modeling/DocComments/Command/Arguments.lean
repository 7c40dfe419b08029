import DocComments.Command.Options

/-!
# Arguments of the command

The options that a row of arguments asks for. An option may have its value in the next argument or
behind an equals sign; behind two hyphens alone nothing is an option. Of an option given twice the
last value counts, but filters add up.
-/

namespace DocComments.Command

/-- Why a row of arguments is refused. -/
inductive Misuse
  | missingValue (option : String)
  | unknownOption (option : String)
deriving DecidableEq, Repr

/-- The message of a misuse. -/
def Misuse.message : Misuse → String
  | missingValue option => "a value is required for '" ++ option ++ "'"
  | unknownOption option => "unexpected argument '" ++ option ++ "'"

/-- The long form of an option. -/
def longForm (option : String) : String :=
  if option = "-o" then "--output" else if option = "-f" then "--format" else option

/-- The options with the value of one of them, if it is one that takes a value. -/
def Options.withValue? (o : Options) (option value : String) : Option Options :=
  match longForm option with
  | "--output" => some { o with output? := some value }
  | "--format" => some { o with format := value }
  | "--filter" => some { o with filters := o.filters ++ [value] }
  | _ => none

/-- The options with one more file. -/
def Options.withPattern (o : Options) (pattern : String) : Options :=
  { o with patterns := o.patterns ++ [pattern] }

/-- An option and its value in one argument. -/
def splitOption (argument : String) : String × Option String :=
  let s := argument.toList
  match s.dropWhile (· ≠ '=') with
  | _ :: value => (String.ofList (s.takeWhile (· ≠ '=')), some (String.ofList value))
  | [] => (argument, none)

/-- Whether an option takes a value. -/
def takesValue (option : String) : Bool :=
  (({} : Options).withValue? option "").isSome

/-- The options that arguments ask for on top of those there are. -/
def Options.read (o : Options) : List String → Except Misuse Options
  | [] => .ok o
  | argument :: rest =>
    if argument = "--" then .ok (rest.foldl Options.withPattern o)
    else if argument = "--hide-ignored" then Options.read { o with hideIgnored := true } rest
    else if argument.toList.head? = some '-' && argument ≠ "-" then
      match splitOption argument with
      | (option, some value) =>
        match o.withValue? option value with
        | some o => Options.read o rest
        | none => .error (.unknownOption argument)
      | (option, none) =>
        if takesValue option then
          match rest with
          | [] => .error (.missingValue option)
          | value :: rest => Options.read ((o.withValue? option value).getD o) rest
        else .error (.unknownOption argument)
    else Options.read (o.withPattern argument) rest

/-- The options that a row of arguments asks for. -/
def Options.ofArguments (arguments : List String) : Except Misuse Options :=
  Options.read {} arguments

end DocComments.Command
