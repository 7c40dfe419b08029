import DocComments.Signature.Declaration

/-!
# The shape of a declaration

Code is compared with seven shapes in a fixed order, and the first that fits decides. All but one
have to fit from the first character on; a function that is assigned to a name is looked for
anywhere, and that is done before the shapes of methods are tried.
-/

namespace DocComments.Signature
open Text (trim trimStart)
open Unicode (isBlank isWordChar)

/-- The text behind a word. -/
def word? (word : String) (s : List Char) : Option (List Char) :=
  word.toList.isPrefixOf? s

/-- The text behind a word and at least one blank. -/
def spacedWord? (word : String) (s : List Char) : Option (List Char) :=
  match word? word s with
  | some rest => if rest.head?.any isBlank then some (trimStart rest) else none
  | none => none

/-- The text behind a character, which blanks may precede and follow. -/
def mark? (c : Char) (s : List Char) : Option (List Char) :=
  match trimStart s with
  | [] => none
  | d :: rest => if d = c then some (trimStart rest) else none

/-- The text behind what makes a declaration known to other files. -/
def afterExport (s : List Char) : List Char :=
  match spacedWord? "export" s with
  | some rest => (spacedWord? "default" rest).getD rest
  | none => s

/-- Whether a function is marked as asynchronous, and the text behind the mark. -/
def asyncMark (s : List Char) : Bool × List Char :=
  match spacedWord? "async" s with
  | some rest => (true, rest)
  | none => (false, s)

/-- The word for a function as a whole word, perhaps marked as asynchronous, and the text behind
it. -/
def functionWord? (s : List Char) : Option (Bool × List Char) :=
  let (isAsync, rest) := asyncMark s
  match word? "function" rest with
  | some rest => if rest.head?.any isWordChar then none else some (isAsync, rest)
  | none => none

/-- A class with its name. -/
def classDeclaration? (s : List Char) : Option Declaration :=
  match spacedWord? "class" (afterExport s) with
  | none => none
  | some rest =>
    match identifier? rest with
    | none => none
    | some (name, rest) =>
      if rest.head?.all fun c => isBlank c || c == '\x7b' then
        some { name := String.ofList name, construct := .classHead }
      else none

/-- A function with the given name and role, its arguments read from the whole code. -/
def callable (name : List Char) (role : Role) (isAsync : Bool) (code : List Char) :
    Declaration :=
  { name := String.ofList name
    construct := .callable role isAsync
    arguments := arguments code }

/-- The text without a star in front. -/
def dropStar : List Char → List Char
  | '*' :: s => s
  | s => s

/-- A function that is declared by its own word, with or without a name. -/
def functionDeclaration? (s : List Char) : Option Declaration :=
  match functionWord? (afterExport s) with
  | none => none
  | some (isAsync, rest) =>
    let name := match identifier? (trimStart (dropStar (trimStart rest))) with
      | some (name, _) => name
      | none => []
    some (callable name .plain isAsync s)

/-- Whether a character can go on with a path of identifiers. -/
def isPathPart (c : Char) : Bool :=
  c == '.' || isIdentifierPart c

/-- A path in front of a text to which a function is assigned. -/
def assignmentHere? (s : List Char) : Option (List Char × Bool) :=
  match s with
  | [] => none
  | c :: t =>
    if isIdentifierStart c then
      match mark? '=' (t.dropWhile isPathPart) with
      | none => none
      | some rest =>
        (functionWord? rest).map fun (isAsync, _) => (c :: t.takeWhile isPathPart, isAsync)
    else none

/-- The first path in a text to which a function is assigned. -/
def assignment? : List Char → Option (List Char × Bool)
  | [] => none
  | c :: s =>
    match assignmentHere? (c :: s) with
    | some a => some a
    | none => assignment? s

/-- A function that is assigned to a path. -/
def assignedDeclaration? (s : List Char) : Option Declaration :=
  (assignment? s).map fun (path, isAsync) => callable path .assigned isAsync s

/-- The function that sets up the instances of a class. -/
def initializerDeclaration? (s : List Char) : Option Declaration :=
  match word? "constructor" s with
  | none => none
  | some rest =>
    if (trimStart rest).head? = some '(' then
      some (callable "constructor".toList .initializer false s)
    else none

/-- Whether some closing parenthesis is followed by an arrow or by nothing. -/
def closesArrow : List Char → Bool
  | [] => false
  | c :: s =>
    (c == ')' && (trimStart s == [] || "=>".toList.isPrefixOf (trimStart s))) || closesArrow s

/-- A method that is written as an arrow function behind a colon. -/
def arrowDeclaration? (s : List Char) : Option Declaration :=
  match identifier? s with
  | none => none
  | some (name, rest) =>
    match mark? ':' rest with
    | none => none
    | some rest =>
      let (isAsync, rest) := asyncMark rest
      match rest with
      | '(' :: inside =>
        if closesArrow inside then some (callable name (.method false) isAsync s) else none
      | _ => none

/-- The words that can start a statement but never name a method. -/
def statementWords : List String :=
  ["if", "for", "while", "switch", "catch", "return", "function", "do", "with", "else", "this",
   "new", "typeof", "await", "yield", "throw", "delete", "void", "let", "const", "var"]

/-- The ways to read a word that may be missing: as the mark it is, and as no mark. -/
def optionalWord (word : String) (s : List Char) : List (Bool × List Char) :=
  match spacedWord? word s with
  | some rest => [(true, rest), (false, s)]
  | none => [(false, s)]

/-- The ways to read the words that may stand before the name of a method. -/
def methodPrefixes (s : List Char) : List (Bool × Bool × List Char) :=
  (optionalWord "static" s).flatMap fun (isStatic, s) =>
    (optionalWord "async" s).flatMap fun (isAsync, s) =>
      let accessors := ["get", "set"].filterMap (spacedWord? · s)
      (accessors ++ [s]).map fun s => (isStatic, isAsync, s)

/-- The name of a method, behind which a closing parenthesis stands, though not directly. The name
gives up its last character if that is the only way. -/
def methodName? (s : List Char) : Option (List Char) :=
  match identifier? s with
  | none => none
  | some (name, rest) =>
    if ')' ∈ rest.tail then some name
    else if rest.head? = some ')' && 2 ≤ name.length then some name.dropLast
    else none

/-- A method in short form. Of the ways to read its first words, the first that leaves a name
counts, and that name must not be a word of another statement. -/
def methodDeclaration? (s : List Char) : Option Declaration :=
  let found := (methodPrefixes s).findSome? fun (isStatic, isAsync, rest) =>
    (methodName? rest).map fun name => (isStatic, isAsync, name)
  match found with
  | none => none
  | some (isStatic, isAsync, name) =>
    if String.ofList name ∈ statementWords then none
    else some (callable name (.method isStatic) isAsync s)

/-- A property of the object at hand. -/
def propertyDeclaration? (s : List Char) : Option Declaration :=
  match word? "this." s with
  | none => none
  | some rest =>
    (identifier? rest).map fun (name, _) =>
      { name := String.ofList ("this.".toList ++ name), construct := .property }

/-- The shapes in the order in which they are tried. -/
def shapes : List (List Char → Option Declaration) :=
  [classDeclaration?, functionDeclaration?, assignedDeclaration?, initializerDeclaration?,
   arrowDeclaration?, methodDeclaration?, propertyDeclaration?]

end DocComments.Signature

namespace DocComments.Declaration

/-- What a piece of code declares: the first shape that fits, and nothing if none does. -/
def ofCode (code : List Char) : Declaration :=
  let code := Text.trim code
  (Signature.shapes.findSome? (· code)).getD {}

end DocComments.Declaration
