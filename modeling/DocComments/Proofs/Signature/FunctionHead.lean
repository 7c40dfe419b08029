import DocComments.Proofs.Signature.Statement

/-!
# Heads of functions

A function that is declared by its own word, with a name and arguments, is recognised as what it is
written as, whatever its name, and its arguments are the text between its parentheses. Only one way
to write such a head is treated, with single spaces between its words; it is a statement like any
other, and is read as one.
-/

namespace DocComments.Signature
open Text (trim trimStart)
open Unicode (isBlank isWordChar)

/-- How a function is made known to other files. -/
inductive Visibility
  | hidden
  | exported
  | exportedByDefault

/-- The words in front of a function that make it known. -/
def Visibility.text : Visibility → List Char
  | .hidden => []
  | .exported => "export ".toList
  | .exportedByDefault => "export default ".toList

/-- A function with its name and the text of its arguments. -/
structure FunctionHead where
  visibility : Visibility
  isAsync : Bool
  name : List Char
  arguments : List Char

namespace FunctionHead

/-- The head from the mark of an asynchronous function on. -/
def core (f : FunctionHead) : List Char :=
  (if f.isAsync then "async ".toList else []) ++
    ("function ".toList ++ (f.name ++ '(' :: (f.arguments ++ [')'])))

/-- The head as it is written, up to the parenthesis that closes its arguments. -/
def text (f : FunctionHead) : List Char :=
  f.visibility.text ++ f.core

/-- The part of the head before its arguments. -/
def lead (f : FunctionHead) : List Char :=
  f.visibility.text ++ ((if f.isAsync then "async ".toList else []) ++
    ("function ".toList ++ f.name))

theorem text_eq (f : FunctionHead) : f.text = f.lead ++ '(' :: (f.arguments ++ [')']) := by
  simp only [text, core, lead, List.append_assoc]

theorem isBlank_head_lead (f : FunctionHead) :
    ∃ c s, f.lead = c :: s ∧ isBlank c = false := by
  obtain ⟨visibility, isAsync, _, _⟩ := f
  cases visibility <;> cases isAsync <;> exact ⟨_, _, rfl, rfl⟩

theorem trim_text (f : FunctionHead) : trim f.text = f.text := by
  obtain ⟨c, s, hlead, hc⟩ := f.isBlank_head_lead
  have htext : c :: (s ++ '(' :: (f.arguments ++ [')'])) = f.text := by
    rw [text_eq, hlead, List.cons_append]
  rw [← htext]
  apply Text.trim_eq_self (d := ')') (t := f.lead ++ '(' :: f.arguments) hc (by decide)
  rw [hlead]
  simp

section
variable (f : FunctionHead) (hname : IsIdentifier f.name)
include hname

/-- The head as a statement, with a single space behind each of its words. -/
def toStatement : FunctionStatement :=
  let space : Space := ⟨⟨[' '], rfl⟩, List.cons_ne_nil _ _⟩
  { exported := match f.visibility with
      | .hidden => .hidden
      | .exported => .plain space
      | .exportedByDefault => .byDefault space space
    async := if f.isAsync then some space else none
    gap := ⟨[' '], rfl⟩
    star := none
    name := some (⟨f.name, hname⟩, ⟨[], rfl⟩)
    rest := f.arguments ++ [')']
    apart := fun h => absurd h (List.cons_ne_nil _ _) }

theorem text_toStatement : (f.toStatement hname).text = f.text := by
  have hname : (f.toStatement hname).nameText = f.name := List.append_nil f.name
  obtain ⟨visibility, isAsync, _, _⟩ := f
  rw [FunctionStatement.text, FunctionStatement.core, FunctionStatement.behind, hname]
  cases visibility <;> cases isAsync <;> rfl

/-- What a function is written as is what its head declares. -/
theorem ofCode_text :
    Declaration.ofCode f.text = callable f.name .plain f.isAsync f.text := by
  have hasync : (f.toStatement hname).async.isSome = f.isAsync := by
    rw [toStatement]
    cases f.isAsync <;> rfl
  have hread := (f.toStatement hname).ofCode_text
  rw [FunctionStatement.declaration, hasync, f.text_toStatement hname, f.trim_text] at hread
  exact hread

/-- The part before the arguments holds no parenthesis and nothing that would end the code. -/
theorem not_mem_lead {c : Char} (hc : c ∈ f.lead) :
    c ≠ '(' ∧ Block.isTerminator c = false := by
  have hwords : ∀ d ∈ "export default async function ".toList,
      d ≠ '(' ∧ Block.isTerminator d = false := by
    have hall : "export default async function ".toList.all
        (fun d => d != '(' && !Block.isTerminator d) = true := by decide
    intro d hd
    simpa using List.all_eq_true.mp hall d hd
  have hexport : f.visibility.text ⊆ "export default async function ".toList := by
    cases f.visibility <;> decide
  have hasync : (if f.isAsync then "async ".toList else []) ⊆
      "export default async function ".toList := by
    cases f.isAsync <;> decide
  have hfunction : "function ".toList ⊆ "export default async function ".toList := by decide
  rw [lead, List.mem_append, List.mem_append, List.mem_append] at hc
  rcases hc with hc | hc | hc | hc
  · exact hwords c (hexport hc)
  · exact hwords c (hasync hc)
  · exact hwords c (hfunction hc)
  · exact not_parenthesis_of_isIdentifierPart (hname.isIdentifierPart c hc)

/-- The arguments of a function are the text between its parentheses. -/
theorem betweenParentheses?_text : betweenParentheses? f.text = some f.arguments := by
  have hlead : ∀ c ∈ f.lead, decide (c ≠ '(') = true :=
    fun c hc => decide_eq_true (f.not_mem_lead hname hc).1
  rw [betweenParentheses?, text_eq, List.dropWhile_append_of_pos hlead]
  simp

/-- The parameters of a function and the text of its arguments are those between its
parentheses. -/
theorem arguments_text :
    Signature.arguments f.text =
      { text := String.ofList (trim f.arguments), parameters := parameters f.arguments } := by
  rw [Signature.arguments, betweenParentheses?_text f hname]
  cases f.arguments with
  | nil => rfl
  | cons c s => rfl

/-- A head without terminators in its arguments is code as it is written: the closing parenthesis
is its first terminator. -/
theorem exists_text_eq (harguments : ∀ c ∈ f.arguments, Block.isTerminator c = false) :
    ∃ c s, f.text = c :: s ++ [')'] ∧ isBlank c = false ∧
      ∀ d ∈ c :: s, Block.isTerminator d = false := by
  obtain ⟨c, s, hlead, hc⟩ := f.isBlank_head_lead
  refine ⟨c, s ++ '(' :: f.arguments, ?_, hc, ?_⟩
  · rw [text_eq, hlead]
    simp
  · intro d hd
    rw [← List.cons_append, ← hlead] at hd
    rcases List.mem_append.mp hd with hd | hd
    · exact (f.not_mem_lead hname hd).2
    · rcases List.mem_cons.mp hd with rfl | hd
      · rfl
      · exact harguments d hd

end

end FunctionHead

end DocComments.Signature
