import DocComments.Proofs.Block.WrittenComment
import DocComments.Proofs.Comment.Description
import DocComments.Proofs.Record.Draft
import DocComments.Proofs.Signature.FunctionHead

/-!
# Documented functions

A source text that is a list of documented functions has one record for each of them, in order,
and each record is made from the comment and the head of its own function. Only one way to write a
comment and a head is treated, and bodies that hold no further comment.
-/

namespace DocComments
open Comment (IsPlain Section)
open Signature (FunctionHead)
open Text (trim unlines)
open Unicode (isBlank)

/-- A function behind its comment, by the lines of the description, the sections with their tags,
the blanks behind the comment, the head of the function and the text behind the head. The comment
ends where it is closed first and describes the function only once, nothing between the parentheses
ends the code, and no comment is opened behind them. -/
structure DocumentedFunction where
  description : List (List Char)
  sections : List Section
  gap : List Char
  head : FunctionHead
  body : List Char
  plain : IsPlain description
  writable : ∀ x ∈ sections, x.Writable
  describedOnce : ∀ x ∈ sections, x.key ≠ "desc".toList ∧ x.key ≠ "description".toList
  single : Block.IsSingle (Comment.written (description ++ sections.flatMap Section.lines))
  blank : ∀ c ∈ gap, isBlank c = true
  named : Signature.IsIdentifier head.name
  closed : ∀ c ∈ head.arguments, Block.isTerminator c = false
  undocumented : ¬ Block.openingMark <:+: body

namespace DocumentedFunction
variable (f : DocumentedFunction)

/-- The comment as it is written. -/
def comment : List Char :=
  Comment.written (f.description ++ f.sections.flatMap Section.lines)

/-- The comment and the function as they are written. -/
def text : List Char :=
  f.comment ++ (f.gap ++ (f.head.text ++ f.body))

/-- The comment and the head of the function. -/
def block : Block where
  comment := String.ofList f.comment
  code := String.ofList f.head.text

/-- The tags of the comment. -/
def tags : List Tag :=
  (f.sections.map Section.trimHead).filterMap Section.tag?

/-- The parameters that the comment names. -/
def fields : List Field :=
  f.tags.filterMap Tag.field?

/-- The type of the result if the last tag of a result gives one. -/
def resultType? : Option String :=
  (f.tags.filterMap Tag.outcome?).getLast?.bind Outcome.type

/-- How the function is called, and the type of what it returns. -/
def signature : String :=
  (if f.head.isAsync then "async " else "") ++ String.ofList f.head.name ++ "(" ++
    String.ofList (trim f.head.arguments) ++ ") ⇒ \x7b" ++ f.resultType?.getD "undefined" ++ "\x7d"

end DocumentedFunction

theorem Comment.isComment_written {ls : List (List Char)} (h : Block.IsSingle (written ls)) :
    Block.IsComment (written ls) := by
  have hsplit : written ls =
      ['/', '*', '*', '\n'] ++ ls.flatMap (writtenLine · ++ ['\n']) ++ [' '] ++ ['*', '/'] := by
    simp [written]
  have hlen : (written ls).length =
      (['/', '*', '*', '\n'] ++ ls.flatMap (writtenLine · ++ ['\n']) ++ [' ']).length + 2 := by
    rw [hsplit, List.length_append]
    rfl
  refine ⟨⟨_, rfl⟩, ?_, ?_, h⟩
  · rw [hlen, Nat.add_sub_cancel, hsplit]
    exact ⟨[], by rw [List.drop_left]; rfl⟩
  · rw [hlen]
    simp

namespace DocumentedFunction

section
variable (f : DocumentedFunction)

/-- A function that comes first is read first, whatever comes behind it. -/
theorem all_text_append (s : List Char) :
    Block.all (f.text ++ s) = f.block :: Block.all (f.body ++ s) := by
  obtain ⟨c, code, htext, hc, hcode⟩ := f.head.exists_text_eq f.named f.closed
  have hparen : Block.isTerminator ')' = true := rfl
  have hbehind : f.gap ++ (f.head.text ++ (f.body ++ s)) =
      f.gap ++ (c :: code ++ ')' :: (f.body ++ s)) := by
    rw [htext, List.append_assoc]
    rfl
  have hcomment : Block.IsComment f.comment := Comment.isComment_written f.single
  have hfollows := Block.codeFollows_code (s := f.body ++ s) f.blank hcode hparen
  rw [text, List.append_assoc, List.append_assoc, List.append_assoc, hbehind,
    hcomment.all_append hfollows, Block.codeText_code f.blank hc hcode hparen,
    Block.drop_code f.blank hcode hparen, block, htext]

end

theorem head?_flatMap_text {fs : List DocumentedFunction} {c : Char}
    (h : (fs.flatMap text).head? = some c) : c = '/' := by
  cases fs with
  | nil => cases h
  | cons f fs => exact (Option.some.inj h).symm

/-- The blocks of documented functions are the comments and the heads that were written. -/
theorem all_flatMap_text (fs : List DocumentedFunction) :
    Block.all (fs.flatMap text) = fs.map block := by
  induction fs with
  | nil =>
    rw [List.flatMap_nil, Block.all]
    rfl
  | cons f fs ih =>
    rw [List.flatMap_cons, all_text_append, List.map_cons, Block.all_append_of_no_opening, ih]
    intro n hn
    exact Block.not_occursAt_openingMark_append f.undocumented (fun _ => head?_flatMap_text) hn

/-- What the record of a documented function says. -/
structure Describes (f : DocumentedFunction) (r : Record) : Prop where
  ofOwnText : r = Record.ofBlock f.block
  name : r.name = String.ofList f.head.name
  kind : r.construct.kind? = some "function"
  subtype : r.construct.subtype? = none
  isAsync : r.construct.isAsync? = some f.head.isAsync
  canAttach : r.canAttach = true
  description : r.description = String.ofList (unlines f.description)
  documented : f.fields ≠ [] → r.parameters.map Parameter.toField = f.fields
  recovered : f.fields = [] → r.parameters = (Signature.arguments f.head.text).parameters
  signature : r.signature = some f.signature

section
variable (f : DocumentedFunction)

/-- What is declared by the head of a function. -/
def declaration : Declaration :=
  Signature.callable f.head.name .plain f.head.isAsync f.head.text

/-- What is read of the comment of a function. -/
def content : Comment where
  description := String.ofList (unlines f.description)
  tags := f.tags
  examples := (f.sections.map Section.trimHead).filterMap Section.example?

theorem ofBlock_block : Record.ofBlock f.block = Record.ofComment f.declaration f.content := by
  rw [Record.ofBlock, block, String.toList_ofList, String.toList_ofList,
    f.head.ofCode_text f.named, comment, Comment.read_written f.plain f.writable]
  rfl

/-- No tag of the comment goes on with its description. -/
theorem describes_eq_false {t : Tag} (ht : t ∈ f.tags) : t.describes = false := by
  obtain ⟨y, hy, htag⟩ := List.mem_filterMap.mp ht
  obtain ⟨x, hx, rfl⟩ := List.mem_map.mp hy
  obtain ⟨hdesc, hdescription⟩ := f.describedOnce x hx
  have hkey : t.key = String.ofList x.key := by
    unfold Section.tag? at htag
    split at htag
    · cases htag
    · exact (Option.some.inj htag) ▸ rfl
  have hne : ∀ word : String, x.key ≠ word.toList → t.key ≠ word := by
    rintro word hword rfl
    exact hword (by rw [hkey, String.toList_ofList])
  simp [Tag.describes, hne "desc" hdesc, hne "description" hdescription]

theorem canAttach_declaration : f.declaration.attachable = true := by
  have hname : String.ofList f.head.name ≠ "" := by
    intro hempty
    have hnil : f.head.name = [] := by
      rw [← String.toList_ofList (l := f.head.name), hempty]
      rfl
    have hnamed := f.named
    rw [hnil] at hnamed
    exact hnamed
  exact decide_eq_true hname

theorem trim_signature : trim f.signature.toList = f.signature.toList := by
  obtain ⟨c, s, hfront, hc⟩ : ∃ c s, (if f.head.isAsync then "async ".toList else []) ++
      f.head.name = c :: s ∧ isBlank c = false := by
    have hnamed := f.named
    cases hname : f.head.name with
    | nil =>
      rw [hname] at hnamed
      exact hnamed.elim
    | cons c s =>
      rw [hname] at hnamed
      cases f.head.isAsync with
      | true => exact ⟨_, _, rfl, rfl⟩
      | false => exact ⟨c, s, rfl, Signature.not_isBlank_of_isIdentifierStart hnamed.1⟩
  have hsplit : f.signature.toList = (if f.head.isAsync then "async ".toList else []) ++
      f.head.name ++ ("(".toList ++ trim f.head.arguments ++ ") ⇒ \x7b".toList ++
        (f.resultType?.getD "undefined").toList) ++ ['\x7d'] := by
    rw [signature]
    cases f.head.isAsync <;> simp [String.toList_append]
  rw [hsplit, hfront, List.cons_append, List.cons_append]
  exact Text.trim_eq_self (d := '\x7d') hc (by decide) List.cons_append.symm

/-- The text of a signature neither starts nor ends with a blank, so trimming leaves it alone. -/
theorem signatureText_eq {o : Outcome} (ho : o.type = f.resultType?) :
    Record.signatureText f.declaration o = f.signature := by
  have hraw : Record.signatureText f.declaration o =
      String.ofList (trim f.signature.toList) := by
    have harguments : f.declaration.arguments.text = String.ofList (trim f.head.arguments) := by
      rw [declaration, Signature.callable, f.head.arguments_text f.named]
    rw [Record.signatureText, harguments, ho, signature]
    cases hasync : f.head.isAsync <;>
      simp [declaration, Signature.callable, Construct.isAsync?, hasync]
  rw [hraw, f.trim_signature, String.ofList_toList]

theorem describes : f.Describes (Record.ofBlock f.block) := by
  rw [ofBlock_block]
  have hfields : (Draft.ofComment f.content).parameters.map Parameter.toField = f.fields :=
    Draft.ofComment_fields f.content
  have hnil : f.fields = [] ↔ (Draft.ofComment f.content).parameters = [] := by
    rw [← hfields, List.map_eq_nil_iff]
  refine ⟨f.ofBlock_block.symm, rfl, rfl, rfl, rfl, f.canAttach_declaration, ?_, ?_, ?_, ?_⟩
  · exact Draft.ofComment_description f.content fun t ht => f.describes_eq_false ht
  · intro hne
    have hsome : (Draft.ofComment f.content).parameters.isEmpty = false := by
      rw [List.isEmpty_eq_false_iff]
      exact fun h => hne (hnil.mpr h)
    rw [Record.ofComment, hsome]
    exact hfields
  · intro hempty
    rw [Record.ofComment, hnil.mp hempty]
    rfl
  · exact congrArg some (f.signatureText_eq (Draft.ofComment_type f.content))

end

end DocumentedFunction

/-- The records of a list of documented functions describe them, each its own one. -/
theorem Record.all_documented (fs : List DocumentedFunction) :
    List.Forall₂ DocumentedFunction.Describes fs (all (fs.flatMap DocumentedFunction.text)) := by
  rw [all, DocumentedFunction.all_flatMap_text, List.map_map, List.forall₂_map_right_iff,
    List.forall₂_same]
  exact fun f _ => f.describes

/-- A function with a tag for its parameter and an asynchronous one without tags. -/
theorem Record.all_documented_pair :
    ∃ f g : DocumentedFunction,
      [f, g].flatMap DocumentedFunction.text =
        ("/**\n * Add.\n * @param {Number} a The first\n */\nexport function add(a, b) \x7b\x7d\n" ++
          "/**\n * Wait.\n */\nasync function wait(time) \x7b\x7d").toList ∧
      List.Forall₂ DocumentedFunction.Describes [f, g]
        (all ([f, g].flatMap DocumentedFunction.text)) := by
  refine ⟨{
    description := ["Add.".toList]
    sections := [⟨"param".toList, " \x7bNumber\x7d a The first".toList, []⟩]
    gap := ['\n']
    head := ⟨.exported, false, "add".toList, "a, b".toList⟩
    body := " \x7b\x7d\n".toList
    plain := ⟨⟨by decide, by decide, by decide, by decide, by decide⟩, by decide⟩
    writable := List.forall_mem_singleton.mpr
      ⟨⟨by decide, List.all_eq_true.mp (by decide)⟩, fun _ hc => Option.some.inj hc ▸ rfl,
        by decide, by decide⟩
    describedOnce := by decide
    single := by decide
    blank := List.forall_mem_singleton.mpr rfl
    named := ⟨by decide +kernel, List.all_eq_true.mp (by decide +kernel)⟩
    closed := fun c hc => Bool.eq_false_iff.mpr (List.any_eq_false.mp (by decide) c hc)
    undocumented := by decide }, {
    description := ["Wait.".toList]
    sections := []
    gap := ['\n']
    head := ⟨.hidden, true, "wait".toList, "time".toList⟩
    body := " \x7b\x7d".toList
    plain := ⟨⟨by decide, by decide, by decide, by decide, by decide⟩, by decide⟩
    writable := by simp
    describedOnce := by decide
    single := by decide
    blank := List.forall_mem_singleton.mpr rfl
    named := ⟨by decide +kernel, List.all_eq_true.mp (by decide +kernel)⟩
    closed := fun c hc => Bool.eq_false_iff.mpr (List.any_eq_false.mp (by decide) c hc)
    undocumented := by decide }, by decide +kernel, all_documented _⟩

/-- A tag behind blanks is a tag all the same: it ends a description, and it names a parameter
from within an example. -/
theorem Record.all_indented_tags :
    let d := ["a".toList, " @b c".toList]
    let x : Section := ⟨"example".toList, [], [" @param x".toList]⟩
    let source := Comment.written (d ++ x.lines) ++ "\nfunction f(y) \x7b\x7d".toList
    Comment.IsTidy d ∧ (∀ l ∈ d ++ x.body, l.head? ≠ some '@') ∧
      Block.IsSingle (Comment.written (d ++ x.lines)) ∧
      (¬ ∃ r, all source = [r] ∧ r.description = String.ofList (unlines d)) ∧
      ¬ ∃ r, all source = [r] ∧ r.parameters.map (fun p => p.name) =
        (Signature.arguments "function f(y)".toList).parameters.map (fun p => p.name) := by
  intro d x source
  have hdescription : (all source).map Record.description = ["a"] := by decide +kernel
  have hparameters : (all source).map (fun r => r.parameters.map fun p => p.name) = [["x"]] := by
    decide +kernel
  refine ⟨⟨by decide, by decide, by decide, by decide, by decide⟩, by decide, by decide, ?_, ?_⟩
  · rintro ⟨r, hr, hread⟩
    rw [hr, List.map_singleton, hread] at hdescription
    exact absurd hdescription (by decide)
  · rintro ⟨r, hr, hread⟩
    rw [hr, List.map_singleton, hread] at hparameters
    exact absurd hparameters (by decide +kernel)

end DocComments
