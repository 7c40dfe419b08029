import DocComments.Proofs.Signature.Member
import DocComments.Proofs.Signature.Statement

/-!
# Declarations as they are written

Every way to write a declaration of one of the seven shapes is read as the declaration it stands
for, whatever names, blanks and arguments it has. For members this holds where their text assigns
no function to a path; it is not enough that none is assigned to an identifier, since the points of
a path may stand where no identifier ends. Code that has none of these shapes is not treated here.
-/

namespace DocComments.Signature
open Text (trim trimStart trimEnd isBlankText)
open Unicode (isBlank isWordChar)

/-- A property of the object at hand, its whole name and what stands behind it. -/
structure Property where
  name : Name
  rest : List Char
  ended : ∀ c, rest.head? = some c → isIdentifierPart c = false

namespace Property
variable (f : Property)

/-- The property as it is written. -/
def text : List Char :=
  "this.".toList ++ (f.name.text ++ f.rest)

/-- The property without blanks at the end of its text. -/
def trimmed : Property :=
  { f with rest := trimEnd f.rest, ended := fun c hc => f.ended c (Text.head?_trimEnd hc) }

/-- What the property declares. -/
def declaration : Declaration :=
  { name := String.ofList ("this.".toList ++ f.name.text), construct := .property }

theorem trim_text : trim f.text = f.trimmed.text := by
  obtain ⟨t, d, hname, hd⟩ := f.name.exists_eq_append
  have hend : 't' :: ("his.".toList ++ f.name.text) = "this.".toList ++ t ++ [d] := by
    rw [hname]
    simp
  have htrim := Text.trim_append (c := 't') (by decide) hd hend f.rest
  simp only [List.cons_append, List.append_assoc] at htrim
  exact htrim

theorem identifier?_text :
    identifier? f.text = some ("this".toList, '.' :: (f.name.text ++ f.rest)) :=
  have hpoint : ∀ c, ('.' :: (f.name.text ++ f.rest)).head? = some c → isIdentifierPart c = false :=
    fun c hc => Option.some.inj hc ▸ by decide
  identifier?_append (by decide : IsIdentifier "this".toList) hpoint

/-- Its first word names no method. -/
theorem methodDeclaration?_text : methodDeclaration? f.text = none := by
  have hname : methodName? f.text = none ∨ methodName? f.text = some "this".toList := by
    rw [methodName?, f.identifier?_text]
    simp only [List.tail_cons, List.head?_cons]
    by_cases hclose : ')' ∈ f.name.text ++ f.rest
    · exact Or.inr (if_pos hclose)
    · exact Or.inl (if_neg hclose)
  have hprefixes : methodPrefixes f.text = [(false, false, f.text)] := rfl
  rw [methodDeclaration?, hprefixes]
  simp only [List.findSome?_singleton]
  rcases hname with hname | hname
  · rw [hname]
    rfl
  · have hmem : String.ofList "this".toList ∈ statementWords := by decide
    rw [hname]
    simp only [Option.map_some, hmem, if_true]

/-- A property is read last, so nothing before it may fit. -/
theorem ofCode_text (hassign : ¬ Assigns IsPath f.text) :
    Declaration.ofCode f.text = f.declaration := by
  have hclass : classDeclaration? f.trimmed.text = none := rfl
  have hfunction : functionDeclaration? f.trimmed.text = none := rfl
  have hassigned : assignedDeclaration? f.trimmed.text = none := by
    have htrim : f.trimmed.text = trimEnd f.text := by
      rw [← f.trim_text, trim]
      rfl
    rw [assignedDeclaration?, assignment?_eq_none_iff.mpr, Option.map_none]
    rw [htrim, assigns_trimEnd_iff]
    exact hassign
  have hinitializer : initializerDeclaration? f.trimmed.text = none := rfl
  have harrow : arrowDeclaration? f.trimmed.text = none := by
    rw [arrowDeclaration?, f.trimmed.identifier?_text]
    rfl
  have hproperty : propertyDeclaration? f.trimmed.text = some f.declaration := by
    have hword : word? "this." f.trimmed.text = some (f.name.text ++ f.trimmed.rest) :=
      Text.isPrefixOf?_eq_some_iff.mpr rfl
    rw [propertyDeclaration?, hword]
    simp only [identifier?_append f.name.isIdentifier f.trimmed.ended, Option.map_some]
    rfl
  rw [Declaration.ofCode, f.trim_text]
  simp only [shapes, List.findSome?_cons, hclass, hfunction, hassigned, hinitializer, harrow,
    f.trimmed.methodDeclaration?_text, hproperty, Option.getD_some]

end Property

/-- What is told of a declaration besides its arguments. -/
structure Outline where
  kind? : Option String
  subtype? : Option String
  name : String
  isAsync? : Option Bool
  isStatic? : Option Bool
  attachable : Bool
deriving DecidableEq, Repr

/-- The outline of a declaration. -/
def Outline.of (d : Declaration) : Outline :=
  { kind? := d.construct.kind?
    subtype? := d.construct.subtype?
    name := d.name
    isAsync? := d.construct.isAsync?
    isStatic? := d.construct.isStatic?
    attachable := d.attachable }

/-- A declaration of one of the seven shapes. -/
inductive Fragment
  | classHead (f : ClassHead)
  | function (f : FunctionStatement)
  | assigned (f : AssignedFunction)
  | member (m : Member)
  | property (f : Property)

namespace Fragment

/-- The declaration as it is written. -/
def text : Fragment → List Char
  | classHead f => f.text
  | function f => f.text
  | assigned f => f.text
  | member m => m.text
  | property f => f.text

/-- What it declares. -/
def declaration : Fragment → Declaration
  | classHead f => f.declaration
  | function f => f.declaration
  | assigned f => f.declaration
  | member m => m.declaration
  | property f => f.declaration

/-- What is to be told of it. -/
def outline : Fragment → Outline
  | classHead f => ⟨some "class", none, String.ofList f.name.text, none, none, false⟩
  | function f =>
    ⟨some "function", none, String.ofList f.declaredName, some f.async.isSome, some false,
      f.name.isSome⟩
  | assigned f =>
    ⟨some "function", some "variable", String.ofList f.path, some f.async.isSome, some false, true⟩
  | member m =>
    ⟨some "function", some (if m.isInitializer then "constructor" else "method"),
      String.ofList m.name.text, some m.isAsync, some m.isStatic, false⟩
  | property f =>
    ⟨some "variable", some "property", String.ofList ("this.".toList ++ f.name.text), none, none,
      false⟩

/-- Whether no other shape takes the place of the declaration: a member is named like neither a
statement nor a function, and no function is assigned to a path in a member or behind a
property. -/
def IsPlain : Fragment → Prop
  | member m => m.IsNameable ∧ ¬ StartsFunctionWord m.name.text ∧ ¬ Assigns IsPath m.text
  | property f => ¬ Assigns IsPath f.text
  | _ => True

theorem ofCode_text (f : Fragment) (h : f.IsPlain) : Declaration.ofCode f.text = f.declaration := by
  cases f with
  | classHead f => exact f.ofCode_text
  | function f => exact f.ofCode_text
  | assigned f => exact f.ofCode_text
  | member m =>
    obtain ⟨hname, hfunction, hassign⟩ := h
    exact m.ofCode_text hfunction hname (mt m.assigns_text_iff.mpr hassign)
  | property f => exact f.ofCode_text h

/-- Something can be attached to a function with its own word exactly if it has a name. -/
theorem attachable_function (f : FunctionStatement) : f.declaration.attachable = f.name.isSome := by
  have hattachable : f.declaration.attachable = decide (String.ofList f.declaredName ≠ "") := rfl
  rw [hattachable, FunctionStatement.declaredName]
  cases f.name with
  | none => rfl
  | some n =>
    obtain ⟨t, d, heq, -⟩ := n.1.exists_eq_append
    have hne : String.ofList n.1.text ≠ "" := by
      intro hempty
      have hlist := congrArg String.toList hempty
      rw [heq] at hlist
      simp at hlist
    simpa using hne

theorem outline_declaration (f : Fragment) : Outline.of f.declaration = f.outline := by
  cases f with
  | classHead f => rfl
  | function f => rw [Outline.of, declaration, attachable_function]; rfl
  | assigned f => rfl
  | member m =>
    cases m with
    | arrow f => rfl
    | short f =>
      change Outline.of (callable f.name.text f.role f.async.isSome (trim f.text)) =
        ⟨some "function", some (if f.isInitializer then "constructor" else "method"),
          String.ofList f.name.text, some f.async.isSome, some f.static.isSome, false⟩
      cases hinitializer : f.isInitializer with
      | false =>
        have hrole : f.role = .method f.static.isSome := by rw [Method.role, hinitializer]; rfl
        rw [hrole]
        rfl
      | true =>
        have hrole : f.role = .initializer := by rw [Method.role, hinitializer]; rfl
        -- what sets up instances has no modifiers
        have hempty : f.isEmpty = true := by
          rw [Method.isInitializer, Bool.and_eq_true] at hinitializer
          exact hinitializer.1
        simp only [Modifiers.isEmpty, Bool.and_eq_true, Option.isNone_iff_eq_none] at hempty
        rw [hrole, hempty.1.1]
        rfl
  | property f => rfl

/-- Every fragment is read as what it is written as. -/
theorem outline_ofCode (f : Fragment) (h : f.IsPlain) :
    Outline.of (Declaration.ofCode f.text) = f.outline := by
  rw [f.ofCode_text h, f.outline_declaration]

/-- An arrow function that is named like its mark, with a comparison in a default. -/
theorem outline_ofCode_async : ∃ f : Fragment,
    f.text = "async : async (same = (a, b) => a == b, rest) =>".toList ∧ f.IsPlain ∧
      Outline.of (Declaration.ofCode f.text) =
        ⟨some "function", some "method", "async", some true, some false, false⟩ := by
  let m : Member := .arrow
    { name := ⟨"async".toList, by decide +kernel⟩
      gap := ⟨[' '], rfl⟩
      space := ⟨[' '], rfl⟩
      async := some ⟨[' '], rfl⟩
      arguments := "same = (a, b) => a == b, rest".toList
      arrow := some (⟨[' '], rfl⟩, []) }
  have hname : m.IsNameable := Member.isNameable_of_not_mem (by decide +kernel)
  have hfunction : ¬ StartsFunctionWord m.name.text :=
    not_startsFunctionWord_of_isPrefixOf (by decide)
  have hassign : ¬ Assigns IsPath m.text := assignment?_eq_none_iff.mp (by decide +kernel)
  have hplain : (Fragment.member m).IsPlain := ⟨hname, hfunction, hassign⟩
  exact ⟨.member m, by decide +kernel, hplain, outline_ofCode (.member m) hplain⟩

/-- What stands behind the only equals sign of a text is known, and so is what stands in front of
it. -/
theorem eq_of_append_equals {l r s t : List Char} (hr : '=' ∉ r) (hl : '=' ∉ l)
    (h : s ++ '=' :: t = l ++ '=' :: r) : s = l := by
  rcases List.append_eq_append_iff.mp h with ⟨m, rfl, hm⟩ | ⟨m, rfl, hm⟩
  · cases m with
    | nil => exact (List.append_nil s).symm
    | cons d m =>
      rw [(List.cons.inj hm).1] at hl
      simp at hl
  · cases m with
    | nil => exact List.append_nil l
    | cons d m =>
      rw [(List.cons.inj hm).2] at hr
      simp at hr

/-- A path that ends with a point takes the place of what sets up instances, and nothing is
assigned to an identifier there. -/
theorem not_outline_ofCode_dotted_default : ∃ m : Member,
    m.text = "constructor(a. = function)".toList ∧ m.isInitializer = true ∧
      ¬ Assigns IsIdentifier m.text ∧
      (Declaration.ofCode m.text).construct.subtype? ≠ some "constructor" := by
  let m : Member := .short
    { name := ⟨"constructor".toList, by decide +kernel⟩
      gap := ⟨[], rfl⟩
      arguments := "a. = function".toList }
  refine ⟨m, by decide +kernel, by decide +kernel, ?_, by decide +kernel⟩
  rintro ⟨u, name, g, h, f, heq, hname, hg, -⟩
  have hsplit : (u ++ name ++ g) ++ '=' :: (h ++ f) =
      "constructor(a. ".toList ++ '=' :: " function)".toList := by
    rw [List.append_assoc, List.append_assoc, ← heq]
    decide +kernel
  have hfront := congrArg trimEnd (eq_of_append_equals (by decide) (by decide) hsplit)
  obtain ⟨t, d, rfl, hd⟩ := Name.exists_eq_append ⟨name, hname⟩
  rw [Text.trimEnd_append_of_isBlankText hg, ← List.append_assoc,
    Text.trimEnd_append_of_not_blank hd] at hfront
  have hlast : u ++ t ++ [d] = "constructor(a".toList ++ ['.'] := hfront
  have hpoint : d = '.' := (List.cons.inj (List.append_inj' hlast rfl).2).1
  have hpart := hname.isIdentifierPart d (by simp)
  rw [hpoint] at hpart
  exact absurd hpart (by decide +kernel)

end Fragment

end DocComments.Signature
