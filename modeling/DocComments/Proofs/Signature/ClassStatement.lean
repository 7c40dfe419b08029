import DocComments.Proofs.Signature.Declared
import DocComments.Proofs.Signature.Member
import DocComments.Proofs.Signature.Statement

/-!
# Classes with and without a name

A class up to the brace that opens its body may have a name, and may say which other class it
extends. One with a name is read as what it is, whatever it extends. One without a name never is:
where it extends a class the word for that is taken for its name, and else nothing is read. The body
of a class is not treated.
-/

namespace DocComments.Signature
open Text (trim trimStart trimEnd isBlankText)
open Unicode (isBlank)

/-- What a class extends: any text behind the word for it, with the blanks in front of that word and
behind it. -/
structure Extension where
  before : Space
  space : Space
  base : List Char

/-- The extension as it is written. -/
def Extension.text (x : Extension) : List Char :=
  x.before.text ++ ("extends".toList ++ (x.space.text ++ x.base))

/-- A class up to the brace that opens its body: its name, with the blanks in front of it, what it
extends, and the blanks in front of the brace. -/
structure ClassStatement where
  exported : Export
  name : Option (Space × Name)
  extension : Option Extension
  gap : Gap

/-- A text without a closing parenthesis declares a member only if that sets up instances or is a
property. -/
theorem memberDeclaration?_eq_none {s : List Char} (hclose : ')' ∉ s)
    (hinitializer : initializerDeclaration? s = none) (hproperty : propertyDeclaration? s = none) :
    memberDeclaration? s = none := by
  have harrow : arrowDeclaration? s = none := by
    rw [Option.eq_none_iff_forall_ne_some]
    intro d hd
    exact hclose (exists_of_arrowDeclaration? hd).1
  have hmethod : methodDeclaration? s = none := by
    rw [Option.eq_none_iff_forall_ne_some]
    intro d hd
    obtain ⟨p, hp, name, hname, -⟩ := exists_of_methodDeclaration? hd
    exact hclose ((methodPrefixes_suffix hp).mem (mem_of_methodName? hname).1)
  rw [memberDeclaration?_of_none hinitializer harrow hproperty, hmethod]

namespace ClassStatement
variable (f : ClassStatement)

/-- The name as it is written, with the blanks in front of it. -/
def nameText : List Char :=
  match f.name with
  | none => []
  | some (g, n) => g.text ++ n.text

/-- The name without them, or nothing. -/
def declaredName : List Char :=
  match f.name with
  | none => []
  | some (_, n) => n.text

/-- What stands behind the name, up to the brace. -/
def behind : List Char :=
  (match f.extension with
    | none => []
    | some x => x.text) ++ (f.gap.text ++ ['\x7b'])

/-- The class as it is written. -/
def text : List Char :=
  f.exported.text ++ ("class".toList ++ (f.nameText ++ f.behind))

/-- A class is recognised if its declaration is a class with its name, or with an empty one, to which
nothing can be attached. -/
structure IsRecognised (d : Declaration) : Prop where
  kind : d.construct.kind? = some "class"
  name : d.name = String.ofList f.declaredName
  notAttachable : d.attachable = false

/-- The name under which the class is read, if it is read as one. -/
def readName? : Option (List Char) :=
  match f.name with
  | some (_, n) => some n.text
  | none => f.extension.map fun _ => "extends".toList

/-- What the class is read as. -/
def declaration : Declaration :=
  match f.readName? with
  | some name => { name := String.ofList name, construct := .classHead }
  | none => {}

/-- Behind the name of a class stands a blank or the brace. -/
theorem head?_behind : ∀ c, f.behind.head? = some c → isBlank c = true ∨ c = '\x7b' := by
  intro c hc
  rw [behind] at hc
  split at hc
  · rcases f.gap.head?_append hc with hblank | ⟨-, hbrace⟩
    · exact .inl hblank
    · exact .inr (Option.some.inj hbrace).symm
  · rename_i x _
    rw [Extension.text, List.append_assoc] at hc
    exact .inl (x.before.isBlank_of_head?_append hc)

/-- A class without a name that extends nothing is read as nothing. -/
theorem ofCode_bare (x : Export) (g : Gap) :
    Declaration.ofCode (x.text ++ ("class".toList ++ (g.text ++ ['\x7b']))) = {} := by
  generalize hs : x.text ++ ("class".toList ++ (g.text ++ ['\x7b'])) = s
  have hbrace : isBlank '\x7b' = false ∧ isPathPart '\x7b' = false := by decide
  have htrim : trim s = s := by
    obtain ⟨c, t, hcons, hc⟩ := x.exists_eq_cons
      (s := "class".toList ++ (g.text ++ ['\x7b'])) ⟨_, _, rfl, rfl⟩
    have hend : c :: t = (x.text ++ ("class".toList ++ g.text)) ++ ['\x7b'] := by
      simp only [← hcons, List.append_assoc]
    rw [← hs, hcons]
    exact Text.trim_eq_self hc hbrace.1 hend
  have hmark : ∀ c, isBlank c = false → isPathPart c = false → c ≠ '\x7b' → c ∉ s := by
    intro c hblank hpart hne
    rw [← hs]
    simp only [List.mem_append, List.mem_singleton, not_or]
    exact ⟨x.mark_not_mem_text hblank hpart, mark_not_mem_word (by decide) hpart,
      g.mark_not_mem hblank, hne⟩
  have hword : ∀ c ∈ "class".toList, isPathPart c = true := isPathPart_of_word (by decide)
  have hunannounced : Unannounced (afterExport s) := by
    rw [← hs, x.afterExport_text rfl rfl rfl]
    exact unannounced_mark hword g.blank hbrace.1 hbrace.2
      (not_startsFunctionWord_of_isPrefixOf (by decide))
  have hassign : ¬ Assigns IsPath s := not_assigns_of_not_mem (hmark '=' rfl (by decide) (by decide))
  have hmember : memberDeclaration? s = none := by
    refine memberDeclaration?_eq_none (hmark ')' rfl (by decide) (by decide)) ?_ ?_
    · rw [← hs]
      cases x <;> rfl
    · rw [← hs]
      cases x <;> rfl
  rw [← htrim] at hunannounced hassign
  rw [ofCode_of_unannounced hunannounced hassign, htrim, hmember, Option.getD_none]

/-- What every class is read as. -/
theorem ofCode_text : Declaration.ofCode f.text = f.declaration := by
  rw [text, nameText, declaration, readName?]
  cases hname : f.name with
  | some n =>
    let named : ClassHead :=
      { exported := f.exported
        space := n.1
        name := n.2
        rest := f.behind
        ended := f.head?_behind }
    have hread := named.ofCode_text
    simpa [named, ClassHead.text, ClassHead.lead, ClassHead.declaration] using hread
  | none =>
    rw [behind]
    cases hextension : f.extension with
    | none => exact ofCode_bare f.exported f.gap
    | some x =>
      -- the word is read as a name with blanks behind it
      let misread : ClassHead :=
        { exported := f.exported
          space := x.before
          name := ⟨"extends".toList, by decide⟩
          rest := x.space.text ++ (x.base ++ (f.gap.text ++ ['\x7b']))
          ended := fun c hc => .inl (x.space.isBlank_of_head?_append hc) }
      have hread := misread.ofCode_text
      simpa [misread, ClassHead.text, ClassHead.lead, ClassHead.declaration, Extension.text]
        using hread

/-- A class is recognised exactly if it has a name. Without one it is read as a class that is named
by the word for what it extends, or as nothing if it extends nothing. -/
theorem isRecognised_iff_isSome_name :
    (f.IsRecognised (Declaration.ofCode f.text) ↔ f.name.isSome = true) ∧
      Declaration.ofCode f.text = f.declaration := by
  refine ⟨?_, f.ofCode_text⟩
  rw [f.ofCode_text, declaration, readName?]
  cases hname : f.name with
  | some n =>
    refine iff_of_true ⟨rfl, ?_, rfl⟩ rfl
    rw [declaredName, hname]
  | none =>
    refine iff_of_false (fun h => ?_) (by simp)
    have hempty := h.name
    rw [declaredName, hname] at hempty
    cases hextension : f.extension with
    | some x =>
      rw [hextension] at hempty
      have hword : String.ofList "extends".toList = String.ofList [] := hempty
      exact absurd hword (by decide)
    | none =>
      have hkind := h.kind
      rw [hextension] at hkind
      cases hkind

/-- The word in front of what a class extends becomes the name of a class that has none, and a class
that has neither is not read. -/
theorem not_isRecognised_anonymous :
    ∃ f g : ClassStatement, f.text = "class extends Base \x7b".toList ∧
      (Declaration.ofCode f.text).name = "extends" ∧ ¬ f.IsRecognised (Declaration.ofCode f.text) ∧
      g.text = "export default class \x7b".toList ∧
      (Declaration.ofCode g.text).construct = .unrecognised ∧
      ¬ g.IsRecognised (Declaration.ofCode g.text) := by
  let space : Space := ⟨⟨[' '], rfl⟩, by simp⟩
  let f : ClassStatement :=
    { exported := .hidden
      name := none
      extension := some ⟨space, space, "Base".toList⟩
      gap := space.toGap }
  let g : ClassStatement :=
    { exported := .byDefault space space
      name := none
      extension := none
      gap := space.toGap }
  refine ⟨f, g, by decide +kernel, by decide +kernel, fun h => ?_, by decide +kernel,
    by decide +kernel, fun h => ?_⟩
  · exact absurd h.name (by decide +kernel)
  · exact absurd h.kind (by decide +kernel)

end ClassStatement

end DocComments.Signature
