import DocComments.Proofs.Signature.Assignment
import DocComments.Proofs.Signature.Modifier

/-!
# Members of classes and objects

A method in short form, or as an arrow function behind its name, is recognised as what it is written
as, whatever its name and its arguments, exactly if its text assigns no function to a path: the
search for such assignments comes first, and it does not stop at the parentheses.
-/

namespace DocComments.Signature
open Text (trim trimStart trimEnd isBlankText)
open Unicode (isBlank isWordChar)

section
variable {w g t : List Char} {c : Char} (hg : isBlankText g = true) (hc : isBlank c = false)
  (hgc : g = [] → isPathPart c = false)
include hg hc hgc

/-- Only the word for it, with a parenthesis behind it, starts what sets up instances. -/
theorem initializerDeclaration?_word (hw : ∀ d ∈ w, isPathPart d = true) :
    initializerDeclaration? (w ++ (g ++ c :: t)) =
      if w = "constructor".toList ∧ c = '(' then
        some (callable "constructor".toList .initializer false (w ++ (g ++ c :: t)))
      else none := by
  rw [initializerDeclaration?, word?]
  split
  · rename_i hnone
    rw [Text.isPrefixOf?_eq_none_iff] at hnone
    rw [if_neg fun h => hnone ⟨_, by rw [h.1]⟩]
  · rename_i r hread
    obtain ⟨m, rfl, rfl⟩ := exists_of_append_eq (by decide) (head?_append_mark hg hgc)
      (Text.isPrefixOf?_eq_some_iff.mp hread)
    cases m with
    | nil =>
      rw [List.nil_append, Text.trimStart_append_of_blank hg, Text.trimStart_cons_of_not_blank hc]
      simp
    | cons d m =>
      have hd := hw d (by simp)
      have hblank := not_isBlank_of_isPathPart hd
      have hparen : d ≠ '(' := by
        rintro rfl
        exact absurd hd (by decide)
      rw [List.cons_append, Text.trimStart_cons_of_not_blank hblank]
      simp [hparen]

/-- No arrow function is behind a name that no colon follows. -/
theorem arrowDeclaration?_eq_none (hw : IsIdentifier w) (hcolon : c ≠ ':') :
    arrowDeclaration? (w ++ (g ++ c :: t)) = none := by
  rw [arrowDeclaration?, identifier?_word hw hg hgc]
  simp only [mark?_eq_none hg hc hcolon]

omit hc in
/-- No property of the object at hand is in front of a text that a point does not follow. -/
theorem propertyDeclaration?_eq_none (hw : IsIdentifier w) :
    propertyDeclaration? (w ++ (g ++ c :: t)) = none := by
  have hnone : word? "this." (w ++ (g ++ c :: t)) = none := by
    rw [word?, Text.isPrefixOf?_eq_none_iff]
    rintro ⟨r, heq⟩
    have hsplit : w ++ (g ++ c :: t) = "this".toList ++ '.' :: r := heq.symm
    obtain ⟨m, rfl, hr⟩ := exists_of_append_eq (by decide) (head?_append_mark hg hgc) hsplit
    cases m with
    | nil =>
      have hpoint := head?_append_mark hg hgc '.' (congrArg List.head? hr).symm
      exact absurd hpoint (by decide)
    | cons d m =>
      have hpoint := hw.isIdentifierPart '.' (by rw [(List.cons.inj hr).1]; simp)
      exact absurd hpoint (by decide)
  rw [propertyDeclaration?, hnone]

end

/-- Where no other shape of a member fits, that of a method in short form decides. -/
theorem memberDeclaration?_of_none {s : List Char} (hinitializer : initializerDeclaration? s = none)
    (harrow : arrowDeclaration? s = none) (hproperty : propertyDeclaration? s = none) :
    memberDeclaration? s = methodDeclaration? s := by
  simp only [memberDeclaration?, List.findSome?_cons, hinitializer, harrow, hproperty,
    List.findSome?_nil]
  cases methodDeclaration? s <;> rfl

/-- Code in which no class and no function is announced and no function is assigned is compared with
the shapes of members only. -/
theorem ofCode_of_unannounced {s : List Char} (h : Unannounced (afterExport (trim s)))
    (hassign : ¬ Assigns IsPath (trim s)) :
    Declaration.ofCode s = (memberDeclaration? (trim s)).getD {} := by
  have hassigned : assignedDeclaration? (trim s) = none := by
    rw [assignedDeclaration?, assignment?_eq_none_iff.mpr hassign, Option.map_none]
  rw [ofCode_eq, h.statementDeclaration?, hassigned, Option.none_or]

/-- Code in which no class and no function is announced declares a function that is assigned to a
path if there is one. -/
theorem exists_ofCode_of_assigns {s : List Char} (h : Unannounced (afterExport (trim s)))
    (hassign : Assigns IsPath (trim s)) :
    ∃ path isAsync, Declaration.ofCode s = callable path .assigned isAsync (trim s) := by
  obtain ⟨⟨path, isAsync⟩, hread⟩ := Option.isSome_iff_exists.mp
    (assignment?_isSome_iff.mpr hassign)
  refine ⟨path, isAsync, ?_⟩
  rw [ofCode_eq, h.statementDeclaration?, assignedDeclaration?, hread]
  rfl

/-- A method in short form: its modifiers, its name, the text between its parentheses and what
stands behind them. -/
structure Method extends Modifiers where
  name : Name
  gap : Gap
  arguments : List Char
  rest : List Char := []

namespace Method
variable (f : Method)

/-- The method as it is written. -/
def text : List Char :=
  f.before (f.name.text ++ (f.gap.text ++ '(' :: (f.arguments ++ ')' :: f.rest)))

/-- Whether the method sets up the instances of a class. -/
def isInitializer : Bool :=
  f.isEmpty && f.name.text == "constructor".toList

/-- The role of the method. -/
def role : Role :=
  if f.isInitializer then .initializer else .method f.static.isSome

/-- What the method declares. -/
def declaration : Declaration :=
  callable f.name.text f.role f.async.isSome (trim f.text)

/-- The method without blanks at the end of its text. -/
def trimmed : Method :=
  { f with rest := trimEnd f.rest }

theorem exists_text_eq :
    ∃ c s t, isBlank c = false ∧ c :: s = t ++ [')'] ∧
      ∀ r, { f with rest := r }.text = c :: s ++ r := by
  have hopening := f.opening_async f.name f.gap (t := f.arguments ++ [')']) (c := '(') (by decide)
    (by decide)
  obtain ⟨c, s, hcons, hc⟩ := (hopening.optional (by decide) "static" f.static
    ).exists_eq_cons (by decide)
  refine ⟨c, s, f.before (f.name.text ++ (f.gap.text ++ '(' :: f.arguments)),
    not_isBlank_of_isIdentifierStart hc, ?_, fun r => ?_⟩
  · rw [← hcons]
    simp [Modifiers.before]
  · rw [← hcons]
    simp [text, Modifiers.before, Modifiers.accessorText]

theorem trim_text : trim f.text = f.trimmed.text := by
  obtain ⟨c, s, t, hc, hsplit, htext⟩ := f.exists_text_eq
  have hrest : trim f.text = c :: s ++ trimEnd f.rest := by
    rw [htext f.rest]
    exact Text.trim_append hc (by decide) hsplit f.rest
  exact hrest.trans (htext (trimEnd f.rest)).symm

/-- Whether the method reads like a function with its own word: nothing but the mark of an
asynchronous one stands in front of that word. -/
def Announces : Prop :=
  f.static = none ∧ f.accessor = none ∧ StartsFunctionWord f.name.text

theorem unannounced (h : ¬ f.Announces) : Unannounced (afterExport f.text) := by
  have hpart : isPathPart '(' = false := by decide
  cases hempty : f.isEmpty with
  | true =>
    have hfunction : ¬ StartsFunctionWord f.name.text := by
      intro hword
      simp only [Modifiers.isEmpty, Bool.and_eq_true, Option.isNone_iff_eq_none] at hempty
      exact h ⟨hempty.1.1, hempty.2, hword⟩
    rw [text, Modifiers.before_of_isEmpty hempty]
    exact unannounced_afterExport_mark f.name.isPathPart f.gap.blank (by decide) hpart hfunction
  | false =>
    obtain ⟨word, hword, g, c, t, heq, hc, hasync⟩ := f.exists_first_word f.name f.gap
      (t := f.arguments ++ ')' :: f.rest) (c := '(') (by decide) hpart hempty
    have hwords : ∀ k ∈ ["static", "async", "get", "set"], IsIdentifier k.toList ∧
        k ≠ "export" ∧ k ≠ "class" ∧ "function".toList.isPrefixOf k.toList = false := by
      decide
    obtain ⟨hidentifier, hexport, hclass, hprefix⟩ := hwords word hword
    have hnot := not_startsFunctionWord_of_isPrefixOf hprefix
    have hblank := not_isBlank_of_isIdentifierStart hc
    rw [text, heq, afterExport_word (isPathPart_of_word hidentifier) g.blank hblank
      (fun h => absurd h g.ne_nil) fun h => hexport (String.toList_injective h)]
    exact unannounced_word (isPathPart_of_word hidentifier) g.blank hblank
      (fun h => absurd h g.ne_nil) (fun h => hclass (String.toList_injective h)) hnot
      fun hmark hnext => h (hasync (String.toList_injective hmark) hnext)

/-- Of the shapes of members, that of the method is the first that fits, and none does if its name
is a word of a statement. -/
theorem memberDeclaration?_text :
    memberDeclaration? f.text =
      if String.ofList f.name.text ∈ statementWords then none
      else some (callable f.name.text f.role f.async.isSome f.text) := by
  have hpart : isPathPart '(' = false := by decide
  have hmethod := f.methodDeclaration?_before f.name f.gap (t := f.arguments ++ ')' :: f.rest)
    (c := '(') (by decide) hpart (by simp)
  rw [← text] at hmethod
  cases hempty : f.isEmpty with
  | true =>
    have htext : f.text =
        f.name.text ++ (f.gap.text ++ '(' :: (f.arguments ++ ')' :: f.rest)) :=
      Modifiers.before_of_isEmpty hempty _
    have hasync : f.async = none := by
      simp only [Modifiers.isEmpty, Bool.and_eq_true, Option.isNone_iff_eq_none] at hempty
      exact hempty.1.2
    have hinitializer := initializerDeclaration?_word (t := f.arguments ++ ')' :: f.rest)
      f.gap.blank (c := '(') (by decide) (fun _ => hpart) f.name.isPathPart
    have harrow := arrowDeclaration?_eq_none (t := f.arguments ++ ')' :: f.rest) f.gap.blank
      (c := '(') (by decide) (fun _ => hpart) f.name.isIdentifier (by decide)
    have hproperty := propertyDeclaration?_eq_none (t := f.arguments ++ ')' :: f.rest) f.gap.blank
      (c := '(') (fun _ => hpart) f.name.isIdentifier
    rw [← htext] at hinitializer harrow hproperty
    by_cases hconstructor : f.name.text = "constructor".toList
    · have hrole : f.role = .initializer := by
        rw [role, isInitializer, hempty, hconstructor]
        rfl
      have hname : String.ofList f.name.text ∉ statementWords := by
        rw [hconstructor]
        decide
      rw [if_pos ⟨hconstructor, rfl⟩] at hinitializer
      rw [if_neg hname]
      simp only [memberDeclaration?, List.findSome?_cons, hinitializer, hrole, hasync,
        hconstructor, Option.isSome_none]
    · have hrole : f.role = .method f.static.isSome := by
        rw [role, isInitializer, hempty, Bool.true_and, if_neg (by simpa using hconstructor)]
      rw [if_neg fun h => hconstructor h.1] at hinitializer
      rw [memberDeclaration?_of_none hinitializer harrow hproperty, hmethod, hrole]
  | false =>
    obtain ⟨word, hword, g, c, t, heq, hc, -⟩ := f.exists_first_word f.name f.gap
      (t := f.arguments ++ ')' :: f.rest) (c := '(') (by decide) hpart hempty
    have hwords : ∀ k ∈ ["static", "async", "get", "set"], IsIdentifier k.toList ∧
        k ≠ "constructor" := by
      decide
    obtain ⟨hidentifier, hconstructor⟩ := hwords word hword
    have hblank := not_isBlank_of_isIdentifierStart hc
    have hcolon : c ≠ ':' := by
      rintro rfl
      exact absurd hc (by decide)
    have hinitializer := initializerDeclaration?_word (t := t) g.blank hblank
      (fun h => absurd h g.ne_nil) (isPathPart_of_word hidentifier)
    rw [if_neg fun h => hconstructor (String.toList_injective h.1), ← heq, ← text] at hinitializer
    have harrow := arrowDeclaration?_eq_none (t := t) g.blank hblank
      (fun h => absurd h g.ne_nil) hidentifier hcolon
    have hproperty := propertyDeclaration?_eq_none (t := t) (c := c) g.blank
      (fun h => absurd h g.ne_nil) hidentifier
    rw [← heq, ← text] at harrow hproperty
    have hrole : f.role = .method f.static.isSome := by
      rw [role, isInitializer, hempty]
      rfl
    rw [memberDeclaration?_of_none hinitializer harrow hproperty, hmethod, hrole]

end Method

/-- A method as an arrow function behind its name: the blanks around the colon, the mark of an
asynchronous function with the blanks behind it, the text between the parentheses and, if the arrow
is there, the blanks in front of it and what stands behind it. -/
structure Arrow where
  name : Name
  gap : Gap
  space : Gap
  async : Option Gap := none
  arguments : List Char
  arrow : Option (Gap × List Char) := none

namespace Arrow
variable (f : Arrow)

/-- The mark of an asynchronous function as it is written. -/
def asyncText : List Char :=
  match f.async with
  | none => []
  | some g => "async".toList ++ g.text

/-- The arrow and what stands around it. -/
def tail : List Char :=
  match f.arrow with
  | none => []
  | some (g, rest) => g.text ++ '=' :: '>' :: rest

/-- The function behind the colon. -/
def value : List Char :=
  f.asyncText ++ '(' :: (f.arguments ++ ')' :: f.tail)

/-- The method as it is written. -/
def text : List Char :=
  f.name.text ++ (f.gap.text ++ ':' :: (f.space.text ++ f.value))

/-- Whether the function is marked as asynchronous. Without blanks behind it the word is none. -/
def isAsync : Bool :=
  match f.async with
  | none => false
  | some g => !g.text.isEmpty

/-- What the method declares. -/
def declaration : Declaration :=
  callable f.name.text (.method false) f.isAsync (trim f.text)

/-- The method without blanks at the end of its text. -/
def trimmed : Arrow :=
  { f with arrow := f.arrow.map fun (g, rest) => (g, trimEnd rest) }

theorem trim_text : trim f.text = f.trimmed.text := by
  obtain ⟨name, gap, space, async, arguments, arrow⟩ := f
  have hname : Opening [] (name.text ++ (gap.text ++ ':' :: (space.text ++
      (value ⟨name, gap, space, async, arguments, none⟩)))) :=
    .name name gap _ (by decide) (by decide)
  obtain ⟨c, s, hcons, hc⟩ := hname.exists_eq_cons (by simp)
  have hc := not_isBlank_of_isIdentifierStart hc
  cases arrow with
  | none =>
    have htext : text ⟨name, gap, space, async, arguments, none⟩ = c :: s := hcons
    change trim (text ⟨name, gap, space, async, arguments, none⟩) =
      text ⟨name, gap, space, async, arguments, none⟩
    rw [htext]
    refine Text.trim_eq_self (t := name.text ++ (gap.text ++ ':' :: (space.text ++
      (asyncText ⟨name, gap, space, async, arguments, none⟩ ++ '(' :: arguments)))) (d := ')') hc
      (by decide) ?_
    rw [← hcons]
    simp [value, tail]
  | some arrow =>
    obtain ⟨g, rest⟩ := arrow
    have htext : ∀ r, text ⟨name, gap, space, async, arguments, some (g, r)⟩ =
        c :: (s ++ (g.text ++ ['=', '>'])) ++ r := by
      intro r
      rw [← List.cons_append, ← hcons]
      simp [text, value, tail, asyncText]
    rw [trimmed, htext]
    refine (Text.trim_append (t := c :: s ++ (g.text ++ ['='])) (d := '>') hc (by decide) ?_
      rest).trans (htext (trimEnd rest)).symm
    simp

theorem unannounced (h : ¬ StartsFunctionWord f.name.text) : Unannounced (afterExport f.text) :=
  unannounced_afterExport_mark f.name.isPathPart f.gap.blank (by decide) (by decide) h

theorem closesArrow_append {s : List Char} (h : closesArrow s = true) (l : List Char) :
    closesArrow (l ++ s) = true := by
  induction l with
  | nil => exact h
  | cons c l ih => rw [List.cons_append, closesArrow, ih, Bool.or_true]

/-- The last parenthesis is closed where the arrow or the end is. -/
theorem closesArrow_arguments : closesArrow (f.arguments ++ ')' :: f.tail) = true := by
  apply closesArrow_append
  rw [closesArrow, tail]
  split
  · rfl
  · rename_i g rest _
    have hstart : trimStart (g.text ++ '=' :: '>' :: rest) = '=' :: '>' :: rest :=
      Text.trimStart_append_of_blank g.blank _
    rw [hstart]
    rfl

/-- The function behind the colon is read with its mark, or as no arrow function if the mark is not
set apart from the parenthesis. -/
theorem arrowDeclaration?_text :
    arrowDeclaration? f.text =
      if f.async.any (·.text.isEmpty) then none
      else some (callable f.name.text (.method false) f.isAsync f.text) := by
  have hvalue : trimStart f.value = f.value := by
    rw [value, asyncText]
    split <;> rfl
  rw [arrowDeclaration?]
  conv_lhs => rw [text]
  rw [identifier?_word f.name.isIdentifier f.gap.blank fun _ => by decide]
  simp only [mark?_append f.gap.blank (c := ':') (by decide),
    Text.trimStart_append_of_blank f.space.blank, hvalue]
  have hclose := f.closesArrow_arguments
  cases hasync : f.async with
  | none =>
    have hmark : asyncMark f.value = (false, '(' :: (f.arguments ++ ')' :: f.tail)) := by
      rw [value, asyncText, hasync]
      rfl
    rw [hmark]
    simp [hclose, isAsync, hasync, text]
  | some g =>
    obtain ⟨g, hg⟩ := g
    cases g with
    | nil =>
      have hmark : asyncMark f.value = (false, "async(".toList ++ (f.arguments ++ ')' :: f.tail)) := by
        rw [value, asyncText, hasync]
        rfl
      rw [hmark]
      rfl
    | cons b g =>
      have hmark : asyncMark f.value = (true, '(' :: (f.arguments ++ ')' :: f.tail)) := by
        rw [value, asyncText, hasync, List.append_assoc, asyncMark_append hg (by simp)]
        rfl
      rw [hmark]
      simp [hclose, isAsync, hasync, text]

/-- Of the shapes of members, that of the arrow function is the first that fits. If the mark of an
asynchronous function is not set apart, that of a method in short form takes its place, unless the
name is a word of a statement. -/
theorem memberDeclaration?_text :
    memberDeclaration? f.text =
      if f.async.any (·.text.isEmpty) ∧ String.ofList f.name.text ∈ statementWords then none
      else some (callable f.name.text (.method false) f.isAsync f.text) := by
  have hpart : isPathPart ':' = false := by decide
  have hinitializer : initializerDeclaration? f.text = none := by
    rw [text, initializerDeclaration?_word f.gap.blank (by decide) (fun _ => hpart)
      f.name.isPathPart, if_neg fun h => absurd h.2 (by decide)]
  have harrow := f.arrowDeclaration?_text
  split at harrow
  · rename_i hany
    obtain ⟨g, hasync, hempty⟩ := (Option.any_eq_true _ _).mp hany
    have hempty : g.text = [] := List.isEmpty_iff.mp hempty
    have hunmarked : f.isAsync = false := by simp [isAsync, hasync, hempty]
    have hclose : ')' ∈ f.space.text ++ f.value := by simp [value]
    have hmethod := Modifiers.methodDeclaration?_before {} f.name f.gap (c := ':') (by decide) hpart
      hclose
    change methodDeclaration? f.text = (if String.ofList f.name.text ∈ statementWords then none
      else some (callable f.name.text (.method false) false f.text)) at hmethod
    have hproperty : propertyDeclaration? f.text = none :=
      propertyDeclaration?_eq_none f.gap.blank (fun _ => hpart) f.name.isIdentifier
    rw [memberDeclaration?_of_none hinitializer harrow hproperty, hmethod, hunmarked]
    simp only [hany, true_and]
  · rename_i hany
    rw [if_neg fun h => hany h.1]
    simp only [memberDeclaration?, List.findSome?_cons, hinitializer, harrow]

end Arrow

/-- A member of a class or an object that is a method. -/
inductive Member
  | short (f : Method)
  | arrow (f : Arrow)

namespace Member

/-- The name of the member. -/
def name : Member → Name
  | short f => f.name
  | arrow f => f.name

/-- The member as it is written. -/
def text : Member → List Char
  | short f => f.text
  | arrow f => f.text

/-- What stands behind the parenthesis that opens the arguments. -/
def behind : Member → List Char
  | short f => f.arguments ++ ')' :: f.rest
  | arrow f => f.arguments ++ ')' :: f.tail

/-- Whether the member sets up the instances of a class. -/
def isInitializer : Member → Bool
  | short f => f.isInitializer
  | arrow _ => false

/-- Whether the member is marked as asynchronous. -/
def isAsync : Member → Bool
  | short f => f.async.isSome
  | arrow f => f.isAsync

/-- Whether the member belongs to the class. -/
def isStatic : Member → Bool
  | short f => f.static.isSome
  | arrow _ => false

/-- What the member declares. -/
def declaration : Member → Declaration
  | short f => f.declaration
  | arrow f => f.declaration

/-- What stands in front of that parenthesis. -/
def lead : Member → List Char
  | short f => f.before (f.name.text ++ f.gap.text)
  | arrow f => f.name.text ++ (f.gap.text ++ ':' :: (f.space.text ++ f.asyncText))

theorem text_eq (m : Member) : m.text = m.lead ++ '(' :: m.behind := by
  cases m with
  | short f => simp [text, Method.text, lead, behind, Modifiers.before]
  | arrow f => simp [text, Arrow.text, lead, behind, Arrow.value]

/-- The only mark in front of the arguments is the colon. -/
theorem mark_not_mem_lead {c : Char} (hblank : isBlank c = false) (hpart : isPathPart c = false)
    (hcolon : c ≠ ':') (m : Member) : c ∉ m.lead := by
  cases m with
  | short f =>
    have haccessor : c ∉ f.accessorText := by
      rw [Modifiers.accessorText]
      split
      · exact List.not_mem_nil
      · rename_i a g _
        have hword : IsIdentifier a.word.toList := by cases a <;> decide
        exact mark_not_mem_optional hword (some g) hblank hpart
    simp only [lead, Modifiers.before, List.mem_append, not_or]
    exact ⟨mark_not_mem_optional (by decide) _ hblank hpart,
      mark_not_mem_optional (by decide) _ hblank hpart, haccessor,
      mark_not_mem_word f.name.isIdentifier hpart, f.gap.mark_not_mem hblank⟩
  | arrow f =>
    have hasync : c ∉ f.asyncText := by
      rw [Arrow.asyncText]
      split
      · exact List.not_mem_nil
      · rename_i g _
        rw [List.mem_append, not_or]
        exact ⟨mark_not_mem_word (by decide) hpart, g.mark_not_mem hblank⟩
    simp only [lead, List.mem_append, List.mem_cons, not_or]
    exact ⟨mark_not_mem_word f.name.isIdentifier hpart, f.gap.mark_not_mem hblank, hcolon,
      f.space.mark_not_mem hblank, hasync⟩

/-- The search for a path to which a function is assigned passes over all in front of the
arguments. -/
theorem assignment?_text (m : Member) : assignment? m.text = assignment? m.behind := by
  have hequals : '=' ∉ m.lead := m.mark_not_mem_lead (by decide) (by decide) (by decide)
  rw [m.text_eq, assignment?_append hequals (by decide) (by decide) fun h => absurd h (by decide)]

/-- No function is assigned to a path in front of the arguments. -/
theorem assigns_text_iff (m : Member) : Assigns IsPath m.text ↔ Assigns IsPath m.behind := by
  rw [← assignment?_isSome_iff, ← assignment?_isSome_iff, m.assignment?_text]

/-- A member is recognised if its declaration is a function with its name, a method or what sets up
instances as it is written, to which nothing can be attached. -/
structure IsRecognised (m : Member) (d : Declaration) : Prop where
  kind : d.construct.kind? = some "function"
  subtype : d.construct.subtype? = some (if m.isInitializer then "constructor" else "method")
  name : d.name = String.ofList m.name.text
  notAttachable : d.attachable = false

theorem isRecognised_declaration (m : Member) : m.IsRecognised m.declaration := by
  cases m with
  | short f =>
    have hrole : f.declaration.construct = .callable f.role f.async.isSome := rfl
    refine ⟨rfl, ?_, rfl, ?_⟩
    · change f.declaration.construct.subtype? = some (if f.isInitializer then _ else _)
      rw [hrole, Method.role]
      cases f.isInitializer <;> rfl
    · change f.declaration.construct.attachable f.declaration.name = false
      rw [hrole, Method.role]
      cases f.isInitializer <;> rfl
  | arrow f => exact ⟨rfl, rfl, rfl, rfl⟩

/-- Whether the name of a member can be that of a method where it is read as one in short form. An
arrow function is read so only if the word in front of its parenthesis marks nothing. -/
def IsNameable : Member → Prop
  | short f => String.ofList f.name.text ∉ statementWords
  | arrow f => ∀ g, f.async = some g → g.text = [] → String.ofList f.name.text ∉ statementWords

theorem isNameable_of_not_mem {m : Member} (h : String.ofList m.name.text ∉ statementWords) :
    m.IsNameable := by
  cases m with
  | short f => exact h
  | arrow f => exact fun _ _ _ => h

section
variable (m : Member)

theorem trim_text : trim m.text = trimEnd m.text := by
  have hstart : trimStart m.text = m.text := by
    cases m with
    | short f =>
      obtain ⟨c, s, t, hc, -, htext⟩ := f.exists_text_eq
      rw [text, htext f.rest]
      exact Text.trimStart_cons_of_not_blank hc _
    | arrow f => exact trimStart_identifier f.name.isIdentifier _
  rw [trim, hstart]

theorem assigns_trim_iff : Assigns IsPath (trim m.text) ↔ Assigns IsPath m.behind := by
  rw [m.trim_text, assigns_trimEnd_iff, m.assigns_text_iff]

/-- The member without blanks at the end of its text. -/
def trimmed : Member → Member
  | short f => .short f.trimmed
  | arrow f => .arrow f.trimmed

theorem trim_text_eq : trim m.text = m.trimmed.text := by
  cases m with
  | short f => exact f.trim_text
  | arrow f => exact f.trim_text

/-- Whether the member reads like a function with its own word. -/
def Announces : Member → Prop
  | short f => f.Announces
  | arrow f => StartsFunctionWord f.name.text

theorem unannounced (h : ¬ m.Announces) : Unannounced (afterExport m.text) := by
  cases m with
  | short f => exact f.unannounced h
  | arrow f => exact f.unannounced h

variable (hfunction : ¬ StartsFunctionWord m.name.text)
include hfunction

theorem unannounced_trim : Unannounced (afterExport (trim m.text)) := by
  rw [m.trim_text_eq]
  refine m.trimmed.unannounced fun h => hfunction ?_
  cases m with
  | short f => exact h.2.2
  | arrow f => exact h

/-- A member is read as it is written unless a function is assigned to a path in its arguments. -/
theorem ofCode_text (hname : m.IsNameable) (hassign : ¬ Assigns IsPath m.behind) :
    Declaration.ofCode m.text = m.declaration := by
  rw [ofCode_of_unannounced (m.unannounced_trim hfunction) (mt m.assigns_trim_iff.mp hassign)]
  cases m with
  | short f =>
    have hnot : String.ofList f.trimmed.name.text ∉ statementWords := hname
    rw [text, f.trim_text, f.trimmed.memberDeclaration?_text, if_neg hnot, Option.getD_some,
      declaration, Method.declaration, f.trim_text]
    rfl
  | arrow f =>
    have hnot : ¬ (f.trimmed.async.any (·.text.isEmpty) ∧
        String.ofList f.trimmed.name.text ∈ statementWords) := by
      rintro ⟨hany, hmem⟩
      obtain ⟨g, hasync, hempty⟩ := (Option.any_eq_true _ _).mp hany
      exact hname g hasync (List.isEmpty_iff.mp hempty) hmem
    rw [text, f.trim_text, f.trimmed.memberDeclaration?_text, if_neg hnot, Option.getD_some,
      declaration, Arrow.declaration, f.trim_text]
    rfl

/-- A member with a name of its own is recognised exactly if no function is assigned to a path in
its arguments or behind them. -/
theorem isRecognised_iff (hname : String.ofList m.name.text ∉ statementWords) :
    m.IsRecognised (Declaration.ofCode m.text) ↔ ¬ Assigns IsPath m.behind := by
  constructor
  · intro hrecognised hassign
    obtain ⟨path, isAsync, heq⟩ := exists_ofCode_of_assigns (m.unannounced_trim hfunction)
      (m.assigns_trim_iff.mpr hassign)
    have hsubtype := hrecognised.subtype
    rw [heq] at hsubtype
    have hvariable : "variable" = if m.isInitializer then "constructor" else "method" :=
      Option.some.inj hsubtype
    split at hvariable <;> exact absurd hvariable (by decide)
  · intro hassign
    rw [m.ofCode_text hfunction (isNameable_of_not_mem hname) hassign]
    exact m.isRecognised_declaration

end

/-- A method that is named like a modifier, with defaults that hold an arrow function and a
comparison. -/
theorem isRecognised_iff_static_get :
    ∃ m : Member, m.text = "static async get (list = [], less = (a, b) => a == b)".toList ∧
      ¬ StartsFunctionWord m.name.text ∧ String.ofList m.name.text ∉ statementWords ∧
      m.IsRecognised (Declaration.ofCode m.text) := by
  have hfunction : ¬ StartsFunctionWord "get".toList :=
    not_startsFunctionWord_of_isPrefixOf (by decide)
  let m : Member := .short
    { static := some ⟨⟨[' '], rfl⟩, by simp⟩
      async := some ⟨⟨[' '], rfl⟩, by simp⟩
      name := ⟨"get".toList, by decide +kernel⟩
      gap := ⟨[' '], rfl⟩
      arguments := "list = [], less = (a, b) => a == b".toList }
  have hassign : ¬ Assigns IsPath m.behind :=
    assignment?_eq_none_iff.mp (by decide +kernel)
  exact ⟨m, by decide +kernel, hfunction, by decide +kernel,
    (m.isRecognised_iff hfunction (by decide +kernel)).mpr hassign⟩

/-- A function as a default takes the place of the method it belongs to. -/
theorem not_isRecognised_function_default :
    ∃ m : Member, m.text = "on(event, handler = function () \x7b\x7d)".toList ∧
      ¬ "function".toList <+: m.name.text ∧ String.ofList m.name.text ∉ statementWords ∧
      ¬ m.IsRecognised (Declaration.ofCode m.text) := by
  let m : Member := .short
    { name := ⟨"on".toList, by decide +kernel⟩
      gap := ⟨[], rfl⟩
      arguments := "event, handler = function () \x7b\x7d".toList }
  refine ⟨m, by decide +kernel, by decide, by decide +kernel, ?_⟩
  intro h
  have hname := h.name
  exact absurd hname (by decide +kernel)

end Member

end DocComments.Signature
