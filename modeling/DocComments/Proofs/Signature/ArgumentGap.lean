import DocComments.Proofs.Signature.Member
import DocComments.Proofs.Signature.Statement

/-!
# Blanks in front of the arguments

What a callable declares does not depend on the blanks directly in front of the parenthesis that
opens its arguments, except in one shape: the mark of an asynchronous arrow function is read by the
blanks behind it. Without them such a member is read as a method in short form, or as nothing. The
exception is stated exactly; blanks elsewhere in the text are not treated.
-/

namespace DocComments.Signature
open Text (trim trimStart trimEnd isBlankText isBlankText_nil)
open Unicode (isBlank isWordChar)

/-- A text without the blanks directly in front of its first opening parenthesis. -/
def closeUp (s : List Char) : List Char :=
  trimEnd (s.takeWhile (· ≠ '(')) ++ s.dropWhile (· ≠ '(')

section
variable {l : List Char} (hl : '(' ∉ l)
include hl

theorem ne_parenthesis_of_mem : ∀ c ∈ l, decide (c ≠ '(') = true := by
  intro c hc
  exact decide_eq_true fun h => hl (h ▸ hc)

theorem closeUp_append (s : List Char) : closeUp (l ++ '(' :: s) = trimEnd l ++ '(' :: s := by
  obtain ⟨htake, hdrop⟩ := Text.span_append (t := '(' :: s) (ne_parenthesis_of_mem hl) (by simp)
  rw [closeUp, htake, hdrop]

/-- The arguments are read from the first parenthesis on. -/
theorem arguments_append (s : List Char) :
    arguments (l ++ '(' :: s) = arguments ('(' :: s) := by
  rw [arguments, arguments, betweenParentheses?, betweenParentheses?,
    List.dropWhile_append_of_pos (ne_parenthesis_of_mem hl)]

/-- What stands in front of the arguments has a bearing on the rest of a declaration only. -/
theorem callable_append {k : List Char} (hk : '(' ∉ k) (name : List Char) (role : Role)
    (isAsync : Bool) (s : List Char) :
    callable name role isAsync (k ++ '(' :: s) = callable name role isAsync (l ++ '(' :: s) := by
  rw [callable, callable, arguments_append hl, arguments_append hk]

end

/-- No blanks. -/
def Gap.empty : Gap :=
  ⟨[], isBlankText_nil⟩

/-- Behind a character that is no blank only a gap is trimmed. -/
theorem trimEnd_append_gap {c : Char} (hc : isBlank c = false) (l : List Char) (g : Gap) :
    trimEnd (l ++ c :: g.text) = l ++ [c] := by
  rw [List.append_cons, Text.trimEnd_append_of_isBlankText g.blank,
    Text.trimEnd_append_of_not_blank hc]

theorem Name.trimEnd_append_gap (n : Name) (l : List Char) (g : Gap) :
    trimEnd (l ++ (n.text ++ g.text)) = l ++ n.text := by
  obtain ⟨t, d, htext, hd⟩ := n.exists_eq_append
  rw [← List.append_assoc, Text.trimEnd_append_of_isBlankText g.blank, htext, ← List.append_assoc,
    Text.trimEnd_append_of_not_blank hd]

/-! ### Functions with their own word -/

namespace FunctionStatement
variable (f : FunctionStatement)

/-- The function without the blanks in front of the parenthesis that opens its arguments. -/
def tight : FunctionStatement :=
  { f with
    gap := if f.name.isNone && f.star.isNone then .empty else f.gap
    star := if f.name.isNone then f.star.map fun _ => .empty else f.star
    name := f.name.map fun (n, _) => (n, .empty)
    apart := by
      obtain ⟨_, _, gap, star, name, _, apart⟩ := f
      intro hgap hstar n g hname
      cases name with
      | none => cases hname
      | some n =>
        obtain ⟨n, h⟩ := n
        cases hname
        exact apart hgap hstar n h rfl }

theorem trimEnd_lead : trimEnd f.lead = f.tight.lead := by
  obtain ⟨exported, async, gap, star, name, rest, apart⟩ := f
  let x : List Char := exported.text ++ optional "async" async
  let word : Name := ⟨"function".toList, by decide⟩
  rcases name with _ | ⟨n, g⟩
  · rcases star with _ | g
    · have htrim := word.trimEnd_append_gap x gap
      simpa [lead, tight, starText, nameText, Gap.empty, x, word] using htrim
    · have htrim := trimEnd_append_gap (c := '*') (by decide) (x ++ (word.text ++ gap.text)) g
      simpa [lead, tight, starText, nameText, Gap.empty, x, word] using htrim
  · let anonymous : FunctionStatement := ⟨exported, async, gap, star, none, rest, by simp⟩
    have htrim := n.trimEnd_append_gap (x ++ (word.text ++ (gap.text ++ anonymous.starText))) g
    simpa [lead, tight, starText, nameText, Gap.empty, x, word, anonymous] using htrim

theorem parenthesis_not_mem_lead : '(' ∉ f.lead :=
  f.mark_not_mem_lead (by decide) (by decide) (by decide)

theorem closeUp_text : closeUp f.text = f.tight.text := by
  rw [f.text_eq, closeUp_append f.parenthesis_not_mem_lead, f.trimEnd_lead, f.tight.text_eq]
  rfl

theorem ofCode_tight : Declaration.ofCode f.tight.text = Declaration.ofCode f.text := by
  have hname : f.tight.declaredName = f.declaredName := by
    rw [declaredName, declaredName]
    obtain ⟨_, _, _, _, name, _, _⟩ := f
    cases name <;> rfl
  rw [f.ofCode_text, f.tight.ofCode_text, declaration, declaration, trim_text, trim_text, hname,
    text_eq, text_eq]
  exact callable_append (parenthesis_not_mem_lead _) (parenthesis_not_mem_lead _) _ _ _ _

end FunctionStatement

/-! ### Members -/

/-- What a name goes on with behind the word for a function is a name itself, if it is anything. -/
theorem isIdentifier_of_append {w k : List Char} (h : IsIdentifier (w ++ k)) (hw : w ≠ [])
    (hk : k.head?.any isWordChar = false) (hne : k ≠ []) : IsIdentifier k := by
  obtain ⟨c, w, rfl⟩ := List.exists_cons_of_ne_nil hw
  obtain ⟨d, k, rfl⟩ := List.exists_cons_of_ne_nil hne
  have hparts : ∀ e ∈ d :: k, isIdentifierPart e = true := fun e he =>
    h.2 e (List.mem_append_right w he)
  have hd := hparts d List.mem_cons_self
  have hdollar : d = '$' := by
    have hword : isWordChar d = false := hk
    simpa [isIdentifierPart, hword] using hd
  exact ⟨by rw [hdollar]; decide, fun e he => hparts e (List.mem_cons_of_mem d he)⟩

section
variable (g : Gap) {c : Char} {t : List Char} (hc : isBlank c = false)
  (hpart : isPathPart c = false)
include hpart

theorem not_isWordChar_mark : (g.text ++ c :: t).head?.any isWordChar = false := by
  have hhead := head?_append_mark (t := t) g.blank fun _ => hpart
  cases hfirst : (g.text ++ c :: t).head? with
  | none => rfl
  | some d =>
    have hd := isIdentifierPart_of_isPathPart (hhead d hfirst)
    exact (Bool.or_eq_false_iff.mp hd).2

variable (hstar : c ≠ '*')
include hc hstar

/-- What a name goes on with behind the word for a function is read as the name of the function. -/
theorem identifier?_behind_word {k : List Char} (h : IsIdentifier ("function".toList ++ k))
    (hk : k.head?.any isWordChar = false) :
    identifier? (trimStart (dropStar (trimStart (k ++ (g.text ++ c :: t))))) =
      if k = [] then none else some (k, g.text ++ c :: t) := by
  split
  · rename_i hnil
    rw [hnil, List.nil_append, Text.trimStart_append_of_blank g.blank,
      Text.trimStart_cons_of_not_blank hc, dropStar_cons hstar,
      Text.trimStart_cons_of_not_blank hc,
      identifier?_cons_eq_none (isIdentifierStart_of_isPathPart hpart)]
  · rename_i hne
    have hrest := isIdentifier_of_append h (by decide) hk hne
    rw [trimStart_identifier hrest, dropStar_identifier hrest, trimStart_identifier hrest,
      identifier?_word hrest g.blank fun _ => hpart]

/-- A text whose first name starts with the word for a function, with nothing but the mark of an
asynchronous one in front, is read as a function that is named by the rest of that name. -/
theorem statementDeclaration?_word (o : Option Space) (n : Name)
    (h : StartsFunctionWord n.text) :
    statementDeclaration? (optional "async" o ++ (n.text ++ (g.text ++ c :: t))) =
      some (callable (n.text.drop 8) .plain o.isSome
        (optional "async" o ++ (n.text ++ (g.text ++ c :: t)))) := by
  obtain ⟨k, hword, hk⟩ := h
  have hdrop : n.text.drop 8 = k := by rw [hword]; rfl
  have hidentifier := n.isIdentifier
  rw [hword] at hidentifier
  have hhead : (k ++ (g.text ++ c :: t)).head?.any isWordChar = false := by
    cases k with
    | nil => exact not_isWordChar_mark g hpart
    | cons d k => exact hk
  have hread := functionWord?_append o hhead
  rw [hdrop, hword, List.append_assoc]
  generalize hs : optional "async" o ++ ("function".toList ++ (k ++ (g.text ++ c :: t))) = s
  rw [hs] at hread
  have hexport : afterExport s = s := by
    rw [← hs]
    cases o <;> rfl
  have hclass : classDeclaration? s = none := by
    rw [classDeclaration?, hexport, ← hs]
    cases o <;> rfl
  have hfunction : functionDeclaration? s = some (callable k .plain o.isSome s) := by
    rw [functionDeclaration?, hexport, hread]
    simp only [identifier?_behind_word g hc hpart hstar hidentifier hk]
    cases k <;> rfl
  simp only [statementDeclaration?, List.findSome?_cons, hclass, hfunction]

end

/-- The method without the blanks in front of the parenthesis that opens its arguments. -/
def Method.tight (f : Method) : Method :=
  { f with gap := .empty }

/-- The method without the blanks in front of the parenthesis that opens its arguments. If it is
marked as asynchronous these stand behind the mark. -/
def Arrow.tight (f : Arrow) : Arrow :=
  { f with
    space := if f.async.isNone then .empty else f.space
    async := f.async.map fun _ => .empty }

theorem Arrow.isAsync_tight (f : Arrow) : f.tight.isAsync = false := by
  rw [Arrow.isAsync, Arrow.tight]
  cases f.async <;> rfl

namespace Member
variable (m : Member)

/-- The member without the blanks in front of the parenthesis that opens its arguments. -/
def tight : Member → Member
  | short f => .short f.tight
  | arrow f => .arrow f.tight

theorem trimmed_tight : m.tight.trimmed = m.trimmed.tight := by
  cases m <;> rfl

theorem behind_tight : m.tight.behind = m.behind := by
  cases m <;> rfl

theorem trimEnd_lead : trimEnd m.lead = m.tight.lead := by
  cases m with
  | short f =>
    have htrim := f.name.trimEnd_append_gap (f.before []) f.gap
    simpa [lead, tight, Method.tight, Gap.empty, Modifiers.before, Modifiers.accessorText]
      using htrim
  | arrow f =>
    obtain ⟨name, gap, space, async, arguments, arrow⟩ := f
    cases async with
    | none =>
      have htrim := trimEnd_append_gap (c := ':') (by decide) (name.text ++ gap.text) space
      simpa [lead, tight, Arrow.tight, Gap.empty, Arrow.asyncText] using htrim
    | some g =>
      have htrim := Name.trimEnd_append_gap ⟨"async".toList, by decide⟩
        (name.text ++ (gap.text ++ ':' :: space.text)) g
      simpa [lead, tight, Arrow.tight, Gap.empty, Arrow.asyncText] using htrim

theorem parenthesis_not_mem_lead : '(' ∉ m.lead :=
  m.mark_not_mem_lead (by decide) (by decide) (by decide)

theorem closeUp_text : closeUp m.text = m.tight.text := by
  rw [m.text_eq, closeUp_append m.parenthesis_not_mem_lead, m.trimEnd_lead, m.tight.text_eq,
    m.behind_tight]

theorem callable_tight (name : List Char) (role : Role) (isAsync : Bool) :
    callable name role isAsync m.tight.text = callable name role isAsync m.text := by
  rw [m.text_eq, m.tight.text_eq, m.behind_tight]
  exact callable_append m.parenthesis_not_mem_lead m.tight.parenthesis_not_mem_lead _ _ _ _

theorem announces_tight : m.tight.Announces ↔ m.Announces := by
  cases m <;> rfl

/-- The function that a member is read as where it announces one: its name is the rest of that of
the member, behind the word of eight characters. -/
def announcement : Member → Declaration
  | short f => callable (f.name.text.drop 8) .plain f.async.isSome f.text
  | arrow f => callable (f.name.text.drop 8) .plain false f.text

theorem statementDeclaration?_of_announces (h : m.Announces) :
    statementDeclaration? m.text = some m.announcement := by
  cases m with
  | short f =>
    obtain ⟨⟨static, async, accessor⟩, name, gap, arguments, rest⟩ := f
    obtain ⟨hstatic, haccessor, hword⟩ := h
    cases hstatic
    cases haccessor
    exact statementDeclaration?_word gap (by decide) (by decide) (by decide) async name hword
  | arrow f =>
    exact statementDeclaration?_word f.gap (by decide) (by decide) (by decide) none f.name h

/-- A member is read as a statement with the blanks and without them. -/
theorem statementDeclaration?_tight :
    statementDeclaration? m.tight.text = statementDeclaration? m.text := by
  by_cases h : m.Announces
  · rw [m.statementDeclaration?_of_announces h,
      m.tight.statementDeclaration?_of_announces (m.announces_tight.mpr h)]
    cases m with
    | short f => exact congrArg some ((short f).callable_tight _ _ _)
    | arrow f => exact congrArg some ((arrow f).callable_tight _ _ _)
  · rw [(m.unannounced h).statementDeclaration?,
      (m.tight.unannounced (mt m.announces_tight.mp h)).statementDeclaration?,
      assignedDeclaration?, assignedDeclaration?, m.assignment?_text, m.tight.assignment?_text,
      m.behind_tight]
    simp only [m.callable_tight]

/-- No statement is read if neither word nor assignment makes the member one. -/
theorem statementDeclaration?_eq_none_iff :
    statementDeclaration? m.trimmed.text = none ↔ ¬ m.Announces ∧ ¬ Assigns IsPath m.behind := by
  have hannounces : m.trimmed.Announces ↔ m.Announces := by cases m <;> rfl
  by_cases h : m.Announces
  · simp [m.trimmed.statementDeclaration?_of_announces (hannounces.mpr h), h]
  · rw [(m.trimmed.unannounced (mt hannounces.mp h)).statementDeclaration?, assignedDeclaration?,
      Option.map_eq_none_iff, assignment?_eq_none_iff, ← m.trim_text_eq, m.assigns_trim_iff]
    simp [h]

/-- Whether the blanks are needed: without them an arrow function loses its mark, unless the code is
read as a statement anyway. -/
def NeedsGap : Member → Prop
  | short _ => False
  | arrow f => f.isAsync = true ∧ ¬ StartsFunctionWord f.name.text ∧
      ¬ Assigns IsPath (arrow f).behind

/-- Only the reading as a member can depend on the blanks, where no statement is read. -/
theorem ofCode_tight (h : statementDeclaration? m.trimmed.text = none →
    memberDeclaration? m.trimmed.tight.text = memberDeclaration? m.trimmed.text) :
    Declaration.ofCode m.tight.text = Declaration.ofCode m.text := by
  rw [ofCode_eq, ofCode_eq, m.trim_text_eq, m.tight.trim_text_eq, m.trimmed_tight,
    m.trimmed.statementDeclaration?_tight]
  cases hstatement : statementDeclaration? m.trimmed.text with
  | none => rw [h hstatement]
  | some d => rfl

/-- A method in short form is read as a member with the blanks and without them. -/
theorem memberDeclaration?_tight_short (f : Method) :
    memberDeclaration? f.tight.text = memberDeclaration? f.text := by
  have hcallable : callable f.name.text f.role f.async.isSome f.tight.text =
      callable f.name.text f.role f.async.isSome f.text := (short f).callable_tight _ _ _
  rw [f.memberDeclaration?_text, f.tight.memberDeclaration?_text, ← hcallable]
  rfl

/-- So is an arrow function without a mark, or with one that no blanks set apart. -/
theorem memberDeclaration?_tight_arrow {f : Arrow} (h : f.isAsync = false) :
    memberDeclaration? f.tight.text = memberDeclaration? f.text := by
  have hcallable : callable f.name.text (.method false) false f.tight.text =
      callable f.name.text (.method false) false f.text := (arrow f).callable_tight _ _ _
  have hany : f.tight.async.any (·.text.isEmpty) = f.async.any (·.text.isEmpty) := by
    rw [Arrow.isAsync] at h
    rw [Arrow.tight]
    cases hmark : f.async with
    | none => rfl
    | some g =>
      rw [hmark] at h
      simpa [Gap.empty] using h
  rw [f.memberDeclaration?_text, f.tight.memberDeclaration?_text, hany, f.isAsync_tight, h,
    ← hcallable]
  rfl

/-- An arrow function with a mark is asynchronous with the blanks and not without them, where it is
read as a member. -/
theorem ofCode_tight_ne {f : Arrow} (h : (arrow f).NeedsGap) :
    Declaration.ofCode f.tight.text ≠ Declaration.ofCode f.text := by
  obtain ⟨hasync, hnot⟩ := h
  have hstatement : statementDeclaration? f.trimmed.text = none :=
    (arrow f).statementDeclaration?_eq_none_iff.mpr hnot
  have htight : statementDeclaration? f.tight.trimmed.text = none :=
    (arrow f).trimmed.statementDeclaration?_tight.trans hstatement
  have hread : (Declaration.ofCode f.text).construct.isAsync? = some true := by
    have hany : f.trimmed.async.any (·.text.isEmpty) = false := by
      rw [Arrow.isAsync] at hasync
      change f.async.any (·.text.isEmpty) = false
      cases hmark : f.async with
      | none => rfl
      | some g => simpa [hmark] using hasync
    rw [ofCode_eq, f.trim_text, hstatement, f.trimmed.memberDeclaration?_text, hany,
      if_neg (by simp)]
    exact congrArg some hasync
  have hunread : (Declaration.ofCode f.tight.text).construct.isAsync? ≠ some true := by
    rw [ofCode_eq, f.tight.trim_text, htight, f.tight.trimmed.memberDeclaration?_text]
    split
    · simp [Construct.isAsync?]
    · have hmark : f.tight.trimmed.isAsync = false := f.isAsync_tight
      simp [callable, Construct.isAsync?, hmark]
  intro heq
  rw [heq] at hunread
  exact hunread hread

/-- Without the blanks a member declares what it does with them, unless they are needed. -/
theorem ofCode_tight_iff :
    Declaration.ofCode m.tight.text = Declaration.ofCode m.text ↔ ¬ m.NeedsGap := by
  cases m with
  | short f =>
    exact iff_of_true ((short f).ofCode_tight fun _ => memberDeclaration?_tight_short _) id
  | arrow f =>
    constructor
    · intro heq hneeds
      exact ofCode_tight_ne hneeds heq
    · intro hneeds
      refine (arrow f).ofCode_tight fun hstatement => ?_
      cases hasync : f.isAsync with
      | false => exact memberDeclaration?_tight_arrow hasync
      | true =>
        have hnot := (arrow f).statementDeclaration?_eq_none_iff.mp hstatement
        exact absurd ⟨hasync, hnot⟩ hneeds

end Member

/-! ### Callables -/

/-- A function with its own word, or a method as a member of a class or an object. -/
inductive Callable
  | function (f : FunctionStatement)
  | member (m : Member)

namespace Callable

/-- The callable as it is written. -/
def text : Callable → List Char
  | function f => f.text
  | member m => m.text

/-- Whether the blanks in front of the arguments are needed. -/
def NeedsGap : Callable → Prop
  | function _ => False
  | member m => m.NeedsGap

/-- The blanks directly in front of the arguments can be deleted from a callable exactly if they do
not set the mark of an asynchronous arrow function apart, with which it is read as a member. -/
theorem ofCode_closeUp_iff (c : Callable) :
    Declaration.ofCode (closeUp c.text) = Declaration.ofCode c.text ↔ ¬ c.NeedsGap := by
  cases c with
  | function f =>
    rw [text, f.closeUp_text]
    exact iff_of_true f.ofCode_tight id
  | member m =>
    rw [text, m.closeUp_text]
    exact m.ofCode_tight_iff

/-- Without the blank behind its mark an arrow function is no longer read as asynchronous. -/
theorem not_ofCode_closeUp_async_arrow :
    ∃ c : Callable, c.text = "method: async (h)".toList ∧
      closeUp c.text = "method: async(h)".toList ∧
      Declaration.ofCode (closeUp c.text) ≠ Declaration.ofCode c.text := by
  let f : Arrow :=
    { name := ⟨"method".toList, by decide +kernel⟩
      gap := ⟨[], rfl⟩
      space := ⟨[' '], rfl⟩
      async := some ⟨[' '], rfl⟩
      arguments := ['h'] }
  refine ⟨.member (.arrow f), by decide +kernel, by decide +kernel, fun heq => ?_⟩
  have hasync := congrArg (·.construct.isAsync?) heq
  exact absurd hasync (by decide +kernel)

end Callable

end DocComments.Signature
