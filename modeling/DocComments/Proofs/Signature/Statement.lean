import DocComments.Proofs.Signature.Assignment
import DocComments.Proofs.Signature.Modifier

/-!
# Statements that declare something

A class, a function with its own word and a function assigned to a path are read as they are
written, also behind the words that make them known to other files. What stands behind the head of
a statement is passed over; nothing is said here of a head that something else interrupts.
-/

namespace DocComments.Signature
open Text (trim trimStart trimEnd isBlankText)
open Unicode (isBlank isWordChar)

/-- How a declaration is made known to other files. -/
inductive Export
  | hidden
  | plain (g : Space)
  | byDefault (g h : Space)

namespace Export

/-- The words that make a declaration known, with the blanks behind them. -/
def text : Export → List Char
  | hidden => []
  | plain g => "export".toList ++ g.text
  | byDefault g h => "export".toList ++ (g.text ++ ("default".toList ++ h.text))

/-- Behind the first of these words another may follow. -/
theorem afterExport_append (g : Space) {s : List Char} (hs : trimStart s = s) :
    afterExport ("export".toList ++ (g.text ++ s)) = (spacedWord? "default" s).getD s := by
  rw [afterExport, spacedWord?_append _ g.blank g.ne_nil, hs]

/-- A declaration that starts with another word is found behind the words that make it known. -/
theorem afterExport_text (x : Export) {s : List Char} (hs : trimStart s = s)
    (hexport : spacedWord? "export" s = none) (hdefault : spacedWord? "default" s = none) :
    afterExport (x.text ++ s) = s := by
  cases x with
  | hidden =>
    change afterExport s = s
    rw [afterExport, hexport]
  | plain g =>
    change afterExport ("export".toList ++ g.text ++ s) = s
    rw [List.append_assoc, afterExport_append g hs, hdefault, Option.getD_none]
  | byDefault g h =>
    have hread := spacedWord?_append "default" h.blank h.ne_nil s
    have hstart : trimStart ("default".toList ++ (h.text ++ s)) =
        "default".toList ++ (h.text ++ s) := rfl
    change afterExport ("export".toList ++ (g.text ++ ("default".toList ++ h.text)) ++ s) = s
    rw [List.append_assoc, List.append_assoc, List.append_assoc, afterExport_append g hstart, hread,
      Option.getD_some, hs]

/-- What is made known starts with no blank if nothing stands in front of it, either. -/
theorem exists_eq_cons (x : Export) {s : List Char} (hs : ∃ c t, s = c :: t ∧ isBlank c = false) :
    ∃ c t, x.text ++ s = c :: t ∧ isBlank c = false := by
  cases x with
  | hidden => exact hs
  | plain g => exact ⟨_, _, rfl, rfl⟩
  | byDefault g h => exact ⟨_, _, rfl, rfl⟩

theorem mark_not_mem_text (x : Export) {c : Char} (hblank : isBlank c = false)
    (hpart : isPathPart c = false) : c ∉ x.text := by
  have hexport : c ∉ "export".toList := mark_not_mem_word (by decide) hpart
  have hdefault : c ∉ "default".toList := mark_not_mem_word (by decide) hpart
  cases x with
  | hidden => exact List.not_mem_nil
  | plain g =>
    change c ∉ "export".toList ++ g.text
    rw [List.mem_append, not_or]
    exact ⟨hexport, g.mark_not_mem hblank⟩
  | byDefault g h =>
    change c ∉ "export".toList ++ (g.text ++ ("default".toList ++ h.text))
    simp only [List.mem_append, not_or]
    exact ⟨hexport, g.mark_not_mem hblank, hdefault, h.mark_not_mem hblank⟩

end Export

/-- A class with its name. Behind the name stands nothing, a blank or an opening brace. -/
structure ClassHead where
  exported : Export
  space : Space
  name : Name
  rest : List Char
  ended : ∀ c, rest.head? = some c → isBlank c = true ∨ c = '\x7b'

namespace ClassHead
variable (f : ClassHead)

/-- The class up to its name. -/
def lead : List Char :=
  f.exported.text ++ ("class".toList ++ (f.space.text ++ f.name.text))

/-- The class as it is written. -/
def text : List Char :=
  f.lead ++ f.rest

/-- The class without blanks at the end of its text. -/
def trimmed : ClassHead :=
  { f with rest := trimEnd f.rest, ended := fun c hc => f.ended c (Text.head?_trimEnd hc) }

/-- What the class declares. -/
def declaration : Declaration :=
  { name := String.ofList f.name.text, construct := .classHead }

theorem trim_text : trim f.text = f.trimmed.text := by
  obtain ⟨c, s, hcons, hc⟩ := f.exported.exists_eq_cons
    (s := "class".toList ++ (f.space.text ++ f.name.text)) ⟨_, _, rfl, rfl⟩
  obtain ⟨t, d, hname, hd⟩ := f.name.exists_eq_append
  have hend : c :: s = f.exported.text ++ ("class".toList ++ (f.space.text ++ t)) ++ [d] := by
    rw [← hcons, hname]
    simp only [List.append_assoc]
  have htrim := Text.trim_append hc hd hend f.rest
  rw [← hcons] at htrim
  exact htrim

/-- The blank or the brace ends the name. -/
theorem isIdentifierPart_of_head? {c : Char} (hc : f.rest.head? = some c) :
    isIdentifierPart c = false := by
  rcases f.ended c hc with hblank | rfl
  · exact isIdentifierPart_of_isPathPart (isPathPart_of_isBlank hblank)
  · decide

theorem classDeclaration?_text : classDeclaration? f.text = some f.declaration := by
  have hend : f.rest.head?.all (fun c => isBlank c || c == '\x7b') = true := by
    cases hrest : f.rest.head? with
    | none => rfl
    | some c => simpa using f.ended c hrest
  have htext : f.text =
      f.exported.text ++ ("class".toList ++ (f.space.text ++ (f.name.text ++ f.rest))) := by
    simp only [text, lead, List.append_assoc]
  rw [classDeclaration?, htext, f.exported.afterExport_text rfl rfl rfl,
    spacedWord?_append _ f.space.blank f.space.ne_nil, trimStart_identifier f.name.isIdentifier]
  simp only [identifier?_append f.name.isIdentifier fun c => f.isIdentifierPart_of_head?, hend,
    if_true, declaration]

/-- A class is read first, so it is read whatever stands behind its name. -/
theorem ofCode_text : Declaration.ofCode f.text = f.declaration := by
  rw [Declaration.ofCode, f.trim_text]
  simp only [shapes, List.findSome?_cons, f.trimmed.classDeclaration?_text, Option.getD_some]
  rfl

end ClassHead

/-- The word for a function is read behind the mark of an asynchronous one, which may be missing. -/
theorem functionWord?_append (o : Option Space) {rest : List Char}
    (h : rest.head?.any isWordChar = false) :
    functionWord? (optional "async" o ++ ("function".toList ++ rest)) = some (o.isSome, rest) := by
  refine functionWord?_eq_some_iff.mpr ⟨?_, h⟩
  cases o with
  | none => rfl
  | some g =>
    rw [optional, List.append_assoc, asyncMark_append g.blank g.ne_nil]
    rfl

/-- A function with its own word: the blanks behind the word, the star of a generator and the name,
each with the blanks behind it, and what stands behind the parenthesis that opens the arguments. If
no star and no blanks stand between the word and the name, the name must not go on with the
word. -/
structure FunctionStatement where
  exported : Export
  async : Option Space
  gap : Gap
  star : Option Gap
  name : Option (Name × Gap)
  rest : List Char
  apart : gap.text = [] → star = none → ∀ n g, name = some (n, g) →
    n.text.head?.any isWordChar = false

namespace FunctionStatement
variable (f : FunctionStatement)

/-- The star as it is written. -/
def starText : List Char :=
  match f.star with
  | none => []
  | some g => '*' :: g.text

/-- The name as it is written, with the blanks behind it. -/
def nameText : List Char :=
  match f.name with
  | none => []
  | some (n, g) => n.text ++ g.text

/-- The name without them, or nothing. -/
def declaredName : List Char :=
  match f.name with
  | none => []
  | some (n, _) => n.text

/-- What stands behind the word for a function and its blanks. -/
def behind : List Char :=
  f.starText ++ (f.nameText ++ '(' :: f.rest)

/-- The function from its first word on that does not make it known. -/
def core : List Char :=
  optional "async" f.async ++ ("function".toList ++ (f.gap.text ++ f.behind))

/-- The function as it is written. -/
def text : List Char :=
  f.exported.text ++ f.core

/-- The function without blanks at the end of its text. -/
def trimmed : FunctionStatement :=
  { f with rest := trimEnd f.rest }

/-- What the function declares. -/
def declaration : Declaration :=
  callable f.declaredName .plain f.async.isSome (trim f.text)

/-- The function up to the parenthesis that opens the arguments. -/
def lead : List Char :=
  f.exported.text ++ (optional "async" f.async ++ ("function".toList ++
    (f.gap.text ++ (f.starText ++ f.nameText))))

theorem text_eq : f.text = f.lead ++ '(' :: f.rest := by
  simp only [text, core, behind, lead, List.append_assoc]

/-- The only mark in front of the arguments is the star. -/
theorem mark_not_mem_lead {c : Char} (hblank : isBlank c = false) (hpart : isPathPart c = false)
    (hstar : c ≠ '*') : c ∉ f.lead := by
  have hstarText : c ∉ f.starText := by
    rw [starText]
    split
    · exact List.not_mem_nil
    · rename_i g _
      rw [List.mem_cons, not_or]
      exact ⟨hstar, g.mark_not_mem hblank⟩
  have hnameText : c ∉ f.nameText := by
    rw [nameText]
    split
    · exact List.not_mem_nil
    · rename_i n g _
      rw [List.mem_append, not_or]
      exact ⟨mark_not_mem_word n.isIdentifier hpart, g.mark_not_mem hblank⟩
  simp only [lead, List.mem_append, not_or]
  exact ⟨f.exported.mark_not_mem_text hblank hpart,
    mark_not_mem_optional (by decide) f.async hblank hpart, mark_not_mem_word (by decide) hpart,
    f.gap.mark_not_mem hblank, hstarText, hnameText⟩

theorem trim_text : trim f.text = f.trimmed.text := by
  have hstart : ∃ c t, optional "async" f.async ++ ("function".toList ++
      (f.gap.text ++ (f.starText ++ (f.nameText ++ ['('])))) = c :: t ∧ isBlank c = false := by
    cases f.async with
    | none => exact ⟨_, _, rfl, rfl⟩
    | some g => exact ⟨_, _, rfl, rfl⟩
  obtain ⟨c, s, hcons, hc⟩ := f.exported.exists_eq_cons hstart
  have hlead : c :: s = f.lead ++ ['('] := by
    rw [← hcons]
    simp only [lead, List.append_assoc]
  have htrim := Text.trim_append hc (d := '(') (by decide) hlead f.rest
  rw [hlead, List.append_assoc, List.append_assoc] at htrim
  rw [f.text_eq, f.trimmed.text_eq]
  exact htrim

theorem head?_behind : (f.gap.text ++ f.behind).head?.any isWordChar = false := by
  cases hgap : f.gap.text with
  | cons b g =>
    have hb := List.all_eq_true.mp f.gap.blank b (by simp [hgap])
    exact Unicode.isWordChar_of_isBlank hb
  | nil =>
    rw [List.nil_append, behind, starText]
    cases hstar : f.star with
    | some g => exact (by decide : isWordChar '*' = false)
    | none =>
      rw [nameText]
      cases hname : f.name with
      | none => exact (by decide : isWordChar '(' = false)
      | some n =>
        have hapart := f.apart hgap hstar n.1 n.2 hname
        have hidentifier := n.1.isIdentifier
        simp only [List.nil_append]
        cases htext : n.1.text with
        | nil =>
          rw [htext] at hidentifier
          exact hidentifier.elim
        | cons c t =>
          rw [htext] at hapart
          exact hapart

theorem functionWord?_core :
    functionWord? f.core = some (f.async.isSome, f.gap.text ++ f.behind) :=
  functionWord?_append f.async f.head?_behind

/-- The name is read behind blanks and behind the star, if there is one. -/
theorem identifier?_behind :
    identifier? (trimStart (dropStar (trimStart (f.gap.text ++ f.behind)))) =
      f.name.map fun (n, g) => (n.text, g.text ++ '(' :: f.rest) := by
  have hparen : isPathPart '(' = false := by decide
  have hread : trimStart (dropStar (trimStart f.behind)) = f.nameText ++ '(' :: f.rest := by
    have hstart : trimStart (f.nameText ++ '(' :: f.rest) = f.nameText ++ '(' :: f.rest ∧
        dropStar (f.nameText ++ '(' :: f.rest) = f.nameText ++ '(' :: f.rest := by
      rw [nameText]
      cases f.name with
      | none => exact ⟨rfl, rfl⟩
      | some n =>
        simp only [List.append_assoc]
        exact ⟨trimStart_identifier n.1.isIdentifier _, dropStar_identifier n.1.isIdentifier _⟩
    rw [behind, starText]
    cases f.star with
    | none => rw [List.nil_append, hstart.1, hstart.2, hstart.1]
    | some g =>
      change trimStart (g.text ++ (f.nameText ++ '(' :: f.rest)) = _
      rw [Text.trimStart_append_of_blank g.blank, hstart.1]
  rw [Text.trimStart_append_of_blank f.gap.blank, hread, nameText]
  cases f.name with
  | none => exact identifier?_cons_eq_none (isIdentifierStart_of_isPathPart hparen) f.rest
  | some n =>
    simp only [List.append_assoc, Option.map_some,
      identifier?_word n.1.isIdentifier n.2.blank (t := f.rest) fun _ => hparen]

theorem afterExport_text : afterExport f.text = f.core := by
  rw [text]
  cases hasync : f.async <;>
    exact f.exported.afterExport_text (s := f.core) (by rw [core, hasync]; rfl)
      (by rw [core, hasync]; rfl) (by rw [core, hasync]; rfl)

theorem classDeclaration?_text : classDeclaration? f.text = none := by
  have hclass : spacedWord? "class" f.core = none := by
    rw [core]
    cases f.async <;> rfl
  rw [classDeclaration?, f.afterExport_text, hclass]

theorem functionDeclaration?_text :
    functionDeclaration? f.text = some (callable f.declaredName .plain f.async.isSome f.text) := by
  rw [functionDeclaration?, f.afterExport_text, f.functionWord?_core]
  simp only [f.identifier?_behind, declaredName]
  cases f.name <;> rfl

/-- A function with its own word is read next, whatever its arguments are. -/
theorem ofCode_text : Declaration.ofCode f.text = f.declaration := by
  rw [Declaration.ofCode, declaration, f.trim_text]
  simp only [shapes, List.findSome?_cons, f.trimmed.classDeclaration?_text,
    f.trimmed.functionDeclaration?_text, Option.getD_some]
  rfl

end FunctionStatement

/-- The search for a path passes over a word in front of one. -/
theorem assignment?_word (word : String) (hword : '=' ∉ word.toList) (g : Space) {s : List Char}
    (hs : mark? '=' s = none) : assignment? (word.toList ++ (g.text ++ s)) = assignment? s := by
  obtain ⟨t, b, heq⟩ := (List.eq_nil_or_concat g.text).resolve_left g.ne_nil
  rw [List.concat_eq_append] at heq
  have hblank : ∀ c ∈ g.text, isBlank c = true := List.all_eq_true.mp g.blank
  have hb : isBlank b = true := hblank b (by simp [heq])
  have ht : '=' ∉ t := fun h => absurd (hblank '=' (by simp [heq, h])) (by decide)
  have hne : b ≠ '=' := by
    rintro rfl
    exact absurd hb (by decide)
  have hread := assignment?_append (l := word.toList ++ t) (b := b) (s := s) (by simp [hword, ht])
    (isPathPart_of_isBlank hb) hne fun _ => hs
  rw [← hread, heq]
  simp only [List.append_assoc, List.singleton_append]

/-- A word that introduces a name. -/
structure Keyword where
  word : String
  mem : word ∈ ["const", "let", "var"]

/-- A function assigned to a path: the words in front of the path, the path, the blanks around the
equals sign, the mark of an asynchronous function and what stands behind the word for a function. -/
structure AssignedFunction where
  exported : Option Space
  keyword : Option (Keyword × Space)
  path : List Char
  isPath : IsPath path
  noFunction : ¬ StartsFunctionWord path
  gap : Gap
  space : Gap
  async : Option Space
  rest : List Char
  ended : rest.head?.any isWordChar = false

namespace AssignedFunction
variable (f : AssignedFunction)

/-- The function behind the equals sign. -/
def value : List Char :=
  optional "async" f.async ++ ("function".toList ++ f.rest)

/-- The assignment without words in front of it. -/
def assignment : List Char :=
  f.path ++ (f.gap.text ++ '=' :: (f.space.text ++ f.value))

/-- The word that introduces the name, if there is one, with the blanks behind it. -/
def keywordText : List Char :=
  match f.keyword with
  | none => []
  | some (k, g) => k.word.toList ++ g.text

/-- The function as it is written. -/
def text : List Char :=
  optional "export" f.exported ++ (f.keywordText ++ f.assignment)

/-- The function without blanks at the end of its text. -/
def trimmed : AssignedFunction :=
  { f with
    rest := trimEnd f.rest
    ended := by
      cases hhead : (trimEnd f.rest).head? with
      | none => rfl
      | some c =>
        have hended := f.ended
        rw [Text.head?_trimEnd hhead] at hended
        exact hended }

/-- What the function declares. -/
def declaration : Declaration :=
  callable f.path .assigned f.async.isSome (trim f.text)

theorem exists_assignment_eq : ∃ c t, f.assignment = c :: t ∧ isIdentifierStart c = true :=
  f.isPath.exists_eq_cons _

theorem trimStart_assignment : trimStart f.assignment = f.assignment := by
  obtain ⟨c, t, heq, hc⟩ := f.exists_assignment_eq
  rw [heq]
  exact Text.trimStart_cons_of_not_blank (not_isBlank_of_isIdentifierStart hc) t

/-- The word that introduces a name announces neither a class nor a function. -/
theorem keyword_facts : ∀ k ∈ ["const", "let", "var"], IsIdentifier k.toList ∧ k ≠ "export" ∧
    k ≠ "default" ∧ k ≠ "class" ∧ k ≠ "async" ∧
      "function".toList.isPrefixOf k.toList = false ∧ '=' ∉ k.toList := by
  decide

theorem exists_text_eq : ∃ c t, f.text = c :: t ∧ isBlank c = false := by
  have hcons : ∃ c t, f.keywordText ++ f.assignment = c :: t ∧ isIdentifierStart c = true := by
    rw [keywordText]
    cases f.keyword with
    | none => exact f.exists_assignment_eq
    | some k =>
      rw [List.append_assoc]
      exact (keyword_facts k.1.word k.1.mem).1.isPath.exists_eq_cons _
  obtain ⟨c, t, heq, hc⟩ := hcons
  rw [text, heq]
  cases f.exported with
  | none => exact ⟨c, t, rfl, not_isBlank_of_isIdentifierStart hc⟩
  | some g => exact ⟨_, _, rfl, rfl⟩

theorem trim_text : trim f.text = f.trimmed.text := by
  let l : List Char := optional "export" f.exported ++ (f.keywordText ++ (f.path ++ (f.gap.text ++
    '=' :: (f.space.text ++ (optional "async" f.async ++ "functio".toList)))))
  have htext : f.text = l ++ ['n'] ++ f.rest ∧ f.trimmed.text = l ++ ['n'] ++ trimEnd f.rest := by
    constructor <;> simp [l, text, keywordText, assignment, value, trimmed]
  obtain ⟨c, s, hcons, hc⟩ := f.exists_text_eq
  have hne : l ++ ['n'] ≠ [] := by simp
  obtain ⟨d, t, hl⟩ := List.exists_cons_of_ne_nil hne
  have hd : d = c := by
    rw [htext.1, hl] at hcons
    exact (List.cons.inj hcons).1
  have htrim := Text.trim_append (hd ▸ hc) (d := 'n') (by decide) hl.symm f.rest
  rw [← hl] at htrim
  rw [htext.1, htext.2, htrim]

theorem unannounced : Unannounced (afterExport f.text) := by
  have hequals : isPathPart '=' = false := by decide
  have hpath := f.isPath.isPathPart
  have hassignment : Unannounced f.assignment :=
    unannounced_mark hpath f.gap.blank (by decide) hequals f.noFunction
  rw [text, keywordText]
  rcases hkeyword : f.keyword with _ | ⟨⟨word, hword⟩, g⟩
  · rw [List.nil_append]
    cases f.exported with
    | none =>
      exact unannounced_afterExport_mark hpath f.gap.blank (by decide) hequals f.noFunction
    | some g =>
      rw [optional, List.append_assoc, Export.afterExport_append g f.trimStart_assignment,
        assignment, spacedWord?_word hpath f.gap.blank (by decide) (fun _ => hequals)
          (by decide)]
      split
      · rw [Option.getD_some]
        exact unannounced_mark (w := []) (g := []) (by simp) rfl (by decide) hequals
          not_startsFunctionWord_nil
      · exact hassignment
  · obtain ⟨hidentifier, hexport, hdefault, hclass, hasync, hprefix, -⟩ := keyword_facts word hword
    have hparts := isPathPart_of_word hidentifier
    obtain ⟨c, t, hcons, hc⟩ := f.exists_assignment_eq
    have hblank := not_isBlank_of_isIdentifierStart hc
    have hspace : g.text = [] → isPathPart c = false := fun h => absurd h g.ne_nil
    have hnot := not_startsFunctionWord_of_isPrefixOf hprefix
    have hcore : Unannounced (word.toList ++ (g.text ++ c :: t)) :=
      unannounced_word hparts g.blank hblank hspace (fun h => hclass (String.toList_injective h))
        hnot fun h => absurd (String.toList_injective h) hasync
    rw [hcons, List.append_assoc]
    cases f.exported with
    | none =>
      rw [optional, List.nil_append, afterExport_word hparts g.blank hblank hspace fun h =>
        hexport (String.toList_injective h)]
      exact hcore
    | some h =>
      have hstart := trimStart_identifier hidentifier (g.text ++ c :: t)
      have hread : spacedWord? "default" (word.toList ++ (g.text ++ c :: t)) = none := by
        rw [spacedWord?_word hparts g.blank hblank hspace (by decide),
          if_neg fun h => hdefault (String.toList_injective h.1)]
      rw [optional, List.append_assoc, Export.afterExport_append h hstart, hread, Option.getD_none]
      exact hcore

theorem functionWord?_value : functionWord? f.value = some (f.async.isSome, f.rest) :=
  functionWord?_append f.async f.ended

/-- The path behind the words in front of it is the first to which a function is assigned. -/
theorem assignment?_text : assignment? f.text = some (f.path, f.async.isSome) := by
  have hvalue : trimStart f.value = f.value :=
    trimStart_of_startsFunction (functionWord?_isSome_iff.mp (by rw [f.functionWord?_value]; rfl))
  have hhere : assignmentHere? f.assignment = some (f.path, f.async.isSome) := by
    rw [assignment, assignmentHere?_append f.isPath f.gap.blank f.space.blank, hvalue,
      f.functionWord?_value, Option.map_some]
  have hassignment : assignment? f.assignment = some (f.path, f.async.isSome) := by
    obtain ⟨c, t, heq, -⟩ := f.exists_assignment_eq
    rw [heq] at hhere ⊢
    rw [assignment?, hhere]
  -- neither the path nor the word in front of it is an equals sign
  have hmark : ∀ {s : List Char}, (∃ c t, s = c :: t ∧ isIdentifierStart c = true) →
      mark? '=' s = none := by
    rintro s ⟨c, t, rfl, hc⟩
    refine mark?_eq_none (g := []) rfl (not_isBlank_of_isIdentifierStart hc) ?_ t
    rintro rfl
    exact absurd hc (by decide)
  have hkeyword : assignment? (f.keywordText ++ f.assignment) = assignment? f.assignment ∧
      mark? '=' (f.keywordText ++ f.assignment) = none := by
    rw [keywordText]
    rcases f.keyword with _ | ⟨⟨word, hword⟩, g⟩
    · exact ⟨rfl, hmark f.exists_assignment_eq⟩
    · obtain ⟨hidentifier, -, -, -, -, -, hequals⟩ := keyword_facts word hword
      rw [List.append_assoc]
      exact ⟨assignment?_word word hequals g (hmark f.exists_assignment_eq),
        hmark (hidentifier.isPath.exists_eq_cons _)⟩
  rw [text]
  cases f.exported with
  | none => rw [optional, List.nil_append, hkeyword.1, hassignment]
  | some g =>
    rw [optional, List.append_assoc, assignment?_word "export" (by decide) g hkeyword.2, hkeyword.1,
      hassignment]

/-- A function assigned to a path is read where no class and no function is announced. -/
theorem ofCode_text : Declaration.ofCode f.text = f.declaration := by
  have hassigned : assignedDeclaration? f.trimmed.text =
      some (callable f.path .assigned f.async.isSome f.trimmed.text) := by
    rw [assignedDeclaration?, f.trimmed.assignment?_text]
    rfl
  rw [ofCode_eq, declaration, f.trim_text, f.trimmed.unannounced.statementDeclaration?, hassigned]
  rfl

end AssignedFunction

end DocComments.Signature
