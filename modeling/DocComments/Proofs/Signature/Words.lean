import DocComments.Block
import DocComments.Proofs.Text.Trimming
import DocComments.Proofs.Unicode.Disjoint
import DocComments.Signature.Shape

/-!
# Words and the blanks between them

How the readers of code take a keyword, a name or a mark from the front of a text that starts with
a word, perhaps blanks, and a character that does not go on with the word. Everything said of the
shapes of declarations is put together from these readings.
-/

namespace DocComments.Signature
open Text (trim trimStart isBlankText)
open Unicode (isBlank isWordChar)

theorem not_isBlank_of_isIdentifierStart {c : Char} (h : isIdentifierStart c = true) :
    isBlank c = false := by
  cases hb : isBlank c with
  | false => rfl
  | true =>
    rw [isIdentifierStart, Unicode.isWordLetter_of_isBlank hb] at h
    simp only [Bool.or_false, Bool.or_eq_true, beq_iff_eq] at h
    rcases h with rfl | rfl <;> cases hb

/-- A character that starts an identifier can also go on with one. -/
theorem isIdentifierPart_of_isIdentifierStart {c : Char} (h : isIdentifierStart c = true) :
    isIdentifierPart c = true := by
  simp only [isIdentifierStart, Bool.or_eq_true, beq_iff_eq] at h
  rcases h with (rfl | rfl) | h
  · decide
  · decide
  · simp [isIdentifierPart, Unicode.isWordChar_of_isWordLetter h]

theorem IsIdentifier.isIdentifierPart {name : List Char} (h : IsIdentifier name) :
    ∀ c ∈ name, isIdentifierPart c = true := by
  cases name with
  | nil => exact h.elim
  | cons d s =>
    intro c hc
    rcases List.mem_cons.mp hc with rfl | hc
    · exact isIdentifierPart_of_isIdentifierStart h.1
    · exact h.2 c hc

theorem not_parenthesis_of_isIdentifierPart {c : Char} (h : isIdentifierPart c = true) :
    c ≠ '(' ∧ Block.isTerminator c = false := by
  constructor
  · rintro rfl
    exact absurd h (by decide)
  · cases ht : Block.isTerminator c with
    | false => rfl
    | true =>
      simp only [Block.isTerminator, Bool.or_eq_true, beq_iff_eq] at ht
      rcases ht with (rfl | rfl) | rfl <;> exact absurd h (by decide)

/-- An identifier in front of a text is read up to the first character that cannot go on with
it. -/
theorem identifier?_append {name : List Char} (h : IsIdentifier name) {s : List Char}
    (hs : ∀ c, s.head? = some c → isIdentifierPart c = false) :
    identifier? (name ++ s) = some (name, s) := by
  cases name with
  | nil => exact h.elim
  | cons d t =>
    obtain ⟨htake, hdrop⟩ := Text.span_append h.2 hs
    rw [List.cons_append, identifier?, if_pos h.1, htake, hdrop]

theorem identifier?_cons_eq_none {c : Char} (h : isIdentifierStart c = false) (s : List Char) :
    identifier? (c :: s) = none := by
  rw [identifier?, if_neg (by simp [h])]

/-- A text starts with an identifier if its first character can start one. -/
theorem head?_of_identifier? {s name rest : List Char} (h : identifier? s = some (name, rest)) :
    name.head? = s.head? := by
  obtain ⟨hname, rfl⟩ := isIdentifier_of_identifier? h
  cases name with
  | nil => exact hname.elim
  | cons c t => rfl

theorem trimStart_identifier {name : List Char} (h : IsIdentifier name) (s : List Char) :
    trimStart (name ++ s) = name ++ s := by
  cases name with
  | nil => exact h.elim
  | cons c t => exact Text.trimStart_cons_of_not_blank (not_isBlank_of_isIdentifierStart h.1) _

theorem dropStar_cons {c : Char} (hc : c ≠ '*') (s : List Char) : dropStar (c :: s) = c :: s := by
  unfold dropStar
  split
  · rename_i heq
    exact absurd (List.cons.inj heq).1 hc
  · rfl

theorem dropStar_identifier {name : List Char} (h : IsIdentifier name) (s : List Char) :
    dropStar (name ++ s) = name ++ s := by
  cases name with
  | nil => exact h.elim
  | cons c t =>
    refine dropStar_cons ?_ (t ++ s)
    rintro rfl
    exact absurd h.1 (by decide)

theorem isPathPart_of_isIdentifierPart {c : Char} (h : isIdentifierPart c = true) :
    isPathPart c = true := by
  rw [isPathPart, h, Bool.or_true]

theorem isPathPart_of_isBlank {c : Char} (h : isBlank c = true) : isPathPart c = false := by
  cases hp : isPathPart c with
  | false => rfl
  | true =>
    simp only [isPathPart, isIdentifierPart, Unicode.isWordChar_of_isBlank h, Bool.or_false,
      Bool.or_eq_true, beq_iff_eq] at hp
    rcases hp with rfl | rfl <;> cases h

theorem not_isBlank_of_isPathPart {c : Char} (h : isPathPart c = true) : isBlank c = false := by
  cases hb : isBlank c with
  | false => rfl
  | true =>
    rw [isPathPart_of_isBlank hb] at h
    cases h

/-- A character that cannot go on with a path cannot go on with an identifier. -/
theorem isIdentifierPart_of_isPathPart {c : Char} (h : isPathPart c = false) :
    isIdentifierPart c = false := by
  cases hp : isIdentifierPart c with
  | false => rfl
  | true =>
    rw [isPathPart_of_isIdentifierPart hp] at h
    cases h

/-- Nor does it start one. -/
theorem isIdentifierStart_of_isPathPart {c : Char} (h : isPathPart c = false) :
    isIdentifierStart c = false := by
  cases hs : isIdentifierStart c with
  | false => rfl
  | true =>
    rw [isPathPart_of_isIdentifierPart (isIdentifierPart_of_isIdentifierStart hs)] at h
    cases h

/-- Whether a text is a path: an identifier that points may stand in. -/
def IsPath : List Char → Prop
  | [] => False
  | c :: s => isIdentifierStart c = true ∧ ∀ d ∈ s, isPathPart d = true

theorem IsPath.isPathPart {path : List Char} (h : IsPath path) :
    ∀ c ∈ path, isPathPart c = true := by
  cases path with
  | nil => exact h.elim
  | cons d s =>
    intro c hc
    rcases List.mem_cons.mp hc with rfl | hc
    · exact isPathPart_of_isIdentifierPart (isIdentifierPart_of_isIdentifierStart h.1)
    · exact h.2 c hc

/-- A text that starts with a path starts with a character that can start an identifier. -/
theorem IsPath.exists_eq_cons {path : List Char} (h : IsPath path) (s : List Char) :
    ∃ c t, path ++ s = c :: t ∧ isIdentifierStart c = true := by
  cases path with
  | nil => exact h.elim
  | cons c p => exact ⟨c, p ++ s, rfl, h.1⟩

theorem IsIdentifier.isPath {name : List Char} (h : IsIdentifier name) : IsPath name := by
  cases name with
  | nil => exact h.elim
  | cons c s => exact ⟨h.1, fun d hd => isPathPart_of_isIdentifierPart (h.2 d hd)⟩

instance : DecidablePred IsIdentifier
  | [] => isFalse id
  | c :: s => decidable_of_iff (isIdentifierStart c && s.all isIdentifierPart) (by simp [IsIdentifier])

instance : DecidablePred IsPath
  | [] => isFalse id
  | c :: s => decidable_of_iff (isIdentifierStart c && s.all isPathPart) (by simp [IsPath])

/-- The word for a function in front of a text, as a whole word. -/
def StartsFunctionWord (s : List Char) : Prop :=
  ∃ rest, s = "function".toList ++ rest ∧ rest.head?.any isWordChar = false

theorem not_startsFunctionWord_nil : ¬ StartsFunctionWord [] := by
  rintro ⟨rest, heq, -⟩
  cases heq

theorem not_startsFunctionWord_of_isPrefixOf {s : List Char}
    (h : "function".toList.isPrefixOf s = false) : ¬ StartsFunctionWord s := by
  rintro ⟨rest, rfl, -⟩
  rw [List.isPrefixOf_iff_prefix.mpr ⟨rest, rfl⟩] at h
  cases h

/-- A function in front of a text, perhaps marked as asynchronous. -/
def StartsFunction (s : List Char) : Prop :=
  StartsFunctionWord s ∨ ∃ g t, isBlankText g = true ∧ g ≠ [] ∧ s = "async".toList ++ (g ++ t) ∧
    StartsFunctionWord t

section
variable {w g t : List Char} {c : Char}

/-- A word with blanks behind it is read with these blanks. -/
theorem spacedWord?_append (word : String) (hg : isBlankText g = true) (hne : g ≠ [])
    (t : List Char) : spacedWord? word (word.toList ++ (g ++ t)) = some (trimStart t) := by
  obtain ⟨b, g', rfl⟩ := List.exists_cons_of_ne_nil hne
  have hb : isBlank b = true := List.all_eq_true.mp hg b List.mem_cons_self
  have htrim := Text.trimStart_append_of_blank hg t
  rw [List.cons_append] at htrim ⊢
  rw [spacedWord?, word?, Text.isPrefixOf?_eq_some_iff.mpr rfl]
  simp only [List.head?_cons, Option.any_some, hb, if_true, htrim]

theorem exists_of_spacedWord? {word : String} {s t : List Char}
    (h : spacedWord? word s = some t) :
    ∃ r, s = word.toList ++ r ∧ r.head?.any isBlank = true ∧ t = trimStart r := by
  rw [spacedWord?] at h
  split at h
  · rename_i r hr
    split at h
    · rename_i hblank
      exact ⟨r, Text.eq_append_of_isPrefixOf? hr, hblank, (Option.some.inj h).symm⟩
    · cases h
  · cases h

/-- What stands behind a word and some blanks does not go on with the word. -/
theorem head?_append_mark (hg : isBlankText g = true) (hc : g = [] → isPathPart c = false) :
    ∀ d, (g ++ c :: t).head? = some d → isPathPart d = false := by
  intro d hd
  cases g with
  | nil => exact Option.some.inj hd ▸ hc rfl
  | cons b g =>
    rw [List.cons_append, List.head?_cons] at hd
    exact Option.some.inj hd ▸ isPathPart_of_isBlank (List.all_eq_true.mp hg b List.mem_cons_self)

/-- An identifier is read up to the blanks or the mark behind it. -/
theorem identifier?_word (hw : IsIdentifier w) (hg : isBlankText g = true)
    (hc : g = [] → isPathPart c = false) :
    identifier? (w ++ (g ++ c :: t)) = some (w, g ++ c :: t) :=
  identifier?_append hw fun d hd => isIdentifierPart_of_isPathPart (head?_append_mark hg hc d hd)

/-- A keyword in front of a text that starts with a word is in front of that word. -/
theorem exists_of_append_eq {k r s : List Char} (hk : IsIdentifier k)
    (hs : ∀ d, s.head? = some d → isPathPart d = false) (h : w ++ s = k ++ r) :
    ∃ m, w = k ++ m ∧ r = m ++ s := by
  rcases List.append_eq_append_iff.mp h with ⟨m, hkw, hs'⟩ | ⟨m, hw, hr⟩
  · cases m with
    | nil => exact ⟨[], by simpa using hkw.symm, by simpa using hs'.symm⟩
    | cons d m =>
      have hd := hk.isPath.isPathPart d (by simp [hkw])
      rw [hs d (by simp [hs'])] at hd
      cases hd
  · exact ⟨m, hw, hr⟩

variable (hw : ∀ d ∈ w, isPathPart d = true) (hg : isBlankText g = true)
  (hc : isBlank c = false) (hgc : g = [] → isPathPart c = false)
include hw hg hc hgc

/-- A keyword is read with the blanks behind it exactly if it is the first word of the text. -/
theorem spacedWord?_word {word : String} (hk : IsIdentifier word.toList) :
    spacedWord? word (w ++ (g ++ c :: t)) =
      if w = word.toList ∧ g ≠ [] then some (c :: t) else none := by
  split
  · rename_i h
    obtain ⟨rfl, hne⟩ := h
    rw [spacedWord?_append word hg hne, Text.trimStart_cons_of_not_blank hc]
  · rename_i hnot
    cases hread : spacedWord? word (w ++ (g ++ c :: t)) with
    | none => rfl
    | some u =>
      obtain ⟨r, heq, hblank, -⟩ := exists_of_spacedWord? hread
      obtain ⟨m, rfl, rfl⟩ := exists_of_append_eq hk (head?_append_mark hg hgc) heq
      cases m with
      | nil =>
        refine absurd ⟨List.append_nil _, ?_⟩ hnot
        rintro rfl
        rw [List.nil_append, List.nil_append, List.head?_cons, Option.any_some, hc] at hblank
        cases hblank
      | cons d m =>
        rw [List.cons_append, List.head?_cons, Option.any_some,
          not_isBlank_of_isPathPart (hw d (by simp))] at hblank
        cases hblank

omit hc in
/-- The word for a function is in front of a text only if it is in front of its first word. -/
theorem StartsFunctionWord.of_word (h : StartsFunctionWord (w ++ (g ++ c :: t))) :
    StartsFunctionWord w := by
  obtain ⟨r, heq, hr⟩ := h
  obtain ⟨m, rfl, rfl⟩ := exists_of_append_eq (by decide) (head?_append_mark hg hgc) heq
  refine ⟨m, rfl, ?_⟩
  cases m with
  | nil => rfl
  | cons d m => exact hr

end

theorem functionWord?_eq_some_iff {s rest : List Char} {isAsync : Bool} :
    functionWord? s = some (isAsync, rest) ↔
      asyncMark s = (isAsync, "function".toList ++ rest) ∧ rest.head?.any isWordChar = false := by
  have hword : ∀ t, word? "function" t = some rest ↔ t = "function".toList ++ rest :=
    fun t => Text.isPrefixOf?_eq_some_iff
  generalize hmark : asyncMark s = m
  obtain ⟨mark, t⟩ := m
  rw [functionWord?, hmark]
  simp only [Prod.mk.injEq, ← hword]
  constructor
  · intro h
    split at h
    · rename_i r hr
      split at h
      · cases h
      · rename_i hnext
        cases h
        exact ⟨⟨rfl, hr⟩, by simpa using hnext⟩
    · cases h
  · rintro ⟨⟨rfl, hr⟩, hnext⟩
    simp only [hr, hnext, Bool.false_eq_true, if_false]

theorem asyncMark_append {g t : List Char} (hg : isBlankText g = true) (hne : g ≠ []) :
    asyncMark ("async".toList ++ (g ++ t)) = (true, trimStart t) := by
  rw [asyncMark, spacedWord?_append "async" hg hne]

/-- The reader of the word for a function finds it where it is. -/
theorem functionWord?_isSome_iff {s : List Char} :
    (functionWord? s).isSome = true ↔ StartsFunction s := by
  rw [Option.isSome_iff_exists]
  constructor
  · rintro ⟨⟨isAsync, rest⟩, h⟩
    obtain ⟨hmark, hrest⟩ := functionWord?_eq_some_iff.mp h
    rw [asyncMark] at hmark
    split at hmark
    · rename_i t ht
      obtain ⟨r, rfl, hblank, rfl⟩ := exists_of_spacedWord? ht
      refine Or.inr ⟨r.takeWhile isBlank, trimStart r, List.all_takeWhile, ?_, ?_, rest, ?_, hrest⟩
      · cases r with
        | nil => cases hblank
        | cons b r =>
          rw [List.head?_cons, Option.any_some] at hblank
          simp [hblank]
      · rw [trimStart, List.takeWhile_append_dropWhile]
      · exact congrArg Prod.snd hmark
    · exact Or.inl ⟨rest, congrArg Prod.snd hmark, hrest⟩
  · rintro (⟨rest, rfl, hrest⟩ | ⟨g, t, hg, hne, rfl, rest, rfl, hrest⟩)
    · exact ⟨(false, rest), functionWord?_eq_some_iff.mpr ⟨rfl, hrest⟩⟩
    · refine ⟨(true, rest), functionWord?_eq_some_iff.mpr ⟨?_, hrest⟩⟩
      rw [asyncMark_append hg hne]
      rfl

/-- The first shape of a statement that fits. -/
def statementDeclaration? (s : List Char) : Option Declaration :=
  [classDeclaration?, functionDeclaration?, assignedDeclaration?].findSome? (· s)

/-- The first shape of a member that fits. -/
def memberDeclaration? (s : List Char) : Option Declaration :=
  [initializerDeclaration?, arrowDeclaration?, methodDeclaration?,
    propertyDeclaration?].findSome? (· s)

/-- The shapes of statements are tried before those of members. -/
theorem ofCode_eq (s : List Char) :
    Declaration.ofCode s =
      ((statementDeclaration? (trim s)).or (memberDeclaration? (trim s))).getD {} := by
  rw [statementDeclaration?, memberDeclaration?, ← List.findSome?_append]
  rfl

/-- Neither a class nor a function is announced by a word in front of the text. -/
structure Unannounced (s : List Char) : Prop where
  noClass : ∀ r, spacedWord? "class" s = some r → identifier? r = none
  noFunction : ¬ StartsFunction s

theorem Unannounced.classDeclaration? {s : List Char} (h : Unannounced (afterExport s)) :
    classDeclaration? s = none := by
  rw [Signature.classDeclaration?]
  split
  · rfl
  · rename_i r hr
    rw [h.noClass r hr]

theorem Unannounced.functionDeclaration? {s : List Char} (h : Unannounced (afterExport s)) :
    functionDeclaration? s = none := by
  have hnone : functionWord? (afterExport s) = none := by
    rw [← Option.not_isSome_iff_eq_none, functionWord?_isSome_iff]
    exact h.noFunction
  rw [Signature.functionDeclaration?, hnone]

/-- Where nothing is announced a statement can only assign a function. -/
theorem Unannounced.statementDeclaration? {s : List Char} (h : Unannounced (afterExport s)) :
    statementDeclaration? s = assignedDeclaration? s := by
  simp only [Signature.statementDeclaration?, List.findSome?_cons, h.classDeclaration?,
    h.functionDeclaration?, List.findSome?_nil]
  cases assignedDeclaration? s <;> rfl

section
variable {w g t : List Char} {c : Char} (hw : ∀ d ∈ w, isPathPart d = true)
  (hg : isBlankText g = true) (hc : isBlank c = false) (hgc : g = [] → isPathPart c = false)
include hw hg hc hgc

/-- A function in front of a text is behind a first word that marks it as asynchronous, or the
first word is the one for a function. -/
theorem StartsFunction.of_word (h : StartsFunction (w ++ (g ++ c :: t))) :
    StartsFunctionWord w ∨ w = "async".toList ∧ StartsFunctionWord (c :: t) := by
  rcases h with h | ⟨g', t', hg', hne, heq, rest, rfl, hrest⟩
  · exact Or.inl (h.of_word hw hg hgc)
  · have hread : spacedWord? "async" (w ++ (g ++ c :: t)) = some ("function".toList ++ rest) := by
      rw [heq, spacedWord?_append "async" hg' hne]
      rfl
    rw [spacedWord?_word hw hg hc hgc (by decide)] at hread
    split at hread
    · rename_i hasync
      exact Or.inr ⟨hasync.1, rest, Option.some.inj hread, hrest⟩
    · cases hread

/-- A first word that is none of those that announce something announces nothing. -/
theorem unannounced_word (hclass : w ≠ "class".toList) (hfunction : ¬ StartsFunctionWord w)
    (hasync : w = "async".toList → ¬ StartsFunctionWord (c :: t)) :
    Unannounced (w ++ (g ++ c :: t)) := by
  constructor
  · intro r hr
    rw [spacedWord?_word hw hg hc hgc (by decide), if_neg fun h => hclass h.1] at hr
    cases hr
  · intro h
    rcases h.of_word hw hg hc hgc with hword | ⟨hmark, hword⟩
    · exact hfunction hword
    · exact hasync hmark hword

theorem afterExport_word (hexport : w ≠ "export".toList) :
    afterExport (w ++ (g ++ c :: t)) = w ++ (g ++ c :: t) := by
  rw [afterExport, spacedWord?_word hw hg hc hgc (by decide), if_neg fun h => hexport h.1]

end

section
variable {w g t : List Char} {c : Char} (hw : ∀ d ∈ w, isPathPart d = true)
  (hg : isBlankText g = true) (hc : isBlank c = false) (hpart : isPathPart c = false)
include hpart

theorem not_startsFunctionWord_mark : ¬ StartsFunctionWord (c :: t) := by
  rintro ⟨rest, heq, -⟩
  rw [(List.cons.inj heq).1] at hpart
  exact absurd hpart (by decide)

include hc in
/-- No keyword is in front of a mark. -/
theorem spacedWord?_mark {word : String} (hk : IsIdentifier word.toList) :
    spacedWord? word (c :: t) = none := by
  have hne : word.toList ≠ [] := by
    intro hnil
    rw [hnil] at hk
    exact hk
  have hread := spacedWord?_word (w := []) (g := []) (t := t) (by simp) rfl hc (fun _ => hpart) hk
  rwa [if_neg fun h => hne h.1.symm] at hread

include hw hg hc

/-- Whatever the first word is, it announces nothing if a mark and not a name is behind it. -/
theorem unannounced_mark (hfunction : ¬ StartsFunctionWord w) :
    Unannounced (w ++ (g ++ c :: t)) := by
  constructor
  · intro r hr
    rw [spacedWord?_word hw hg hc (fun _ => hpart) (by decide)] at hr
    split at hr
    · exact Option.some.inj hr ▸ identifier?_cons_eq_none (isIdentifierStart_of_isPathPart hpart) t
    · cases hr
  · intro h
    rcases h.of_word hw hg hc fun _ => hpart with hword | ⟨-, hword⟩
    · exact hfunction hword
    · exact not_startsFunctionWord_mark hpart hword

/-- This is so, too, where the first word makes known what is behind it. -/
theorem unannounced_afterExport_mark (hfunction : ¬ StartsFunctionWord w) :
    Unannounced (afterExport (w ++ (g ++ c :: t))) := by
  rw [afterExport, spacedWord?_word hw hg hc (fun _ => hpart) (by decide)]
  split
  · rename_i r hr
    split at hr
    · have hdefault : spacedWord? "default" (c :: t) = none :=
        spacedWord?_mark hc hpart (by decide)
      rw [← Option.some.inj hr, hdefault, Option.getD_none]
      exact unannounced_mark (w := []) (g := []) (by simp) rfl hc hpart not_startsFunctionWord_nil
    · cases hr
  · exact unannounced_mark hw hg hc hpart hfunction

end

end DocComments.Signature
