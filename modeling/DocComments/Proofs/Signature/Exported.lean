import DocComments.Proofs.Signature.Declared
import DocComments.Proofs.Signature.Member
import DocComments.Proofs.Signature.Statement

/-!
# Declarations that are made known to other files

The word that makes a declaration known does not change what it is read as where the code behind it
is a class, a function with its own word or a function assigned to a path. Where it is none of
these, a parenthesis that is closed anywhere in the code makes the word itself the name of a
method, and only code without one is read alike.
-/

namespace DocComments

/-- Whether a statement of its own declares it, and not a member of a class or an object. -/
def Construct.isStatement : Construct → Bool
  | classHead => true
  | callable .plain _ => true
  | callable .assigned _ => true
  | _ => false

end DocComments

namespace DocComments.Signature
open Text (trim trimStart trimEnd isBlankText)
open Unicode (isBlank isWordChar)

/-- The texts that introduce a declaration. -/
def introductions : List String :=
  ["class ", "function", "async function", "const ", "let ", "var "]

/-- A trimmed text that starts with one of these. Where nothing stands behind a word the blank
behind it is gone. -/
inductive Introduced : List Char → Prop
  | spaced {word : String} (hword : word ∈ ["class", "const", "let", "var"]) (r : List Char)
      (hr : r.head?.all isBlank = true) : Introduced (word.toList ++ r)
  | function (r : List Char) : Introduced ("function".toList ++ r)
  | async (r : List Char) : Introduced ("async function".toList ++ r)

theorem introduced_trim {s : List Char} (h : ∃ word ∈ introductions, word.toList <+: s) :
    Introduced (trim s) := by
  have hspaced : ∀ word ∈ ["class", "const", "let", "var"], ∀ r,
      Introduced (trim (word.toList ++ ' ' :: r)) := by
    intro word hword r
    have hidentifier : ∀ k ∈ ["class", "const", "let", "var"], IsIdentifier k.toList := by
      decide
    rw [Name.trim_append ⟨word.toList, hidentifier word hword⟩]
    refine .spaced hword _ ?_
    cases hhead : (trimEnd (' ' :: r)).head? with
    | none => rfl
    | some b =>
      rw [← Option.some.inj (Text.head?_trimEnd hhead)]
      decide
  obtain ⟨word, hword, r, rfl⟩ := h
  simp only [introductions, List.mem_cons, List.not_mem_nil, or_false] at hword
  rcases hword with rfl | rfl | rfl | rfl | rfl | rfl
  · exact hspaced "class" (by simp) r
  · rw [Name.trim_append ⟨"function".toList, by decide⟩]
    exact .function (trimEnd r)
  · have htrim := Text.trim_append (c := 'a') (s := "sync function".toList)
      (t := "async functio".toList) (d := 'n') (by decide) (by decide) rfl r
    exact htrim ▸ .async (trimEnd r)
  · exact hspaced "const" (by simp) r
  · exact hspaced "let" (by simp) r
  · exact hspaced "var" (by simp) r

theorem isStatement_of_statementDeclaration? {s : List Char} {d : Declaration}
    (h : statementDeclaration? s = some d) : d.construct.isStatement = true := by
  obtain ⟨shape, hshape, hd⟩ := List.exists_of_findSome?_eq_some h
  simp only [List.mem_cons, List.not_mem_nil, or_false] at hshape
  rcases hshape with rfl | rfl | rfl
  · rw [classDeclaration?] at hd
    split at hd
    · cases hd
    · split at hd
      · cases hd
      · split at hd <;> cases hd
        rfl
  · rw [functionDeclaration?] at hd
    split at hd <;> cases hd
    rfl
  · obtain ⟨a, -, rfl⟩ := Option.map_eq_some_iff.mp hd
    rfl

namespace Introduced
variable {s : List Char} (h : Introduced s)
include h

/-- The first character is that of one of the words. -/
theorem exists_eq_cons :
    ∃ c t, s = c :: t ∧ isBlank c = false ∧ c ≠ ':' ∧ c ≠ '=' ∧ c ≠ 'e' := by
  cases h with
  | function r => exact ⟨'f', "unction".toList ++ r, rfl, by decide⟩
  | async r => exact ⟨'a', "sync function".toList ++ r, rfl, by decide⟩
  | spaced hword r hr =>
    simp only [List.mem_cons, List.not_mem_nil, or_false] at hword
    rcases hword with rfl | rfl | rfl | rfl
    · exact ⟨'c', "lass".toList ++ r, rfl, by decide⟩
    · exact ⟨'c', "onst".toList ++ r, rfl, by decide⟩
    · exact ⟨'l', "et".toList ++ r, rfl, by decide⟩
    · exact ⟨'v', "ar".toList ++ r, rfl, by decide⟩

theorem trimStart_eq : trimStart s = s := by
  obtain ⟨c, t, rfl, hc, -⟩ := h.exists_eq_cons
  exact Text.trimStart_cons_of_not_blank hc t

/-- None of the words makes anything known. -/
theorem spacedWord?_eq_none : spacedWord? "export" s = none ∧ spacedWord? "default" s = none := by
  cases h with
  | function r => exact ⟨rfl, rfl⟩
  | async r => exact ⟨rfl, rfl⟩
  | spaced hword r hr =>
    simp only [List.mem_cons, List.not_mem_nil, or_false] at hword
    rcases hword with rfl | rfl | rfl | rfl <;> exact ⟨rfl, rfl⟩

/-- Nothing that sets up instances and no property starts with one of the words. -/
theorem not_initializer_not_property :
    initializerDeclaration? s = none ∧ propertyDeclaration? s = none := by
  cases h with
  | function r => exact ⟨rfl, rfl⟩
  | async r => exact ⟨rfl, rfl⟩
  | spaced hword r hr =>
    simp only [List.mem_cons, List.not_mem_nil, or_false] at hword
    rcases hword with rfl | rfl | rfl | rfl
    · exact ⟨rfl, rfl⟩
    · refine ⟨?_, rfl⟩
      cases r with
      | nil => rfl
      | cons b r =>
        have hb : b ≠ 'r' := by
          rintro rfl
          cases hr
        have hword : word? "constructor" ("const".toList ++ b :: r) = none := by
          rw [word?, Text.isPrefixOf?_eq_none_iff]
          rintro ⟨t, ht⟩
          have hsplit : "const".toList ++ 'r' :: ("uctor".toList ++ t) = "const".toList ++ b :: r := ht
          exact hb (List.cons.inj (List.append_cancel_left hsplit)).1.symm
        rw [initializerDeclaration?, hword]
    · exact ⟨rfl, rfl⟩
    · exact ⟨rfl, rfl⟩

/-- Behind the words of a method that can be read, the text is one of its ends, and does not start
with the word that makes something known. -/
theorem of_mem_methodPrefixes {p : Bool × Bool × List Char} (hp : p ∈ methodPrefixes s) :
    p.2.2 <:+ s ∧ p.2.2.head? ≠ some 'e' := by
  have hone : ∀ {t}, methodPrefixes t = [(false, false, t)] → t.head? ≠ some 'e' →
      p ∈ methodPrefixes t → p.2.2 <:+ t ∧ p.2.2.head? ≠ some 'e' := by
    intro t hprefixes hhead hp
    rw [hprefixes, List.mem_singleton] at hp
    exact hp ▸ ⟨List.suffix_rfl, hhead⟩
  cases h with
  | function r => exact hone rfl (by simp) hp
  | async r =>
    have hprefixes : methodPrefixes ("async function".toList ++ r) =
        [(false, true, "function".toList ++ r), (false, false, "async function".toList ++ r)] := rfl
    rw [hprefixes, List.mem_cons, List.mem_singleton] at hp
    rcases hp with rfl | rfl
    · exact ⟨⟨"async ".toList, rfl⟩, by simp⟩
    · exact ⟨List.suffix_rfl, by simp⟩
  | spaced hword r hr =>
    simp only [List.mem_cons, List.not_mem_nil, or_false] at hword
    rcases hword with rfl | rfl | rfl | rfl <;> exact hone rfl (by simp) hp

/-- A member is read only where a parenthesis is closed, and it is not named like the word that
makes something known. -/
theorem of_memberDeclaration? {d : Declaration} (hd : memberDeclaration? s = some d) :
    ')' ∈ s ∧ d.construct.isStatement = false ∧ d.name ≠ "export" := by
  obtain ⟨c, t, hs, -, -, -, hc⟩ := h.exists_eq_cons
  have hne : ∀ {name : List Char}, name.head? ≠ some 'e' → String.ofList name ≠ "export" := by
    intro name hhead heq
    have hlist := congrArg String.toList heq
    rw [String.toList_ofList] at hlist
    rw [hlist] at hhead
    exact hhead rfl
  obtain ⟨shape, hshape, hread⟩ := List.exists_of_findSome?_eq_some hd
  simp only [List.mem_cons, List.not_mem_nil, or_false] at hshape
  rcases hshape with rfl | rfl | rfl | rfl
  · rw [h.not_initializer_not_property.1] at hread
    cases hread
  · obtain ⟨hclose, name, rest, isAsync, hname, rfl⟩ := exists_of_arrowDeclaration? hread
    refine ⟨hclose, rfl, hne ?_⟩
    rw [head?_of_identifier? hname, hs, List.head?_cons]
    exact fun heq => hc (Option.some.inj heq)
  · obtain ⟨p, hp, name, hname, rfl⟩ := exists_of_methodDeclaration? hread
    obtain ⟨hsuffix, hfirst⟩ := h.of_mem_methodPrefixes hp
    obtain ⟨hclose, hidentifier, hprefix⟩ := mem_of_methodName? hname
    exact ⟨hsuffix.mem hclose, rfl, hne (hidentifier.head?_of_prefix hprefix ▸ hfirst)⟩
  · rw [h.not_initializer_not_property.2] at hread
    cases hread

end Introduced

/-- What makes a declaration known has no bearing on its arguments. -/
theorem callable_export (name : List Char) (role : Role) (isAsync : Bool) (s : List Char) :
    callable name role isAsync ("export ".toList ++ s) = callable name role isAsync s := by
  have harguments : arguments ("export ".toList ++ s) = arguments s := rfl
  rw [callable, harguments, callable]

namespace Introduced
variable {s : List Char} (h : Introduced s)
include h

theorem afterExport_export : afterExport ("export ".toList ++ s) = afterExport s := by
  obtain ⟨hexport, hdefault⟩ := h.spacedWord?_eq_none
  have hread := Export.afterExport_append ⟨⟨[' '], rfl⟩, by simp⟩ h.trimStart_eq
  rw [hdefault, Option.getD_none] at hread
  rw [afterExport.eq_1 s, hexport]
  exact hread

/-- The statement behind the word is read as if the word were not there. -/
theorem statementDeclaration?_export :
    statementDeclaration? ("export ".toList ++ s) = statementDeclaration? s := by
  obtain ⟨c, t, hs, hblank, -, hequals, -⟩ := h.exists_eq_cons
  have hclass : classDeclaration? ("export ".toList ++ s) = classDeclaration? s := by
    rw [classDeclaration?, h.afterExport_export, classDeclaration?]
  have hfunction : functionDeclaration? ("export ".toList ++ s) = functionDeclaration? s := by
    simp only [functionDeclaration?, h.afterExport_export, callable_export]
  have hassigned : assignedDeclaration? ("export ".toList ++ s) = assignedDeclaration? s := by
    have hmark : mark? '=' s = none := by
      rw [hs]
      exact mark?_eq_none (g := []) rfl hblank hequals t
    have hsearch : assignment? ("export ".toList ++ s) = assignment? s :=
      assignment?_word "export" (by decide) ⟨⟨[' '], rfl⟩, by simp⟩ hmark
    simp only [assignedDeclaration?, hsearch, callable_export]
  simp only [statementDeclaration?, List.findSome?_cons, hclass, hfunction, hassigned,
    List.findSome?_nil]

/-- Where no statement is behind the word, it is the name of a method if a parenthesis is closed
behind it. -/
theorem memberDeclaration?_export :
    memberDeclaration? ("export ".toList ++ s) =
      if ')' ∈ s then some (callable "export".toList (.method false) false s) else none := by
  obtain ⟨c, t, hs, hblank, hcolon, -⟩ := h.exists_eq_cons
  have harrow : arrowDeclaration? ("export ".toList ++ s) = none := by
    rw [hs]
    exact arrowDeclaration?_eq_none (w := "export".toList) (g := [' ']) rfl hblank
      (fun hnil => absurd hnil (by simp)) (by decide) hcolon
  have hmethod : methodDeclaration? ("export ".toList ++ s) =
      if ')' ∈ s then some (callable "export".toList (.method false) false s) else none := by
    have hprefixes : methodPrefixes ("export ".toList ++ s) =
        [(false, false, "export ".toList ++ s)] := rfl
    have hname : methodName? ("export ".toList ++ s) =
        if ')' ∈ s then some "export".toList else none := by
      have hread : identifier? ("export ".toList ++ s) = some ("export".toList, ' ' :: s) :=
        identifier?_word (w := "export".toList) (g := []) (t := s) (by decide) rfl
          fun _ => by decide
      rw [methodName?, hread]
      rfl
    have hword : String.ofList "export".toList ∉ statementWords := by decide
    rw [methodDeclaration?, hprefixes]
    simp only [List.findSome?_singleton, hname]
    by_cases hclose : ')' ∈ s
    · simp only [if_pos hclose, Option.map_some, hword, if_false, callable_export]
    · simp only [if_neg hclose, Option.map_none]
  have hinitializer : initializerDeclaration? ("export ".toList ++ s) = none := rfl
  have hproperty : propertyDeclaration? ("export ".toList ++ s) = none := rfl
  simp only [memberDeclaration?, List.findSome?_cons, hinitializer, harrow, hmethod, hproperty,
    List.findSome?_nil]
  by_cases hclose : ')' ∈ s
  · simp only [if_pos hclose]
  · simp only [if_neg hclose]

end Introduced

theorem trim_export {s : List Char} (h : ∃ word ∈ introductions, word.toList <+: s) :
    trim ("export ".toList ++ s) = "export ".toList ++ trim s := by
  have hstart : trimStart s = s := by
    obtain ⟨word, hword, r, rfl⟩ := h
    simp only [introductions, List.mem_cons, List.not_mem_nil, or_false] at hword
    rcases hword with rfl | rfl | rfl | rfl | rfl | rfl <;> rfl
  have hne : trimEnd s ≠ [] := by
    obtain ⟨c, t, hs, -⟩ := (introduced_trim h).exists_eq_cons
    rw [trim, hstart] at hs
    simp [hs]
  have hexport : trimStart ("export ".toList ++ s) = "export ".toList ++ s := rfl
  rw [trim, hexport, Text.trimEnd_append_of_ne_nil hne, trim, hstart]

/-- Making a declaration known leaves it what it is exactly if it is declared by a statement of its
own, or no parenthesis is closed in the code. -/
theorem ofCode_export_iff {s : List Char} (h : ∃ word ∈ introductions, word.toList <+: s) :
    Declaration.ofCode ("export ".toList ++ s) = Declaration.ofCode s ↔
      (Declaration.ofCode s).construct.isStatement = true ∨ ')' ∉ s := by
  have hintroduced := introduced_trim h
  have hmem : ')' ∈ trim s ↔ ')' ∈ s := Text.mem_trim_iff (by decide) s
  rw [ofCode_eq, ofCode_eq, trim_export h, hintroduced.statementDeclaration?_export,
    hintroduced.memberDeclaration?_export]
  cases hstatement : statementDeclaration? (trim s) with
  | some d =>
    exact iff_of_true rfl (Or.inl (isStatement_of_statementDeclaration? hstatement))
  | none =>
    rw [Option.none_or, Option.none_or]
    by_cases hclose : ')' ∈ s
    · -- the word becomes the name of a method, which nothing behind it is called
      obtain ⟨hname, hmember⟩ : ((memberDeclaration? (trim s)).getD {}).name ≠ "export" ∧
          ((memberDeclaration? (trim s)).getD {}).construct.isStatement = false := by
        cases hread : memberDeclaration? (trim s) with
        | none => exact ⟨by decide, rfl⟩
        | some d => exact (hintroduced.of_memberDeclaration? hread).2.symm
      rw [if_pos (hmem.mpr hclose), Option.getD_some]
      refine iff_of_false (fun heq => hname (heq ▸ rfl)) ?_
      simp [hmember, hclose]
    · have hmember : memberDeclaration? (trim s) = none := by
        rw [Option.eq_none_iff_forall_ne_some]
        intro d hd
        exact hclose (hmem.mp (hintroduced.of_memberDeclaration? hd).1)
      rw [if_neg (mt hmem.mp hclose), hmember]
      exact iff_of_true rfl (Or.inr hclose)

/-- An asynchronous function that is assigned to a constant. -/
theorem ofCode_export_iff_const_function :
    (∃ word ∈ introductions, word.toList <+: "const add = async function (a, b)".toList) ∧
      Declaration.ofCode "export const add = async function (a, b)".toList =
        Declaration.ofCode "const add = async function (a, b)".toList := by
  have hstart : ∃ word ∈ introductions,
      word.toList <+: "const add = async function (a, b)".toList :=
    ⟨"const ", by decide, by decide⟩
  exact ⟨hstart, (ofCode_export_iff hstart).mpr (Or.inl (by decide +kernel))⟩

/-- A constant that is computed is read as a method if it is made known, and as nothing if not. -/
theorem not_ofCode_export_const_call :
    (∃ word ∈ introductions, word.toList <+: "const total = sum(values)".toList) ∧
      Declaration.ofCode "export const total = sum(values)".toList ≠
        Declaration.ofCode "const total = sum(values)".toList ∧
      (Declaration.ofCode "export const total = sum(values)".toList).name = "export" := by
  have hexport : (Declaration.ofCode "export const total = sum(values)".toList).name = "export" := by
    decide +kernel
  refine ⟨⟨"const ", by decide, by decide⟩, fun heq => ?_, hexport⟩
  rw [heq] at hexport
  exact absurd hexport (by decide +kernel)

end DocComments.Signature
