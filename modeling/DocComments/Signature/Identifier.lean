import DocComments.Text.Trim
import DocComments.Unicode.Word

/-!
# Identifiers

An identifier is a dollar sign, an underscore or a word letter, followed by dollar signs and
word characters. A reader takes the longest identifier in front of a text.
-/

namespace DocComments.Signature
open Unicode (isWordChar isWordLetter)

/-- Whether a character can start an identifier. -/
def isIdentifierStart (c : Char) : Bool :=
  c == '$' || c == '_' || isWordLetter c

/-- Whether a character can go on with an identifier. -/
def isIdentifierPart (c : Char) : Bool :=
  c == '$' || isWordChar c

/-- Whether a text is an identifier. -/
def IsIdentifier : List Char → Prop
  | [] => False
  | c :: s => isIdentifierStart c = true ∧ ∀ d ∈ s, isIdentifierPart d = true

/-- The longest identifier in front of a text, and the text after it. -/
def identifier? : List Char → Option (List Char × List Char)
  | [] => none
  | c :: s =>
    if isIdentifierStart c then
      some (c :: s.takeWhile isIdentifierPart, s.dropWhile isIdentifierPart)
    else none

/-- What is read is an identifier, and nothing of the text is lost. -/
theorem isIdentifier_of_identifier? {s name rest : List Char}
    (h : identifier? s = some (name, rest)) : IsIdentifier name ∧ name ++ rest = s := by
  cases s with
  | nil => simp [identifier?] at h
  | cons c s =>
    by_cases hc : isIdentifierStart c = true
    · simp only [identifier?, hc, if_true, Option.some.injEq, Prod.mk.injEq] at h
      obtain ⟨rfl, rfl⟩ := h
      refine ⟨⟨hc, ?_⟩, ?_⟩
      · intro d hd
        exact List.all_eq_true.mp List.all_takeWhile d hd
      · simp [List.takeWhile_append_dropWhile]
    · simp [identifier?, hc] at h

end DocComments.Signature
