import DocComments.Proofs.Expression.Escape
import DocComments.Proofs.Text.Occurrence

/-!
# Strings written as templates

A string is written as a template with a backslash in front of each character that would mean
something there: a backslash, a backtick, and a dollar sign before a brace. Read between backticks
that gives the string again. But the test for an interpolation looks at the spelling and not at
what it stands for, so a template is refused whose string holds a dollar sign before a brace.
-/

namespace DocComments.Expression

/-- A string as it is written in a template. -/
def templateChars : List Char → List Char
  | [] => []
  | c :: s =>
    if c = '\\' ∨ c = '\x60' ∨ c = '$' ∧ s.head? = some '\x7b' then '\\' :: c :: templateChars s
    else c :: templateChars s

/-- The template of a string. -/
def templateText (s : String) : List Char :=
  '\x60' :: (templateChars s.toList ++ ['\x60'])

section
variable {c : Char} {s : List Char}

/-- Every character stands for itself, with or without its backslash. -/
theorem standsFor_templateChars (s : List Char) : StandsFor '\x60' (templateChars s) s := by
  induction s with
  | nil => exact standsFor_nil
  | cons c s ih =>
    rw [templateChars]
    split
    · rename_i hmark
      have hc : StandsFor '\x60' ['\\', c] [c] := by
        rcases hmark with rfl | rfl | ⟨rfl, -⟩ <;>
          exact standsFor_escapedChar (by decide) (by decide) (by decide)
      exact hc.append ih
    · rename_i hmark
      rw [not_or, not_or] at hmark
      have hc : StandsFor '\x60' [c] [c] :=
        standsFor_singleton hmark.2.1 hmark.1 fun _ => rfl
      exact hc.append ih

theorem interpolationMark_prefix_iff :
    interpolationMark <+: c :: s ↔ c = '$' ∧ s.head? = some '\x7b' := by
  have hbrace : ['\x7b'] <+: s ↔ s.head? = some '\x7b' := by
    cases s with
    | nil => simp
    | cons d s => simp [eq_comm]
  rw [interpolationMark, List.cons_prefix_cons, hbrace, eq_comm]

/-- A brace in front of the written string is one in front of the string. -/
theorem head?_templateChars_eq_brace_iff :
    (templateChars s ++ ['\x60']).head? = some '\x7b' ↔ s.head? = some '\x7b' := by
  cases s with
  | nil => decide
  | cons c s =>
    rw [templateChars]
    split
    · rename_i hmark
      have hc : c ≠ '\x7b' := by
        rcases hmark with rfl | rfl | ⟨rfl, -⟩ <;> decide
      simp [hc]
    · simp

/-- The mark of an interpolation stands in the spelling exactly if it stands in the string: the
backslash in front of it does not break it. -/
theorem interpolationMark_infix_iff :
    interpolationMark <:+: templateChars s ++ ['\x60'] ↔ interpolationMark <:+: s := by
  induction s with
  | nil => decide
  | cons c s ih =>
    have hfront : interpolationMark <:+: c :: (templateChars s ++ ['\x60']) ↔
        interpolationMark <:+: c :: s := by
      rw [List.infix_cons_iff, List.infix_cons_iff, interpolationMark_prefix_iff,
        interpolationMark_prefix_iff, head?_templateChars_eq_brace_iff, ih]
    rw [templateChars]
    split
    · have hslash : ¬ interpolationMark <+: '\\' :: c :: (templateChars s ++ ['\x60']) :=
        fun h => absurd (interpolationMark_prefix_iff.mp h).1 (by decide)
      rw [List.cons_append, List.cons_append, List.infix_cons_iff, or_iff_right hslash, hfront]
    · rw [List.cons_append, hfront]

end

/-! ### The value of a template -/

section
variable (setting : Setting) {s : String}

theorem evaluate_templateText_of_plain (h : ¬ interpolationMark <:+: s.toList) :
    evaluate setting (templateText s) = .ok (.string s) := by
  have hmark : Text.occursIn interpolationMark (templateChars s.toList ++ ['\x60']) = false := by
    rw [← Bool.not_eq_true, Text.occursIn_iff, interpolationMark_infix_iff]
    exact h
  have hread : Yields (template (templateChars s.toList ++ ['\x60'])) s.toList [] := by
    refine yields_template.mpr ⟨(standsFor_templateChars s.toList).yields [], ?_⟩
    rwa [List.length_nil, Nat.sub_zero, List.take_length]
  have hvalue : evaluate setting (templateText s) = .ok (.string (String.ofList s.toList)) :=
    evaluate_of_operand (.template hread)
  rwa [String.ofList_toList] at hvalue

theorem evaluate_templateText_of_marked (h : interpolationMark <:+: s.toList) :
    evaluate setting (templateText s) = .error (.unsupported .templateInterpolation) := by
  have htemplate : template (templateChars s.toList ++ ['\x60']) =
      .error (.unsupported .templateInterpolation) := by
    obtain ⟨hlength, hquoted⟩ := (standsFor_templateChars s.toList).yields []
    have hmark : Text.occursIn interpolationMark (templateChars s.toList ++ ['\x60']) = true := by
      rw [Text.occursIn_iff, interpolationMark_infix_iff]
      exact h
    rw [template, hquoted]
    simp only [List.length_nil, Nat.sub_zero, List.take_length, hmark, if_true]
  have hfrom : valueFrom setting (inner? setting setting.limit) '\x60'
      (templateChars s.toList ++ ['\x60']) = .error (.unsupported .templateInterpolation) := by
    change (template (templateChars s.toList ++ ['\x60'])).map _ = _
    rw [htemplate]
    rfl
  rw [evaluate, closed, templateText, value_eq_error rfl hfrom]
  rfl

end

/-- The template of a string evaluates to the string exactly if no dollar sign stands before a brace
in the string, and is refused as an interpolation exactly if one does, in every setting. -/
theorem evaluate_templateText (setting : Setting) (s : String) :
    (evaluate setting (templateText s) = .ok (.string s) ↔ ¬ interpolationMark <:+: s.toList) ∧
      (evaluate setting (templateText s) = .error (.unsupported .templateInterpolation) ↔
        interpolationMark <:+: s.toList) := by
  by_cases h : interpolationMark <:+: s.toList
  · have hvalue := evaluate_templateText_of_marked setting h
    refine ⟨⟨?_, fun hnot => absurd h hnot⟩, fun _ => h, fun _ => hvalue⟩
    intro hok
    rw [hvalue] at hok
    cases hok
  · have hvalue := evaluate_templateText_of_plain setting h
    refine ⟨⟨fun _ => h, fun _ => hvalue⟩, ?_, fun hmark => absurd hmark h⟩
    intro hfault
    rw [hvalue] at hfault
    cases hfault

/-- A dollar sign behind a backslash is still taken for the start of an interpolation. -/
theorem not_evaluate_templateText_dollar_brace :
    templateText "$\x7ba\x7d" = "\x60\\$\x7ba\x7d\x60".toList ∧
      evaluate ⟨[], defaultLimit⟩ (templateText "$\x7ba\x7d") ≠
        .ok (.string "$\x7ba\x7d") := by
  refine ⟨by decide, ?_⟩
  rw [evaluate_templateText_of_marked _ ⟨[], ['a', '\x7d'], by decide⟩]
  intro h
  cases h

end DocComments.Expression
