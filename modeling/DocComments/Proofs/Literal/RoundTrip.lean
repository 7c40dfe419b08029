import DocComments.Literal.Default
import DocComments.Proofs.Expression.Printed
import DocComments.Proofs.Json.RoundTrip

/-!
# Written literals are read back

The text of a literal without fractions is read back as the literal: as an expression in every
scope, unless it is nested too deep, and as a default in a tag, where arrays and objects are read as
data and so must not hold a key twice. The two readers count nesting differently: to the one for
expressions a minus sign is a level, to the one for data it is not.
-/

namespace DocComments.Literal
open Json (textAt compactStyle)
open Text (trim trimStart trimEnd)
open Unicode (isBlank)

/-- Whether a literal is an array or an object. -/
def isContainer : Literal → Bool
  | array _ => true
  | object _ => true
  | _ => false

section
variable {l : Literal}

/-- The text of a literal on one line, as characters. -/
theorem toList_jsonText (l : Literal) : l.jsonText.toList = textAt compactStyle 0 l.toJson := by
  rw [jsonText, Json.compact, String.toList_ofList]

/-- A text starts with a bracket exactly if it is that of an array or an object. -/
theorem IsPlain.exists_toList_jsonText (h : l.IsPlain) :
    ∃ c s, l.jsonText.toList = c :: s ∧ isBlank c = false ∧
      startsContainer (c :: s) = l.isContainer := by
  rw [toList_jsonText]
  cases h with
  | null => exact ⟨'n', _, rfl, rfl, rfl⟩
  | bool b => cases b with
    | true => exact ⟨'t', _, rfl, rfl, rfl⟩
    | false => exact ⟨'f', _, rfl, rfl, rfl⟩
  | @number i hi =>
    rw [toJson_number_ofInt hi, textAt, Json.numberText_ofInt hi]
    obtain ⟨c, s, htext, hc⟩ := Json.exists_signedDigits_eq_cons (i < 0) i.natAbs
    refine ⟨c, s, htext, ?_⟩
    rcases hc with rfl | hc
    · exact ⟨rfl, rfl⟩
    · have hbracket : c ≠ '[' := Expression.ne_of_isDigit hc rfl
      have hbrace : c ≠ '\x7b' := Expression.ne_of_isDigit hc rfl
      refine ⟨Expression.isBlank_of_isDigit hc, ?_⟩
      simp [startsContainer, isContainer, hbracket, hbrace]
  | string s => exact ⟨'\x22', _, rfl, rfl, rfl⟩
  | @array xs _ =>
    cases xs with
    | nil => exact ⟨'[', _, rfl, rfl, rfl⟩
    | cons x xs => exact ⟨'[', _, rfl, rfl, rfl⟩
  | @object es hes =>
    rw [toJson, entriesToJson_of_isPlain hes]
    cases es with
    | nil => exact ⟨'\x7b', _, rfl, rfl, rfl⟩
    | cons e es => exact ⟨'\x7b', _, rfl, rfl, rfl⟩

/-- The text of a literal is derived by the grammar wherever its nesting allows. -/
theorem IsPlain.derives_jsonText (h : l.IsPlain) {depth : Nat} (hdepth : l.nesting 1 ≤ depth)
    (scope : List String) :
    Expression.Derives scope depth (.operand l) l.jsonText.toList [] := by
  have hspell := Expression.spellsOut_of_isPlain scope h hdepth 0 Expression.delimits_nil
  rwa [List.append_nil, ← toList_jsonText] at hspell

/-- The text of a literal evaluates to the literal, whatever is in scope. -/
theorem IsPlain.evaluate_jsonText (h : l.IsPlain) {limit : Nat} (hlimit : l.nesting 1 ≤ limit)
    (scope : List String) : Expression.evaluate ⟨scope, limit⟩ l.jsonText.toList = .ok l :=
  Expression.evaluate_of_operand (h.derives_jsonText hlimit scope)

/-- The text of a literal has no blank ends. -/
theorem IsPlain.trim_jsonText (h : l.IsPlain) : trim l.jsonText.toList = l.jsonText.toList := by
  obtain ⟨c, s, htext, hc, -⟩ := h.exists_toList_jsonText
  have hderives := h.derives_jsonText (Nat.le_refl _) []
  obtain ⟨u, hu, hspells⟩ := hderives.exists_spelling Expression.delimits_nil
  have hend : trimEnd l.jsonText.toList = l.jsonText.toList := by
    rw [hu, hspells.endsMarked.trimEnd_append rfl, List.append_nil]
  have hstart : trimStart l.jsonText.toList = l.jsonText.toList := by
    rw [htext, Text.trimStart_cons_of_not_blank hc]
  rw [trim, hstart, hend]

/-- A literal that is no array and no object has at most a sign. -/
theorem nesting_le_one (h : l.isContainer = false) : l.nesting 1 ≤ 1 := by
  cases l with
  | array xs => cases h
  | object es => cases h
  | number n =>
    rw [nesting]
    split
    · exact Nat.le_refl 1
    · exact Nat.zero_le 1
  | _ => exact Nat.zero_le 1

theorem isBlank_compactStyle : compactStyle.IsBlank :=
  ⟨fun _ _ hc => absurd hc List.not_mem_nil, fun _ hc => absurd hc List.not_mem_nil⟩

/-- The text of a literal is read in a tag as the literal. -/
theorem IsPlain.ofTrimmed_jsonText (h : l.IsPlain) (hlimit : l.nesting 0 ≤ Json.defaultLimit)
    (hkeys : l.HasDistinctKeys) : ofTrimmed l.jsonText.toList = l := by
  obtain ⟨c, s, htext, -, hstarts⟩ := h.exists_toList_jsonText
  rw [← htext] at hstarts
  rw [ofTrimmed, hstarts]
  cases hcontainer : l.isContainer with
  | true =>
    have hread : Json.read? Json.defaultLimit l.jsonText.toList = some l.toJson := by
      rw [toList_jsonText]
      exact Json.read?_textAt isBlank_compactStyle h.isPlain_toJson (h.nesting_toJson_le hlimit)
    rw [if_pos rfl, hread]
    exact h.ofJson_toJson hkeys
  | false =>
    have hscalar : l.nesting 1 ≤ Expression.defaultLimit :=
      Nat.le_trans (nesting_le_one hcontainer) (by decide)
    rw [if_neg Bool.false_ne_true, tagSetting, h.evaluate_jsonText hscalar]

theorem IsPlain.ofDefault?_jsonText (h : l.IsPlain) (hlimit : l.nesting 0 ≤ Json.defaultLimit)
    (hkeys : l.HasDistinctKeys) : ofDefault? l.jsonText.toList = some l := by
  obtain ⟨c, s, htext, -, -⟩ := h.exists_toList_jsonText
  have hne : l.jsonText.toList ≠ [] := by
    rw [htext]
    exact List.cons_ne_nil c s
  rw [ofDefault?, h.trim_jsonText, if_neg hne, h.ofTrimmed_jsonText hlimit hkeys]
  cases h <;> rfl

/-- The text of a literal without fractions evaluates to the literal in every scope if it is nested
at most 64 levels deep, signs included, also if keys occur twice; and it is read in a tag as the
literal if its arrays and objects are nested at most 127 levels deep and no key occurs twice. -/
theorem read_jsonText (l : Literal) (h : l.IsPlain) :
    (l.nesting 1 ≤ 64 → ∀ scope,
      Expression.evaluate ⟨scope, Expression.defaultLimit⟩ l.jsonText.toList = .ok l) ∧
    (l.nesting 0 ≤ 127 → l.HasDistinctKeys → ofDefault? l.jsonText.toList = some l) :=
  ⟨fun hlimit scope => h.evaluate_jsonText hlimit scope,
    fun hlimit hkeys => h.ofDefault?_jsonText hlimit hkeys⟩

/-- An object with a negative number, a string with characters to escape, and an empty array. -/
theorem read_jsonText_object : ∃ l : Literal,
    l.jsonText = "\x7b\"a\":[-3,null],\"b\":\"\\\"\\n\",\"c\":[]\x7d" ∧
      (∀ scope, Expression.evaluate ⟨scope, Expression.defaultLimit⟩ l.jsonText.toList = .ok l) ∧
        ofDefault? l.jsonText.toList = some l := by
  let l : Literal := object [("a", array [number (.ofInt (-3)), null]), ("b", string "\"\n"),
    ("c", array [])]
  have hplain : l.IsPlain := by
    refine .object ?_
    simp only [List.forall_mem_cons, List.not_mem_nil, false_imp_iff, implies_true, and_true]
    refine ⟨.array ?_, .string _, .array ?_⟩
    · simp only [List.forall_mem_cons, List.not_mem_nil, false_imp_iff, implies_true, and_true]
      exact ⟨.number (by decide), .null⟩
    · simp only [List.not_mem_nil, false_imp_iff, implies_true]
  have hkeys : l.HasDistinctKeys := by
    refine .object (by decide) ?_
    simp only [List.forall_mem_cons, List.not_mem_nil, false_imp_iff, implies_true, and_true]
    refine ⟨.array ?_, .string _, .array ?_⟩
    · simp only [List.forall_mem_cons, List.not_mem_nil, false_imp_iff, implies_true, and_true]
      exact ⟨.number _, .null⟩
    · simp only [List.not_mem_nil, false_imp_iff, implies_true]
  have hread := read_jsonText l hplain
  exact ⟨l, by decide +kernel, hread.1 (by decide +kernel), hread.2 (by decide +kernel) hkeys⟩

end

end DocComments.Literal
