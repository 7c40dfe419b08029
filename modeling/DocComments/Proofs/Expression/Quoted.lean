import DocComments.Proofs.Expression.Reading

/-!
# Where a quoted string ends

A quoted string ends with a quote of its own, and nothing behind that quote has a say in where. So a
string and a template may be put in front of any other text. An escape is told by what its reader
needs of the text, and the same law holds of it.
-/

namespace DocComments.Expression
open Text (firstMark afterMark trimStart isBlankText)
open Unicode (isBlank)

section
variable {count start n : Nat} {s v rest : List Char} {mark : Char}

/-! ### Escapes -/

/-- Digits are read from the front of a text, and no more than are asked for. -/
theorem hexValue_eq_ok (h : hexValue count start s = .ok n) :
    ∃ u, s = u ++ s.drop count ∧ ∀ r, hexValue count start (u ++ r) = .ok n ∧
      (u ++ r).drop count = r := by
  induction count generalizing start s with
  | zero =>
    refine ⟨[], rfl, ?_⟩
    intro r
    exact ⟨h, rfl⟩
  | succ count ih =>
    cases s with
    | nil => cases h
    | cons c s =>
      simp only [hexValue] at h
      cases hc : digitValue? 16 c with
      | none =>
        rw [hc] at h
        cases h
      | some d =>
        rw [hc] at h
        obtain ⟨u, hu, hread⟩ := ih h
        refine ⟨c :: u, ?_, ?_⟩
        · rw [List.drop_succ_cons, List.cons_append, ← hu]
        · intro r
          simp only [List.cons_append, hexValue, hc, List.drop_succ_cons]
          exact hread r

theorem yields_fixedCode :
    Yields (fixedCode count mark s) v rest ↔
      ∃ n, hexValue count 0 s = .ok n ∧ v = [charOfCode n] ∧ rest = s.drop count := by
  unfold fixedCode
  cases hexValue count 0 s with
  | error e => simp
  | ok n => simp [eq_comm]

theorem yields_fixedCode_append (h : Yields (fixedCode count mark s) v rest) :
    ∃ u, s = u ++ rest ∧ ∀ r, Yields (fixedCode count mark (u ++ r)) v r := by
  obtain ⟨n, hn, rfl, rfl⟩ := yields_fixedCode.mp h
  obtain ⟨u, hu, hread⟩ := hexValue_eq_ok hn
  refine ⟨u, hu, ?_⟩
  intro r
  obtain ⟨hvalue, hdrop⟩ := hread r
  exact yields_fixedCode.mpr ⟨n, hvalue, rfl, hdrop.symm⟩

/-- A code point between braces: digits, and a closing brace behind blanks. -/
theorem yields_bracedCode :
    Yields (bracedCode s) v rest ↔
      ∃ digits gap n, s = digits ++ gap ++ '\x7d' :: rest ∧ (∀ c ∈ digits, isHexDigit c = true) ∧
        isBlankText gap = true ∧ wholeValue? 16 digits = some n ∧ n < 2 ^ 32 ∧
        v = [charOfCode n] := by
  unfold bracedCode
  extract_lets digits left
  constructor
  · intro h
    split at h
    · exact absurd h not_yields_error
    · rename_i c hmark
      split_ifs at h with hbrace
      · subst hbrace
        split at h
        · rename_i n hn
          split_ifs at h with hlt
          · obtain ⟨rfl, rfl⟩ := yields_ok.mp h
            obtain ⟨gap, hgap, hleft⟩ :=
              Text.exists_blanks_of_trimStart (firstMark_eq_some_iff.mp hmark)
            have hs : s = digits ++ gap ++ '\x7d' :: afterMark left := by
              rw [List.append_assoc, ← hleft, List.takeWhile_append_dropWhile]
            have hdigits : ∀ c ∈ digits, isHexDigit c = true := fun c hc =>
              List.all_eq_true.mp List.all_takeWhile c hc
            exact ⟨digits, gap, n, hs, hdigits, hgap, hn, hlt, rfl⟩
          · exact absurd h not_yields_error
        · exact absurd h not_yields_error
      · exact absurd h not_yields_error
  · rintro ⟨digits', gap, n, hs, hdigits, hgap, hn, hlt, rfl⟩
    have hnext : ∀ c, (gap ++ '\x7d' :: rest).head? = some c → isHexDigit c = false := by
      cases gap with
      | nil =>
        rintro c ⟨⟩
        rfl
      | cons b gap =>
        rintro c ⟨⟩
        have hb : isBlank b = true := List.all_eq_true.mp hgap b List.mem_cons_self
        exact Unicode.eq_false_of_isBlank (by decide) hb
    have hspan := Text.span_append hdigits hnext
    rw [← List.append_assoc, ← hs] at hspan
    have hleft : trimStart left = '\x7d' :: rest := by
      change trimStart (s.dropWhile isHexDigit) = _
      rw [hspan.2, Text.trimStart_append_of_blank hgap]
      rfl
    have hafter : afterMark left = rest := by
      rw [afterMark, hleft, List.tail_cons]
    have hvalue : wholeValue? 16 digits = some n := by
      rw [← hn, ← hspan.1]
    simp only [firstMark_of_trimStart hleft, hvalue, hlt, if_true, yields_ok, hafter, and_self]

theorem yields_bracedCode_append (h : Yields (bracedCode s) v rest) :
    ∃ u, s = u ++ rest ∧ ∀ r, Yields (bracedCode (u ++ r)) v r := by
  obtain ⟨digits, gap, n, rfl, hdigits, hgap, hn, hlt, rfl⟩ := yields_bracedCode.mp h
  refine ⟨digits ++ gap ++ ['\x7d'], ?_, ?_⟩
  · simp
  · intro r
    refine yields_bracedCode.mpr ⟨digits, gap, n, ?_, hdigits, hgap, hn, hlt, rfl⟩
    simp

/-- The letter that announces a code point is followed by a brace or by four digits. -/
theorem escape_fixedCode (h : s.head? ≠ some '\x7b') : escape ('u' :: s) = fixedCode 4 'u' s := by
  cases s with
  | nil => rfl
  | cons c s =>
    rw [escape]
    rintro t ⟨⟩
    exact h rfl

/-- Any other character behind a backslash is an escape by itself. -/
theorem escape_char {c : Char} (hx : c ≠ 'x') (hu : c ≠ 'u') :
    escape (c :: s) = .ok (.one (escapedChar c)) := by
  rw [escape]
  · exact hx
  · intro t hc
    exact absurd hc hu
  · exact hu

/-- An escape may be put in front of any text. -/
theorem yields_escape_append (h : Yields (escape s) v rest) :
    ∃ u, s = u ++ rest ∧ ∀ r, Yields (escape (u ++ r)) v r := by
  cases s with
  | nil => exact absurd h not_yields_error
  | cons c s =>
    by_cases hx : c = 'x'
    · subst hx
      have hcode : Yields (fixedCode 2 'x' s) v rest := h
      obtain ⟨u, rfl, hread⟩ := yields_fixedCode_append hcode
      exact ⟨'x' :: u, rfl, hread⟩
    by_cases hu : c = 'u'
    · subst hu
      by_cases hbrace : s.head? = some '\x7b'
      · obtain ⟨t, rfl⟩ := List.head?_eq_some_iff.mp hbrace
        obtain ⟨u, rfl, hread⟩ := yields_bracedCode_append h
        exact ⟨'u' :: '\x7b' :: u, rfl, hread⟩
      · rw [escape_fixedCode hbrace] at h
        obtain ⟨u, rfl, hread⟩ := yields_fixedCode_append h
        refine ⟨'u' :: u, rfl, ?_⟩
        intro r
        have hr : (u ++ r).head? ≠ some '\x7b' := by
          intro hhead
          obtain ⟨t, ht⟩ := List.head?_eq_some_iff.mp hhead
          obtain ⟨n, hn, -⟩ := yields_fixedCode.mp (hread r)
          rw [ht] at hn
          cases hn
        rw [List.cons_append, escape_fixedCode hr]
        exact hread r
    · rw [escape_char hx hu, yields_ok] at h
      obtain ⟨rfl, rfl⟩ := h
      refine ⟨[c], rfl, ?_⟩
      intro r
      rw [List.singleton_append, escape_char hx hu]
      exact yields_ok.mpr ⟨rfl, rfl⟩

end

/-! ### Strings -/

section
variable {quote c : Char} {s t rest : List Char}

theorem not_yields_quoted_nil : ¬ Yields (quoted quote []) t rest := by
  rw [quoted]
  exact not_yields_error

theorem yields_quoted_close :
    Yields (quoted quote (quote :: s)) t rest ↔ t = [] ∧ rest = s := by
  rw [quoted, if_pos rfl, yields_ok, Text.Found.value_one, Text.Found.rest_one]
  exact and_congr eq_comm eq_comm

theorem yields_quoted_escape (hquote : quote ≠ '\\') :
    Yields (quoted quote ('\\' :: s)) t rest ↔
      ∃ v u w, Yields (escape s) v u ∧ Yields (quoted quote u) w rest ∧ t = v ++ w := by
  rw [quoted, if_neg hquote.symm, if_pos rfl]
  cases hread : escape s with
  | error e => simp
  | ok f =>
    rw [yields_map (g := (f.value ++ ·))]
    · constructor
      · rintro ⟨w, hw, rfl⟩
        exact ⟨f.value, f.rest, w, yields_ok.mpr ⟨rfl, rfl⟩, hw, rfl⟩
      · rintro ⟨v, u, w, hf, hw, rfl⟩
        obtain ⟨rfl, rfl⟩ := yields_ok.mp hf
        exact ⟨w, hw, rfl⟩
    · intro y
      rfl
    · intro y
      rfl

/-- Any other character stands for itself, a line end only in a template. -/
theorem yields_quoted_cons (hquote : c ≠ quote) (hescape : c ≠ '\\') :
    Yields (quoted quote (c :: s)) t rest ↔
      (c = '\n' → quote = '\x60') ∧ ∃ w, Yields (quoted quote s) w rest ∧ t = c :: w := by
  rw [quoted, if_neg hquote, if_neg hescape]
  by_cases hline : c = '\n' ∧ quote ≠ '\x60'
  · rw [if_pos (by simpa using hline)]
    simp [hline]
  · rw [if_neg (by simpa using hline), yields_map (g := (c :: ·))]
    · rw [not_and_not_right] at hline
      constructor
      · rintro ⟨w, hw, rfl⟩
        exact ⟨hline, w, hw, rfl⟩
      · rintro ⟨-, w, hw, rfl⟩
        exact ⟨w, hw, rfl⟩
    · intro y
      rfl
    · intro y
      rfl

/-- A quoted string ends with its quote and may be put in front of any text. -/
theorem yields_quoted_append (hquote : quote ≠ '\\') (h : Yields (quoted quote s) t rest) :
    ∃ u, s = u ++ quote :: rest ∧ ∀ r, Yields (quoted quote (u ++ quote :: r)) t r := by
  induction hn : s.length using Nat.strongRecOn generalizing s t with
  | ind n ih =>
    cases s with
    | nil => exact absurd h not_yields_quoted_nil
    | cons c s =>
      by_cases hclose : c = quote
      · subst hclose
        obtain ⟨rfl, rfl⟩ := yields_quoted_close.mp h
        exact ⟨[], rfl, fun r => yields_quoted_close.mpr ⟨rfl, rfl⟩⟩
      by_cases hescape : c = '\\'
      · subst hescape
        obtain ⟨v, w, x, hv, hx, rfl⟩ := (yields_quoted_escape hquote).mp h
        have hshorter := hv.length_lt
        rw [List.length_cons] at hn
        obtain ⟨u, hu, hread⟩ := yields_escape_append hv
        obtain ⟨u', hu', hread'⟩ := ih _ (by omega) hx rfl
        refine ⟨'\\' :: (u ++ u'), ?_, ?_⟩
        · rw [List.cons_append, List.append_assoc, ← hu', ← hu]
        · intro r
          rw [List.cons_append, List.append_assoc]
          exact (yields_quoted_escape hquote).mpr ⟨v, _, x, hread _, hread' r, rfl⟩
      · obtain ⟨hline, w, hw, rfl⟩ := (yields_quoted_cons hclose hescape).mp h
        rw [List.length_cons] at hn
        obtain ⟨u, hu, hread⟩ := ih _ (by omega) hw rfl
        refine ⟨c :: u, ?_, ?_⟩
        · rw [List.cons_append, ← hu]
        · intro r
          exact (yields_quoted_cons hclose hescape).mpr ⟨hline, w, hread r, rfl⟩

theorem yields_template :
    Yields (template s) t rest ↔
      Yields (quoted '\x60' s) t rest ∧
        Text.occursIn interpolationMark (s.take (s.length - rest.length)) = false := by
  unfold template
  cases hread : quoted '\x60' s with
  | error e => simp
  | ok f =>
    simp only [yields_ok]
    constructor
    · intro h
      split at h
      · exact absurd h not_yields_error
      · rename_i hmark
        obtain ⟨rfl, rfl⟩ := yields_ok.mp h
        exact ⟨⟨rfl, rfl⟩, by simpa using hmark⟩
    · rintro ⟨⟨rfl, rfl⟩, hmark⟩
      rw [if_neg (by simp [hmark])]
      exact yields_ok.mpr ⟨rfl, rfl⟩

/-- A template ends with its backtick and may be put in front of any text. -/
theorem yields_template_append (h : Yields (template s) t rest) :
    ∃ u, s = u ++ '\x60' :: rest ∧ ∀ r, Yields (template (u ++ '\x60' :: r)) t r := by
  obtain ⟨hquoted, hmark⟩ := yields_template.mp h
  obtain ⟨u, rfl, hread⟩ := yields_quoted_append (by decide) hquoted
  have htake : ∀ r : List Char, (u ++ '\x60' :: r).take ((u ++ '\x60' :: r).length - r.length) =
      u ++ ['\x60'] := by
    intro r
    have hlength : (u ++ '\x60' :: r).length - r.length = (u ++ ['\x60']).length := by
      simp only [List.length_append, List.length_cons, List.length_nil]
      omega
    have hsplit : u ++ '\x60' :: r = (u ++ ['\x60']) ++ r := List.append_cons u '\x60' r
    rw [hlength, hsplit, List.take_left]
  refine ⟨u, rfl, ?_⟩
  intro r
  rw [htake] at hmark
  refine yields_template.mpr ⟨hread r, ?_⟩
  rw [htake]
  exact hmark

end

end DocComments.Expression
