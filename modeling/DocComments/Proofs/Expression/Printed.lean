import DocComments.Proofs.Expression.Escape
import DocComments.Proofs.Expression.Locality
import DocComments.Proofs.Json.StringPart
import DocComments.Proofs.Literal.Plain

/-!
# Written literals are expressions

The text of a literal without fractions, written as data on one line, is derived by the grammar with
the literal as its value, in every scope and at every depth that its nesting does not exceed. A
negative number is a sign in front of a numeral here, so it takes a level. Keys that occur twice are
kept.
-/

namespace DocComments.Expression
open Json (textAt itemsText entriesText stringText compactStyle)
open Text (trimStart)

/-! ### Numerals -/

section
variable {digits : List Char} {n : Nat}

/-- Digits alone are a decimal without a fraction and an exponent. -/
theorem decimal?_digits (h : ∀ c ∈ digits, c.isDigit = true) :
    decimal? digits = some ⟨Nat.ofDigitChars 10 digits 0, 0⟩ := by
  have hmantissa : ∀ c ∈ digits, (!isExponentMark c) = true := by
    intro c hc
    exact of_isDigit (P := fun d => !isExponentMark d) (by decide) (h c hc)
  have hwhole : ∀ c ∈ digits, decide (c ≠ '.') = true := by
    intro c hc
    exact of_isDigit (P := fun d => decide (d ≠ '.')) (by decide) (h c hc)
  have hmarks := Text.span_append (t := []) hmantissa fun _ hc => by cases hc
  have hpoints := Text.span_append (t := []) hwhole fun _ hc => by cases hc
  rw [List.append_nil] at hmarks hpoints
  simp only [decimal?, hmarks.1, hmarks.2, hpoints.1, hpoints.2, List.drop_nil, List.append_nil,
    List.length_nil]
  rfl

theorem toNumber_whole : (⟨n, 0⟩ : Decimal).toNumber = .ofNat n := by
  rw [Decimal.toNumber]
  split
  · rename_i h
    have hzero : n = 0 := h
    rw [hzero]
  · have hbound : ¬ (400 : Int) < 0 := by decide
    rw [if_pos (Int.le_refl 0), if_neg hbound, Int.toNat_zero, Nat.pow_zero, Nat.mul_one,
      Number.ofNat]

/-- The digits of a whole number are a numeral that denotes it. -/
theorem yields_numeral_toDigits {c : Char} {s : List Char} (h : Nat.toDigits 10 n = c :: s) :
    Yields (numeral (c :: s)) (.ofNat n) [] := by
  have hall : ∀ d ∈ c :: s, d.isDigit = true := fun d hd =>
    Nat.isDigit_of_mem_toDigits (by decide) (by decide) (h ▸ hd)
  obtain ⟨hc, hs⟩ := List.forall_mem_cons.mp hall
  have hdecimal : c = '0' → ∀ m, s.head? = some m → base? m = none := by
    intro _ m hm
    have hm := of_isDigit (P := fun d => (base? d).isNone) (by decide) (hs m (List.mem_of_head? hm))
    exact Option.isNone_iff_eq_none.mp hm
  have hafter : afterDecimal c s = [] := by
    have hdigits : afterDigits s = [] := by
      rw [afterDigits, List.dropWhile_eq_nil_iff]
      intro d hd
      rw [isDigitOrGap, hs d hd, Bool.true_or]
    rw [afterDecimal, if_neg (ne_of_isDigit hc (by decide)), hdigits]
    rfl
  have hspelling : (c :: s).filter (· ≠ '_') = c :: s := by
    rw [List.filter_eq_self]
    intro d hd
    exact decide_eq_true (ne_of_isDigit (hall d hd) (by decide))
  rw [numeral_eq_decimalNumeral hdecimal]
  refine yields_decimalNumeral.mpr ⟨hafter.symm, by simp, ⟨n, 0⟩, ?_, toNumber_whole⟩
  rw [List.length_nil, Nat.sub_zero, List.take_length, hspelling, decimal?_digits hall, ← h,
    Nat.ofDigitChars_ten_toDigits]

/-- The digits of a whole number are read up to a delimiter. -/
theorem exists_numeral_toDigits (n : Nat) {rest : List Char} (hrest : Delimits rest) :
    ∃ c s, Nat.toDigits 10 n ++ rest = c :: s ∧ c.isDigit = true ∧
      Yields (numeral (c :: s)) (.ofNat n) rest := by
  obtain ⟨c, s, hdigits⟩ := List.exists_cons_of_ne_nil (Nat.toDigits_ne_nil (n := n) (b := 10))
  have hc : c.isDigit = true :=
    Nat.isDigit_of_mem_toDigits (by decide) (by decide) (hdigits ▸ List.mem_cons_self)
  obtain ⟨u, hu, -, hread⟩ := yields_numeral_append (yields_numeral_toDigits hdigits)
  rw [List.append_nil] at hu
  refine ⟨c, u ++ rest, ?_, hc, hread rest (hrest.front_eq delimits_nil)⟩
  rw [hdigits, hu, List.cons_append]

/-- A whole number is spelled by its digits. -/
theorem derives_toDigits {scope : List String} {depth : Nat} {rest : List Char}
    (hrest : Delimits rest) :
    Derives scope depth (.operand (.number (.ofNat n))) (Nat.toDigits 10 n ++ rest) rest := by
  obtain ⟨c, s, htext, hc, hread⟩ := exists_numeral_toDigits n hrest
  rw [htext]
  exact .number (Bool.or_eq_true_iff.mpr (.inl hc)) hread

/-- An integer is spelled by its digits, behind a sign if it is negative. -/
theorem derives_signedDigits {scope : List String} {depth : Nat} {i : Int} {rest : List Char}
    (hdepth : i < 0 → 1 ≤ depth) (hrest : Delimits rest) :
    Derives scope depth (.operand (.number (.ofInt i)))
      (Json.signedDigits (i < 0) i.natAbs ++ rest) rest := by
  by_cases hsign : i < 0
  · obtain ⟨depth, rfl⟩ := Nat.exists_eq_add_of_le' (hdepth hsign)
    have hdigits : Derives scope depth (.operand (.number (.ofNat i.natAbs)))
        (Nat.toDigits 10 i.natAbs ++ rest) rest := derives_toDigits hrest
    have hvalue : (Number.ofNat i.natAbs).negate = .ofInt i := by
      rw [Number.negate_ofNat (by omega)]
      congr 1
      omega
    rw [Json.signedDigits, decide_eq_true hsign, if_pos rfl, ← hvalue]
    exact .minus hdigits
  · have hvalue : Number.ofInt i = .ofNat i.natAbs := by
      rw [← Number.ofInt_natCast]
      congr 1
      omega
    rw [Json.signedDigits, decide_eq_false hsign, if_neg Bool.false_ne_true, hvalue]
    exact derives_toDigits hrest

end

/-! ### Strings -/

/-- A part that is no pair stands for the same character as in data. -/
theorem standsFor_stringPart {p : Json.StringPart} (hp : p.isPaired = false) :
    StandsFor '\x22' p.text [p.value] := by
  cases p with
  | plain c hquote hslash hle =>
    refine standsFor_singleton hquote hslash ?_
    rintro rfl
    exact absurd hle (by decide)
  | named name c hname =>
    have hnames : ∀ e ∈ Json.names, e.1 ≠ 'x' ∧ e.1 ≠ 'u' ∧ escapedChar e.1 = [e.2] := by decide
    obtain ⟨hx, hu, hvalue⟩ := hnames _ hname
    have hstands : StandsFor '\x22' _ _ := standsFor_escapedChar (by decide) hx hu
    rwa [hvalue] at hstands
  | coded digits c hlength hcode =>
    have hstands : StandsFor '\x22' _ _ := standsFor_fourDigits (by decide) hlength
    rwa [hcode, charOfCode_toNat] at hstands
  | paired => cases hp

/-- A written string is read back, from behind its opening quote. -/
theorem yields_quoted_escapedChars (s rest : List Char) :
    Yields (quoted '\x22' (s.flatMap Json.escapedChar ++ '\x22' :: rest)) s rest := by
  obtain ⟨parts, htext, hvalue, hpaired⟩ := Json.exists_parts_escapedChars s
  have hstands := standsFor_flatMap fun p hp => standsFor_stringPart (hpaired p hp)
  rw [htext, ← List.map_eq_flatMap, hvalue] at hstands
  exact hstands.yields rest

/-! ### Literals -/

section
variable {scope : List String} {depth : Nat} {rest : List Char}

/-- What is written of a literal is derived at a depth with the literal as its value. -/
def SpellsOut (scope : List String) (depth : Nat) (l : Literal) : Prop :=
  ∀ n {rest : List Char}, Delimits rest →
    Derives scope depth (.operand l) (textAt compactStyle n l.toJson ++ rest) rest

/-- The text of a constant is its name. -/
theorem derives_constant (name : String) {l : Literal} (h : (name, l) ∈ constants)
    (hrest : Delimits rest) : Derives scope depth (.operand l) (name.toList ++ rest) rest := by
  have hnames : ∀ e ∈ constants,
      ∃ c t, e.1.toList = c :: t ∧ isNameStart c = true ∧ ∀ d ∈ t, isNamePart d = true := by
    have hall : constants.all (fun e => e.1.toList.head?.any isNameStart &&
        e.1.toList.tail.all isNamePart) = true := by decide
    intro e he
    have hread := List.all_eq_true.mp hall e he
    rw [Bool.and_eq_true] at hread
    cases htext : e.1.toList with
    | nil =>
      rw [htext] at hread
      cases hread.1
    | cons c t =>
      rw [htext] at hread
      exact ⟨c, t, rfl, hread.1, List.all_eq_true.mp hread.2⟩
  have hname : TakesName name.toList name.toList [] :=
    ⟨(List.append_nil _).symm, hnames _ h, fun _ hc => by cases hc⟩
  refine .name (hname.before_delimiter hrest) (.constant ?_)
  rw [String.ofList_toList]
  exact h

/-- A written string is a string of the grammar. -/
theorem yields_quoted_stringText (s : String) (rest : List Char) :
    ∃ t, stringText s ++ rest = '\x22' :: t ∧ Yields (quoted '\x22' t) s.toList rest := by
  refine ⟨s.toList.flatMap Json.escapedChar ++ '\x22' :: rest, ?_, yields_quoted_escapedChars _ _⟩
  rw [stringText, List.cons_append, List.append_assoc]
  rfl

theorem derives_itemsText {x : Literal} {xs : List Literal}
    (h : ∀ y ∈ x :: xs, SpellsOut scope depth y) (n : Nat) (rest : List Char) :
    Derives scope depth (.items (x :: xs))
      (itemsText compactStyle n ((x :: xs).map Literal.toJson) ++ ']' :: rest) rest := by
  induction xs generalizing x with
  | nil =>
    have hend : Delimits (']' :: rest) := delimits_cons (by decide) rest
    exact .lastItem (.expression (h x List.mem_cons_self n hend) hend.ends) rfl
  | cons y xs ih =>
    obtain ⟨hx, hxs⟩ := List.forall_mem_cons.mp h
    have hend := delimits_cons (c := ',') (by decide)
      (itemsText compactStyle n ((y :: xs).map Literal.toJson) ++ ']' :: rest)
    have hitem := Derives.item (.expression (hx n hend) hend.ends) rfl (ih hxs)
    rw [List.map_cons, List.map_cons, itemsText, List.append_assoc]
    exact hitem

theorem derives_entriesText {e : String × Literal} {es : List (String × Literal)}
    (h : ∀ f ∈ e :: es, SpellsOut scope depth f.2) (n : Nat) (rest : List Char) :
    Derives scope depth (.entries (e :: es))
      (entriesText compactStyle n ((e :: es).map fun f => (f.1, f.2.toJson)) ++ '\x7d' :: rest)
      rest := by
  have hentry : ∀ {f : String × Literal} {r : List Char}, SpellsOut scope depth f.2 → Delimits r →
      Derives scope depth (.entry f.1 f.2)
        (stringText f.1 ++ ':' :: (textAt compactStyle n f.2.toJson ++ r)) r := by
    intro f r hf hr
    obtain ⟨t, htext, hkey⟩ :=
      yields_quoted_stringText f.1 (':' :: (textAt compactStyle n f.2.toJson ++ r))
    have hkey := TakesKey.string (.inr rfl) hkey
    rw [String.ofList_toList] at hkey
    rw [htext]
    exact .pair hkey rfl (.expression (hf n hr) hr.ends)
  induction es generalizing e with
  | nil =>
    have hend : Delimits ('\x7d' :: rest) := delimits_cons (by decide) rest
    have hlast := Derives.lastEntry (hentry (h e List.mem_cons_self) hend) rfl
    rw [List.map_singleton, entriesText, List.append_assoc, List.append_assoc, List.cons_append,
      List.append_assoc]
    exact hlast
  | cons f es ih =>
    obtain ⟨he, hes⟩ := List.forall_mem_cons.mp h
    have hend := delimits_cons (c := ',') (by decide) (entriesText compactStyle n
      ((f :: es).map fun f => (f.1, f.2.toJson)) ++ '\x7d' :: rest)
    have hmore := Derives.entry (hentry he hend) rfl (ih hes)
    rw [List.map_cons, List.map_cons, entriesText, List.append_assoc, List.append_assoc,
      List.append_assoc, List.cons_append, List.cons_append, List.append_assoc]
    exact hmore

/-- A literal without fractions is spelled by its text at every depth that its nesting does not
exceed. -/
theorem spellsOut_of_isPlain (scope : List String) {l : Literal} (h : l.IsPlain)
    (hdepth : l.nesting 1 ≤ depth) :
    SpellsOut scope depth l := by
  induction h generalizing depth with
  | null =>
    intro n rest hrest
    exact derives_constant "null" (by simp [constants]) hrest
  | bool b =>
    intro n rest hrest
    cases b with
    | true => exact derives_constant "true" (by simp [constants]) hrest
    | false => exact derives_constant "false" (by simp [constants]) hrest
  | @number i hi =>
    intro n rest hrest
    have hsign : i < 0 → 1 ≤ depth := by
      intro hneg
      rw [Literal.nesting, Number.isNegative_ofInt hi, decide_eq_true hneg] at hdepth
      exact hdepth
    rw [Literal.toJson_number_ofInt hi, textAt, Json.numberText_ofInt hi]
    exact derives_signedDigits hsign hrest
  | string s =>
    intro n rest hrest
    obtain ⟨t, htext, hread⟩ := yields_quoted_stringText s rest
    have hstring : Derives scope depth (.operand (.string (String.ofList s.toList)))
      ('\x22' :: t) rest := .string (.inr rfl) hread
    rw [Literal.toJson, textAt, htext]
    rwa [String.ofList_toList] at hstring
  | @array xs _ ih =>
    intro n rest hrest
    cases depth with
    | zero => cases hdepth
    | succ depth =>
      rw [Literal.nesting, Nat.succ_le_succ_iff, Literal.itemsNesting_le_iff] at hdepth
      rw [Literal.toJson, Literal.itemsToJson_eq_map]
      cases xs with
      | nil => exact .array .noItems
      | cons x xs =>
        have hitems := derives_itemsText (fun y hy => ih y hy (hdepth y hy)) (n + 1) rest
        rw [List.map_cons, textAt, List.cons_append, List.append_assoc, List.append_assoc]
        exact .array hitems
  | @object es h ih =>
    intro n rest hrest
    cases depth with
    | zero => cases hdepth
    | succ depth =>
      rw [Literal.nesting, Nat.succ_le_succ_iff, Literal.entriesNesting_le_iff] at hdepth
      rw [Literal.toJson, Literal.entriesToJson_of_isPlain h]
      cases es with
      | nil => exact .object .noEntries
      | cons e es =>
        have hentries :=
          derives_entriesText (fun f hf => ih f hf (hdepth f hf)) (n + 1) rest
        rw [List.map_cons, textAt, List.cons_append, List.append_assoc, List.append_assoc]
        exact .object hentries

end

end DocComments.Expression
