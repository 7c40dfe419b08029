import DocComments.Proofs.Expression.Evaluation
import DocComments.Proofs.Expression.Quoted
import DocComments.Proofs.Text.Hexadecimal

/-!
# What stands between quotes

A string is read piece by piece, and what a piece stands for does not depend on what follows it. So
it is enough to know the pieces: a character by itself, and each form of escape. Whoever writes
strings, in whichever notation, is read back by putting pieces together.
-/

namespace DocComments.Expression
open Text (HexDigit hexText hexNumber hexNumberFrom)

/-- Between quotes a text stands for characters, whatever follows it. -/
def StandsFor (quote : Char) (u v : List Char) : Prop :=
  ∀ s t rest, Yields (quoted quote s) t rest → Yields (quoted quote (u ++ s)) (v ++ t) rest

section
variable {quote : Char} {u v u' v' : List Char}

/-! ### Pieces put together -/

theorem standsFor_nil : StandsFor quote [] [] :=
  fun _ _ _ h => h

theorem StandsFor.append (h : StandsFor quote u v) (h' : StandsFor quote u' v') :
    StandsFor quote (u ++ u') (v ++ v') := by
  intro s t rest hs
  rw [List.append_assoc, List.append_assoc]
  exact h _ _ _ (h' s t rest hs)

theorem standsFor_flatMap {α : Type} {f g : α → List Char} {pieces : List α}
    (h : ∀ p ∈ pieces, StandsFor quote (f p) (g p)) :
    StandsFor quote (pieces.flatMap f) (pieces.flatMap g) := by
  induction pieces with
  | nil => exact standsFor_nil
  | cons p pieces ih =>
    obtain ⟨hp, hpieces⟩ := List.forall_mem_cons.mp h
    rw [List.flatMap_cons, List.flatMap_cons]
    exact hp.append (ih hpieces)

/-- What stands in front of the closing quote is the whole string. -/
theorem StandsFor.yields (h : StandsFor quote u v) (rest : List Char) :
    Yields (quoted quote (u ++ quote :: rest)) v rest := by
  have hread := h (quote :: rest) [] rest (yields_quoted_close.mpr ⟨rfl, rfl⟩)
  rwa [List.append_nil] at hread

/-- A string in quotes evaluates to what stands between them, in every setting. -/
theorem StandsFor.evaluate_eq (h : StandsFor quote u v) (hquote : quote = '\x27' ∨ quote = '\x22')
    (setting : Setting) :
    evaluate setting (quote :: (u ++ [quote])) = .ok (.string (String.ofList v)) :=
  evaluate_of_operand (.string hquote (h.yields []))

/-! ### Characters and escapes -/

/-- A character that is no quote and no backslash stands for itself, a line end only in a template. -/
theorem standsFor_singleton {c : Char} (hquote : c ≠ quote) (hslash : c ≠ '\\')
    (hline : c = '\n' → quote = '\x60') : StandsFor quote [c] [c] := by
  intro s t rest h
  exact (yields_quoted_cons hquote hslash).mpr ⟨hline, t, h, rfl⟩

/-- An escape stands for what its reader yields in front of every text. -/
theorem standsFor_escape (hquote : quote ≠ '\\') (h : ∀ s, Yields (escape (u ++ s)) v s) :
    StandsFor quote ('\\' :: u) v := by
  intro s t rest hs
  exact (yields_quoted_escape hquote).mpr ⟨v, s, t, h s, hs, rfl⟩

theorem standsFor_escapedChar (hquote : quote ≠ '\\') {c : Char} (hx : c ≠ 'x') (hu : c ≠ 'u') :
    StandsFor quote ['\\', c] (escapedChar c) := by
  refine standsFor_escape (u := [c]) hquote ?_
  intro s
  rw [List.singleton_append, escape_char hx hu]
  exact yields_ok.mpr ⟨rfl, rfl⟩

end

/-! ### Code points -/

section
variable {quote : Char} {digits : List HexDigit}

theorem digitValue?_char (d : HexDigit) : digitValue? 16 d.char = some d.value.val := by
  have hall : ∀ (value : Fin 16) (capital : Bool),
      digitValue? 16 (HexDigit.char ⟨value, capital⟩) = some value.val := by decide
  exact hall d.value d.capital

theorem isHexDigit_char (d : HexDigit) : isHexDigit d.char = true := by
  rw [isHexDigit, digitValue?_char, Option.isSome_some]

theorem isHexDigit_of_mem_hexText {c : Char} (hc : c ∈ hexText digits) : isHexDigit c = true := by
  obtain ⟨d, -, rfl⟩ := List.mem_map.mp hc
  exact isHexDigit_char d

/-- Exactly the digits that are asked for are read. -/
theorem hexValue_hexText (start : Nat) (digits : List HexDigit) (s : List Char) :
    hexValue digits.length start (hexText digits ++ s) = .ok (hexNumberFrom start digits) := by
  induction digits generalizing start with
  | nil => rfl
  | cons d digits ih =>
    simp only [hexText, List.map_cons, List.length_cons, List.cons_append, hexValue,
      digitValue?_char]
    exact ih (16 * start + d.value)

theorem wholeValue?_hexText (hne : digits ≠ []) :
    wholeValue? 16 (hexText digits) = some (hexNumber digits) := by
  have hfold : ∀ start, (hexText digits).foldlM
      (fun n c => (digitValue? 16 c).map (16 * n + ·)) start = some (hexNumberFrom start digits) := by
    clear hne
    intro start
    induction digits generalizing start with
    | nil => rfl
    | cons d digits ih =>
      simp only [hexText, List.map_cons, List.foldlM_cons, digitValue?_char, Option.map_some]
      exact ih (16 * start + d.value)
  have htext : hexText digits ≠ [] := by
    rwa [hexText, ne_eq, List.map_eq_nil_iff]
  rw [wholeValue?, if_neg htext]
  exact hfold 0

/-- The character of a code point that is a character's own is that character. -/
theorem charOfCode_toNat (c : Char) : charOfCode c.toNat = c := by
  rw [charOfCode, if_pos (show c.toNat.isValidChar from c.valid), Char.ofNat_toNat]

theorem yields_fixedCode_hexText (digits : List HexDigit) (mark : Char) (s : List Char) :
    Yields (fixedCode digits.length mark (hexText digits ++ s)) [charOfCode (hexNumber digits)] s :=
  yields_fixedCode.mpr
    ⟨hexNumber digits, hexValue_hexText 0 digits s, rfl,
      by rw [← Text.length_hexText digits, List.drop_left]⟩

theorem standsFor_twoDigits (hquote : quote ≠ '\\') (hlength : digits.length = 2) :
    StandsFor quote ('\\' :: 'x' :: hexText digits) [charOfCode (hexNumber digits)] := by
  refine standsFor_escape (u := 'x' :: hexText digits) hquote ?_
  intro s
  have hread := yields_fixedCode_hexText digits 'x' s
  rw [hlength] at hread
  exact hread

theorem standsFor_fourDigits (hquote : quote ≠ '\\') (hlength : digits.length = 4) :
    StandsFor quote ('\\' :: 'u' :: hexText digits) [charOfCode (hexNumber digits)] := by
  refine standsFor_escape (u := 'u' :: hexText digits) hquote ?_
  intro s
  have hread := yields_fixedCode_hexText digits 'u' s
  rw [hlength] at hread
  have hbrace : (hexText digits ++ s).head? ≠ some '\x7b' := by
    obtain ⟨d, more, rfl⟩ := List.exists_cons_of_length_pos (by omega : 0 < digits.length)
    intro hd
    have hhex := isHexDigit_char d
    rw [Option.some.inj hd] at hhex
    cases hhex
  rw [List.cons_append, escape_fixedCode hbrace]
  exact hread

theorem standsFor_braced (hquote : quote ≠ '\\') (hne : digits ≠ [])
    (hlimit : hexNumber digits < 2 ^ 32) :
    StandsFor quote ('\\' :: 'u' :: '\x7b' :: (hexText digits ++ ['\x7d']))
      [charOfCode (hexNumber digits)] := by
  refine standsFor_escape (u := 'u' :: '\x7b' :: (hexText digits ++ ['\x7d'])) hquote ?_
  intro s
  refine yields_bracedCode.mpr ⟨hexText digits, [], hexNumber digits, ?_, ?_, rfl,
    wholeValue?_hexText hne, hlimit, rfl⟩
  · simp
  · exact fun c hc => isHexDigit_of_mem_hexText hc

end

end DocComments.Expression
