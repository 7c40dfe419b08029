import DocComments.Json.Reader
import DocComments.Proofs.Json.Printed
import DocComments.Proofs.Text.Hexadecimal
import Mathlib.Data.List.Basic

/-!
# The parts of a string in data

A string is a row of parts, and each part stands for one character: the character itself, a letter
or mark behind a backslash, a code point in four digits, or two halves of one. The reader of strings
takes exactly the texts that are such rows, and gives the characters that they stand for.
-/

namespace DocComments.Json
open Text (Found HexDigit hexText hexNumber)

/-- A reader's answer is a value and the text behind it. -/
def Gives {α : Type} {s : List Char} (x : Option (Found α s)) (a : α) (rest : List Char) : Prop :=
  ∃ h : rest.length < s.length, x = some ⟨a, rest, h⟩

section
variable {α β : Type} {s t rest : List Char} {a : α}

theorem gives_mk (h : rest.length < s.length) : Gives (some ⟨a, rest, h⟩) a rest :=
  ⟨h, rfl⟩

@[simp] theorem gives_some {f : Found α s} :
    Gives (some f) a rest ↔ f.value = a ∧ f.rest = rest := by
  constructor
  · rintro ⟨_, h⟩
    cases h
    exact ⟨rfl, rfl⟩
  · rintro ⟨rfl, rfl⟩
    exact ⟨f.shorter, rfl⟩

theorem gives_mk_iff {b : α} (h : t.length < s.length) :
    Gives (some ⟨b, t, h⟩) a rest ↔ b = a ∧ t = rest :=
  gives_some

@[simp] theorem not_gives_none : ¬ Gives (none : Option (Found α s)) a rest := by
  rintro ⟨_, h⟩
  cases h

theorem Gives.map {x : Option (Found α s)} {f : Found α s → Found β t} {g : α → β}
    (h : Gives x a rest) (hvalue : ∀ y, (f y).value = g y.value)
    (hrest : ∀ y, (f y).rest = y.rest) :
    Gives (x.map f) (g a) rest := by
  obtain ⟨_, rfl⟩ := h
  exact gives_some.mpr ⟨hvalue _, hrest _⟩

theorem exists_of_gives_map {x : Option (Found α s)} {f : Found α s → Found β t} {g : α → β}
    {b : β} (h : Gives (x.map f) b rest) (hvalue : ∀ y, (f y).value = g y.value)
    (hrest : ∀ y, (f y).rest = y.rest) : ∃ a, Gives x a rest ∧ b = g a := by
  cases x with
  | none => exact absurd h not_gives_none
  | some y =>
    obtain ⟨rfl, rfl⟩ := gives_some.mp h
    exact ⟨y.value, gives_some.mpr ⟨rfl, (hrest y).symm⟩, hvalue y⟩

theorem Gives.map_same {x : Option (Found α s)} {f : Found α s → Found α t} (h : Gives x a rest)
    (hvalue : ∀ y, (f y).value = y.value) (hrest : ∀ y, (f y).rest = y.rest) :
    Gives (x.map f) a rest :=
  h.map (g := id) hvalue hrest

end

/-! ### Parts -/

/-- The letters and marks that name characters behind a backslash: those that are written, and the
slash, which is only read. -/
def names : List (Char × Char) :=
  ('/', '/') :: letters

/-- The number of a code point that is given in two halves. -/
def pairedNumber (first second : Nat) : Nat :=
  0x10000 + (first - 0xD800) * 0x400 + (second - 0xDC00)

/-- A part of a string. What a code point or two halves are written for is a character, so half a
pair alone is no part. -/
inductive StringPart
  | plain (c : Char) (hquote : c ≠ '\x22') (hslash : c ≠ '\\') (hle : 32 ≤ c.toNat)
  | named (name c : Char) (hname : (name, c) ∈ names)
  | coded (digits : List HexDigit) (c : Char) (hlength : digits.length = 4)
      (hcode : hexNumber digits = c.toNat)
  | paired (first second : List HexDigit) (c : Char) (hfirst : first.length = 4)
      (hsecond : second.length = 4) (hhigh : isFirstHalf (hexNumber first) = true)
      (hlow : isSecondHalf (hexNumber second) = true)
      (hcode : pairedNumber (hexNumber first) (hexNumber second) = c.toNat)

namespace StringPart

/-- A part as it is written. -/
def text : StringPart → List Char
  | plain c _ _ _ => [c]
  | named name _ _ => ['\\', name]
  | coded digits _ _ _ => '\\' :: 'u' :: hexText digits
  | paired first second _ _ _ _ _ _ =>
    '\\' :: 'u' :: (hexText first ++ '\\' :: 'u' :: hexText second)

/-- The character that a part stands for. -/
def value : StringPart → Char
  | plain c _ _ _ => c
  | named _ c _ => c
  | coded _ c _ _ => c
  | paired _ _ c _ _ _ _ _ => c

theorem length_text_pos (p : StringPart) : 0 < p.text.length := by
  cases p <;> exact Nat.succ_pos _

/-- Whether a part is written as two halves. -/
def isPaired : StringPart → Bool
  | paired _ _ _ _ _ _ _ _ => true
  | _ => false

end StringPart

/-- Every way of writing a character is a part that stands for it. -/
theorem WrittenChar.exists_part {c : Char} {text : List Char} (h : WrittenChar c text) :
    ∃ p : StringPart, p.text = text ∧ p.value = c ∧ p.isPaired = false := by
  cases h with
  | letter hl => exact ⟨.named _ c (List.mem_cons_of_mem _ hl), rfl, rfl, rfl⟩
  | @code _ hlt =>
    let digits : List HexDigit := [⟨0, false⟩, ⟨0, false⟩, ⟨⟨c.toNat / 16, by omega⟩, false⟩,
      ⟨⟨c.toNat % 16, by omega⟩, false⟩]
    have hcode : hexNumber digits = c.toNat := by
      simp only [digits, hexNumber, Text.hexNumberFrom, List.foldl_cons, List.foldl_nil,
        Fin.val_zero]
      omega
    exact ⟨.coded digits c rfl hcode, rfl, rfl, rfl⟩
  | plain hquote hslash hle => exact ⟨.plain c hquote hslash hle, rfl, rfl, rfl⟩

/-- What is written of a string is a row of parts without pairs. -/
theorem exists_parts_escapedChars (s : List Char) :
    ∃ parts : List StringPart, parts.flatMap StringPart.text = s.flatMap escapedChar ∧
      parts.map StringPart.value = s ∧ ∀ p ∈ parts, p.isPaired = false := by
  induction s with
  | nil => exact ⟨[], rfl, rfl, fun _ hp => absurd hp List.not_mem_nil⟩
  | cons c s ih =>
    obtain ⟨parts, htext, hvalue, hpaired⟩ := ih
    obtain ⟨p, hp, rfl, hfirst⟩ := (writtenChar c).exists_part
    refine ⟨p :: parts, ?_, ?_, List.forall_mem_cons.mpr ⟨hfirst, hpaired⟩⟩
    · rw [List.flatMap_cons, List.flatMap_cons, hp, htext]
    · rw [List.map_cons, hvalue]

section
variable {s t u rest : List Char} {c : Char} {n : Nat} {digits : List HexDigit}

/-! ### Units of four digits -/

theorem hexDigit?_char (d : HexDigit) : hexDigit? d.char = some d.value.val := by
  have hall : ∀ (value : Fin 16) (capital : Bool),
      hexDigit? (HexDigit.char ⟨value, capital⟩) = some value.val := by decide
  exact hall d.value d.capital

/-- A character among those of consecutive digits is the one of its digit. -/
theorem exists_digit (low high : Nat) (capital : Bool) {k : Nat} (hhigh : high ≤ 16)
    (hdigits : ∀ v : Fin 16, low ≤ v.val → v.val < high →
      HexDigit.char ⟨v, capital⟩ = Char.ofNat (v.val + k))
    (hc : low + k ≤ c.toNat ∧ c.toNat < high + k) :
    ∃ d : HexDigit, d.char = c ∧ d.value.val = c.toNat - k := by
  have hback : c.toNat - k + k = c.toNat := by omega
  refine ⟨⟨⟨c.toNat - k, by omega⟩, capital⟩, ?_, rfl⟩
  rw [hdigits _ (show low ≤ c.toNat - k by omega) (show c.toNat - k < high by omega)]
  change Char.ofNat (c.toNat - k + k) = c
  rw [hback, Char.ofNat_toNat]

theorem exists_of_hexDigit?_eq_some (h : hexDigit? c = some n) :
    ∃ d : HexDigit, d.char = c ∧ d.value.val = n := by
  unfold hexDigit? at h
  split at h
  · rename_i hfigure
    have hc : 48 ≤ c.toNat ∧ c.toNat ≤ 57 := Char.isDigit_iff_toNat.mp hfigure
    rw [← Option.some.inj h]
    exact exists_digit 0 10 false (by decide) (by decide) (by omega)
  split at h
  · rename_i hsmall
    rw [Bool.and_eq_true, decide_eq_true_iff, decide_eq_true_iff] at hsmall
    have hc : 97 ≤ c.toNat ∧ c.toNat ≤ 102 := hsmall
    rw [← Option.some.inj h]
    exact exists_digit 10 16 false (by decide) (by decide) (by omega)
  split at h
  · rename_i hcapital
    rw [Bool.and_eq_true, decide_eq_true_iff, decide_eq_true_iff] at hcapital
    have hc : 65 ≤ c.toNat ∧ c.toNat ≤ 70 := hcapital
    rw [← Option.some.inj h]
    exact exists_digit 10 16 true (by decide) (by decide) (by omega)
  · cases h

theorem hexUnit?_hexText (hlength : digits.length = 4) (s : List Char) :
    hexUnit? (hexText digits ++ s) = some (hexNumber digits) := by
  obtain ⟨a, b, c, d, rfl⟩ := List.length_eq_four.mp hlength
  simp only [hexText, List.map_cons, List.map_nil, List.cons_append, hexUnit?, hexDigit?_char,
    hexNumber, Text.hexNumberFrom, List.foldl_cons, List.foldl_nil, Option.some.injEq]
  omega

theorem drop_hexText (hlength : digits.length = 4) (s : List Char) :
    (hexText digits ++ s).drop 4 = s :=
  List.drop_left' (by rw [Text.length_hexText, hlength])

theorem drop_pair {first second : List HexDigit} (hfirst : first.length = 4)
    (hsecond : second.length = 4) (s : List Char) :
    (hexText first ++ '\\' :: 'u' :: (hexText second ++ s)).drop 10 = s := by
  rw [show (10 : Nat) = 4 + (2 + 4) from rfl, ← List.drop_drop, drop_hexText hfirst,
    ← List.drop_drop]
  exact drop_hexText hsecond s

theorem hexUnit?_eq_some_iff :
    hexUnit? s = some n ↔
      ∃ digits rest, digits.length = 4 ∧ hexNumber digits = n ∧ s = hexText digits ++ rest := by
  constructor
  · intro h
    unfold hexUnit? at h
    split at h
    · rename_i a b c d rest
      split at h
      · rename_i va vb vc vd ha hb hc hd
        obtain ⟨a, rfl, rfl⟩ := exists_of_hexDigit?_eq_some ha
        obtain ⟨b, rfl, rfl⟩ := exists_of_hexDigit?_eq_some hb
        obtain ⟨c, rfl, rfl⟩ := exists_of_hexDigit?_eq_some hc
        obtain ⟨d, rfl, rfl⟩ := exists_of_hexDigit?_eq_some hd
        refine ⟨[a, b, c, d], rest, rfl, ?_, rfl⟩
        rw [← Option.some.inj h]
        simp only [hexNumber, Text.hexNumberFrom, List.foldl_cons, List.foldl_nil]
        omega
      · cases h
    · cases h
  · rintro ⟨digits, rest, hlength, rfl, rfl⟩
    exact hexUnit?_hexText hlength rest

/-- No character has half a pair for its code point. -/
theorem isHalf_toNat (c : Char) :
    isFirstHalf c.toNat = false ∧ isSecondHalf c.toNat = false := by
  have hvalid : c.toNat < 0xD800 ∨ 0xDFFF < c.toNat ∧ c.toNat < 0x110000 := c.valid
  simp only [isFirstHalf, isSecondHalf, Bool.and_eq_false_iff, decide_eq_false_iff_not]
  omega

theorem toNat_ofNat (h : n.isValidChar) : (Char.ofNat n).toNat = n := by
  rw [Char.ofNat, dif_pos h]
  rfl

theorem hexNumber_lt (hlength : digits.length = 4) : hexNumber digits < 0x10000 := by
  obtain ⟨a, b, c, d, rfl⟩ := List.length_eq_four.mp hlength
  simp only [hexNumber, Text.hexNumberFrom, List.foldl_cons, List.foldl_nil]
  omega

/-- Four digits that are not half a pair are the code point of a character. -/
theorem isValidChar_of_isHalf (hlt : n < 0x10000) (hfirst : isFirstHalf n = false)
    (hsecond : isSecondHalf n = false) : n.isValidChar := by
  simp only [isFirstHalf, isSecondHalf, Bool.and_eq_false_iff, decide_eq_false_iff_not]
    at hfirst hsecond
  unfold Nat.isValidChar
  omega

/-- Two halves are the code point of a character. -/
theorem isValidChar_pairedNumber {m : Nat} (hfirst : isFirstHalf n = true)
    (hsecond : isSecondHalf m = true) : (pairedNumber n m).isValidChar := by
  simp only [isFirstHalf, isSecondHalf, Bool.and_eq_true, decide_eq_true_iff] at hfirst hsecond
  unfold Nat.isValidChar pairedNumber
  omega

theorem pairedChar_eq {m : Nat} : pairedChar n m = Char.ofNat (pairedNumber n m) := by
  unfold pairedChar pairedNumber
  rfl

/-! ### Code points -/

theorem gives_codeEscape?_coded (hlength : digits.length = 4) (hcode : hexNumber digits = c.toNat)
    (s : List Char) : Gives (codeEscape? (hexText digits ++ s)) c s := by
  obtain ⟨hfirst, hsecond⟩ := isHalf_toNat c
  simp only [codeEscape?, hexUnit?_hexText hlength, hcode, hfirst, hsecond, Bool.false_eq_true,
    if_false]
  exact gives_some.mpr ⟨Char.ofNat_toNat c, drop_hexText hlength s⟩

theorem gives_codeEscape?_paired {first second : List HexDigit} (hfirst : first.length = 4)
    (hsecond : second.length = 4) (hhigh : isFirstHalf (hexNumber first) = true)
    (hlow : isSecondHalf (hexNumber second) = true)
    (hcode : pairedNumber (hexNumber first) (hexNumber second) = c.toNat) (s : List Char) :
    Gives (codeEscape? (hexText first ++ '\\' :: 'u' :: (hexText second ++ s))) c s := by
  have hnot : isSecondHalf (hexNumber first) = false := by
    simp only [isFirstHalf, isSecondHalf, Bool.and_eq_true, decide_eq_true_iff,
      Bool.and_eq_false_iff, decide_eq_false_iff_not] at hhigh ⊢
    omega
  simp only [codeEscape?, hexUnit?_hexText hfirst, hexUnit?_hexText hsecond, hnot, hhigh, hlow,
    drop_hexText hfirst, pairedChar_eq, hcode, Char.ofNat_toNat, Bool.false_eq_true, if_false,
    if_true]
  exact gives_some.mpr ⟨rfl, drop_pair hfirst hsecond s⟩

/-- What is read behind the letter that announces a code point is a part. -/
theorem exists_part_of_codeEscape? (h : Gives (codeEscape? s) c rest) :
    ∃ p : StringPart, '\\' :: 'u' :: s = p.text ++ rest ∧ p.value = c := by
  unfold codeEscape? at h
  split at h
  · exact absurd h not_gives_none
  rename_i n hunit
  obtain ⟨digits, behind, hlength, rfl, rfl⟩ := hexUnit?_eq_some_iff.mp hunit
  split at h
  · exact absurd h not_gives_none
  rename_i hsecond
  rw [Bool.not_eq_true] at hsecond
  split at h
  · rename_i hfirst
    split at h
    · rename_i t hbehind
      rw [drop_hexText hlength] at hbehind
      subst hbehind
      split at h
      · rename_i m hunit
        obtain ⟨second, more, hlength', rfl, rfl⟩ := hexUnit?_eq_some_iff.mp hunit
        split at h
        · rename_i hlow
          rw [gives_mk_iff, drop_pair hlength hlength', pairedChar_eq] at h
          obtain ⟨rfl, rfl⟩ := h
          have hcode := toNat_ofNat (isValidChar_pairedNumber hfirst hlow)
          refine ⟨.paired digits second _ hlength hlength' hfirst hlow hcode.symm, ?_, rfl⟩
          simp [StringPart.text]
        · exact absurd h not_gives_none
      · exact absurd h not_gives_none
    · exact absurd h not_gives_none
  · rename_i hfirst
    rw [Bool.not_eq_true] at hfirst
    rw [gives_mk_iff, drop_hexText hlength] at h
    obtain ⟨rfl, rfl⟩ := h
    have hcode := toNat_ofNat (isValidChar_of_isHalf (hexNumber_lt hlength) hfirst hsecond)
    exact ⟨.coded digits _ hlength hcode.symm, rfl, rfl⟩

/-! ### Reading strings -/

theorem gives_quoted?_close (s : List Char) : Gives (quoted? ('\x22' :: s)) [] s := by
  rw [quoted?, if_pos rfl]
  exact gives_some.mpr ⟨rfl, rfl⟩

theorem gives_quoted?_escape (hc : Gives (escape? s) c t) (h : Gives (quoted? t) u rest) :
    Gives (quoted? ('\\' :: s)) (c :: u) rest := by
  obtain ⟨_, hc⟩ := hc
  rw [quoted?, if_neg (by decide), if_pos rfl, hc]
  exact h.map (g := (c :: ·)) (fun _ => rfl) fun _ => rfl

/-- A part is read as the character that it stands for, whatever stands behind it. -/
theorem StringPart.gives_quoted? (p : StringPart) (h : Gives (quoted? s) t rest) :
    Gives (quoted? (p.text ++ s)) (p.value :: t) rest := by
  cases p with
  | plain c hquote hslash hle =>
    rw [text, List.singleton_append, quoted?, if_neg hquote, if_neg hslash,
      if_neg (Nat.not_lt.mpr hle)]
    exact h.map (g := (c :: ·)) (fun _ => rfl) fun _ => rfl
  | named name c hname =>
    have hnamed : ∀ e ∈ names, e.1 ≠ 'u' ∧ namedChar? e.1 = some e.2 := by decide
    obtain ⟨hu, hchar⟩ := hnamed _ hname
    have hescape : Gives (escape? (name :: s)) c s := by
      rw [escape?, hchar]
      · exact gives_some.mpr ⟨rfl, rfl⟩
      · exact hu
    exact gives_quoted?_escape hescape h
  | coded digits c hlength hcode =>
    exact gives_quoted?_escape (gives_codeEscape?_coded hlength hcode s) h
  | paired first second c hfirst hsecond hhigh hlow hcode =>
    have hescape := gives_codeEscape?_paired hfirst hsecond hhigh hlow hcode s
    have hread := gives_quoted?_escape (s := 'u' :: _) hescape h
    rw [text, List.cons_append, List.cons_append, List.append_assoc]
    exact hread

theorem gives_quoted?_parts (parts : List StringPart) (rest : List Char) :
    Gives (quoted? (parts.flatMap StringPart.text ++ '\x22' :: rest)) (parts.map StringPart.value)
      rest := by
  induction parts with
  | nil => exact gives_quoted?_close rest
  | cons p parts ih =>
    rw [List.flatMap_cons, List.append_assoc]
    exact p.gives_quoted? ih

/-- A written string is read back, from behind its opening quote. -/
theorem gives_quoted?_escapedChars (s rest : List Char) :
    Gives (quoted? (s.flatMap escapedChar ++ '\x22' :: rest)) s rest := by
  obtain ⟨parts, htext, hvalue, -⟩ := exists_parts_escapedChars s
  have hread := gives_quoted?_parts parts rest
  rwa [htext, hvalue] at hread

theorem mem_names_of_namedChar? {name : Char} (h : namedChar? name = some c) :
    (name, c) ∈ names := by
  unfold namedChar? at h
  split at h
  all_goals first
    | cases h; decide
    | cases h

/-- Whatever is read behind a backslash is a part. -/
theorem exists_part_of_escape? (h : Gives (escape? s) c rest) :
    ∃ p : StringPart, '\\' :: s = p.text ++ rest ∧ p.value = c := by
  unfold escape? at h
  split at h
  · exact absurd h not_gives_none
  · exact exists_part_of_codeEscape? h
  · rename_i name s hu
    cases hchar : namedChar? name with
    | none =>
      rw [hchar] at h
      exact absurd h not_gives_none
    | some d =>
      have hnamed : (name, d) ∈ names := mem_names_of_namedChar? hchar
      rw [hchar] at h
      obtain ⟨rfl, rfl⟩ := gives_some.mp h
      exact ⟨.named name _ hnamed, rfl, rfl⟩

/-- A text that is read starts with the closing quote or with a part. -/
theorem exists_of_gives_quoted? {v : List Char} (h : Gives (quoted? s) v rest) :
    (s = '\x22' :: rest ∧ v = []) ∨ ∃ (p : StringPart) (t u : List Char),
      s = p.text ++ t ∧ v = p.value :: u ∧ Gives (quoted? t) u rest := by
  cases s with
  | nil =>
    rw [quoted?] at h
    exact absurd h not_gives_none
  | cons d s =>
    rw [quoted?] at h
    by_cases hclose : d = '\x22'
    · rw [if_pos hclose, gives_some] at h
      obtain ⟨rfl, rfl⟩ := h
      exact .inl ⟨by rw [hclose]; rfl, rfl⟩
    rw [if_neg hclose] at h
    by_cases hslash : d = '\\'
    · rw [if_pos hslash] at h
      cases hescape : escape? s with
      | none =>
        rw [hescape] at h
        exact absurd h not_gives_none
      | some f =>
        rw [hescape] at h
        obtain ⟨u, hu, rfl⟩ := exists_of_gives_map (g := (f.value :: ·)) h (fun _ => rfl)
          fun _ => rfl
        obtain ⟨p, hp, hvalue⟩ := exists_part_of_escape? (hescape ▸ gives_some.mpr ⟨rfl, rfl⟩)
        exact .inr ⟨p, f.rest, u, hslash ▸ hp, by rw [hvalue], hu⟩
    rw [if_neg hslash] at h
    by_cases hcontrol : d.toNat < 32
    · rw [if_pos hcontrol] at h
      exact absurd h not_gives_none
    · rw [if_neg hcontrol] at h
      obtain ⟨u, hu, rfl⟩ := exists_of_gives_map (g := (d :: ·)) h (fun _ => rfl) fun _ => rfl
      exact .inr ⟨.plain d hclose hslash (Nat.le_of_not_lt hcontrol), s, u, rfl, rfl, hu⟩

/-- The reader of strings takes the rows of parts, and nothing else, up to the first quote that
stands between parts. -/
theorem gives_quoted?_iff {v : List Char} :
    Gives (quoted? s) v rest ↔ ∃ parts : List StringPart,
      s = parts.flatMap StringPart.text ++ '\x22' :: rest ∧ v = parts.map StringPart.value := by
  constructor
  · intro h
    induction hn : s.length using Nat.strongRecOn generalizing s v with
    | ind n ih =>
      rcases exists_of_gives_quoted? h with ⟨rfl, rfl⟩ | ⟨p, t, u, rfl, rfl, hread⟩
      · exact ⟨[], rfl, rfl⟩
      · have hpos := p.length_text_pos
        rw [List.length_append] at hn
        obtain ⟨parts, rfl, rfl⟩ := ih t.length (by omega) hread rfl
        exact ⟨p :: parts, by rw [List.flatMap_cons, List.append_assoc], rfl⟩
  · rintro ⟨parts, rfl, rfl⟩
    exact gives_quoted?_parts parts rest

end

end DocComments.Json
