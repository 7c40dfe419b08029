import DocComments.Proofs.Expression.Offset
import DocComments.Proofs.Expression.Quoted

/-!
# Walks over names, numerals and strings

Each walk over a part of a text gives what the reader for that part gives, and stops where the
reader does. Where a walk goes on byte by byte it is over characters that take one byte each, so
what stands beside them is not divided.
-/

namespace DocComments.Expression
open Text (Found trimStart firstMark afterMark)

/-- What a walk is to give for what a reader gives, where it has gone on to the given end of the
text that the reader leaves. -/
def outcomeAt {α : Type} {s : List Char} (left : List Char → List Char) (r : Result α s) :
    Outcome α :=
  r.map fun f => (f.value, left f.rest)

/-- What a walk is to give that stops where the reader does. -/
abbrev outcome {α : Type} {s : List Char} (r : Result α s) : Outcome α :=
  outcomeAt (fun t => t) r

/-- What a walk is to give that has gone on over the blanks behind the value. -/
abbrev trimmed {α : Type} {s : List Char} (r : Result α s) : Outcome α :=
  outcomeAt trimStart r

section
variable {α β : Type} {text s t u : List Char} {walk : Walk α} {next : α → Walk β}
  {left : List Char → List Char} {r : Result α t}

/-- A walk that goes on from a value fails where no value was found. -/
theorem Runs.bind_result {target : Outcome β} (h : Runs text walk s (outcomeAt left r))
    (herror : ∀ fault, r = .error fault → target = .error fault)
    (hok : ∀ f, r = .ok f → left f.rest <:+ text →
      Runs text (next f.value) (left f.rest) target) :
    Runs text (walk >>= next) s target := by
  cases hr : r with
  | error fault =>
    rw [hr] at h
    rw [herror fault hr]
    exact h.bind_error
  | ok f =>
    rw [hr] at h
    exact h.bind_ok (hok f hr h.2)

/-- A reader that goes on from an answer changes its value and keeps the text behind it. -/
theorem Runs.map_result {g : Found α t → Found β u} {change : α → β}
    (h : Runs text walk s (outcomeAt left r)) (hvalue : ∀ f, (g f).value = change f.value)
    (hrest : ∀ f, (g f).rest = f.rest) :
    Runs text (walk >>= fun a => Pure.pure (change a)) s (outcomeAt left (r.map g)) := by
  refine h.bind_result (fun fault hr => by rw [hr]; rfl) fun f hr htext => ?_
  have hgiven : outcomeAt left (r.map g) = .ok (change f.value, left f.rest) := by
    rw [hr, ← hvalue, ← hrest]
    rfl
  rw [hgiven]
  exact .pure htext _

/-- Reading a larger text from behind its front changes nothing. -/
theorem Runs.of_result {g : Found α t → Found α u} (h : Runs text walk s (outcomeAt left r))
    (hvalue : ∀ f, (g f).value = f.value) (hrest : ∀ f, (g f).rest = f.rest) :
    Runs text walk s (outcomeAt left (r.map g)) := by
  have hgiven : outcomeAt left (r.map g) = outcomeAt left r := by
    cases r with
    | error fault => rfl
    | ok f =>
      change Except.ok ((g f).value, left (g f).rest) = _
      rw [hvalue, hrest]
      rfl
  rwa [hgiven]

end

/-! ### Names -/

section
variable {text s : List Char}

/-- The longest name that starts with a character. -/
theorem runs_name (hs : s <:+ text) :
    Runs text (Walk.name text) s
      (.ok (String.ofList (s.takeWhile isNamePart), s.dropWhile isNamePart)) := by
  have hrest : s.dropWhile isNamePart <:+ text := (List.dropWhile_suffix isNamePart).trans hs
  exact (runs_get hs).bind_ok <|
    (runs_skipWhile (fun _ _ => rfl) hs (length_lt_rounds hs)).bind_ok <|
    (runs_spelling List.takeWhile_append_dropWhile hs).bind_ok (.pure hrest _)

theorem runs_named (scope : List String) (name : String) (hs : s <:+ text) :
    Runs text (Walk.named text scope name) s ((valueOfName scope name).map (·, s)) := by
  rw [Walk.named, valueOfName]
  split_ifs <;> first | exact .pure hs _ | exact .throw s rfl trivial

end

/-! ### Numerals -/

/-- What may stand in a numeral takes one byte. -/
theorem utf8Size_of_isMarkedDigit {c : Char} (h : isMarkedDigit c = true) : c.utf8Size = 1 := by
  rw [Char.utf8Size_eq_one_iff]
  unfold isMarkedDigit Char.isAlphanum Char.isAlpha Char.isUpper Char.isLower Char.isDigit at h
  simp only [Bool.or_eq_true, Bool.and_eq_true, decide_eq_true_eq, beq_iff_eq] at h
  rcases h with ((⟨-, h⟩ | ⟨-, h⟩) | ⟨-, h⟩) | rfl
  · exact UInt32.le_trans h (by decide)
  · exact UInt32.le_trans h (by decide)
  · exact UInt32.le_trans h (by decide)
  · decide

theorem utf8Size_of_isDigit {c : Char} (h : c.isDigit = true) : c.utf8Size = 1 :=
  utf8Size_of_isMarkedDigit (by simp [isMarkedDigit, Char.isAlphanum, h])

theorem utf8Size_of_isDigitOrGap {c : Char} (h : isDigitOrGap c = true) : c.utf8Size = 1 := by
  rw [isDigitOrGap, Bool.or_eq_true] at h
  rcases h with h | h
  · exact utf8Size_of_isDigit h
  · exact utf8Size_of_isMarkedDigit (by rw [isMarkedDigit, h, Bool.or_true])

theorem utf8Size_of_isHexDigit {c : Char} (h : isHexDigit c = true) : c.utf8Size = 1 := by
  cases hc : c.isAlphanum with
  | true => exact utf8Size_of_isMarkedDigit (by rw [isMarkedDigit, hc, Bool.true_or])
  | false =>
    unfold Char.isAlphanum Char.isAlpha at hc
    simp only [Bool.or_eq_false_iff] at hc
    simp [isHexDigit, digitValue?, hc] at h

section
variable {text s : List Char} {c : Char}

theorem runs_fraction (hs : s <:+ text) :
    Runs text (Walk.fraction text) s (.ok ((), afterFraction s)) := by
  refine (runs_peek hs).bind_ok ?_
  cases s with
  | nil => exact .pure hs ()
  | cons c s =>
    rw [List.head?_cons, afterFraction]
    by_cases hc : c = '.'
    · rw [if_pos (congrArg some hc), if_pos hc]
      have hrest := (List.suffix_cons c s).trans hs
      exact (runs_step hs (hc ▸ rfl)).bind_ok
        (runs_skipBytes (fun _ => utf8Size_of_isDigitOrGap) hrest)
    · rw [if_neg fun h => hc (Option.some.inj h), if_neg hc]
      exact .pure hs ()

theorem runs_sign (hs : s <:+ text) : Runs text (Walk.sign text) s (.ok ((), afterSign s)) := by
  refine (runs_peek hs).bind_ok ?_
  cases s with
  | nil => exact .pure hs ()
  | cons c s =>
    rw [List.head?_cons, Option.any_some, afterSign]
    by_cases hc : c = '+' ∨ c = '-'
    · rw [if_pos (by simpa using hc), if_pos (by simpa using hc)]
      exact runs_step hs (by rcases hc with rfl | rfl <;> rfl)
    · rw [if_neg (by simpa using hc), if_neg (by simpa using hc)]
      exact .pure hs ()

theorem runs_exponent (hs : s <:+ text) :
    Runs text (Walk.exponent text) s (.ok ((), afterExponent s)) := by
  refine (runs_peek hs).bind_ok ?_
  cases s with
  | nil => exact .pure hs ()
  | cons c s =>
    rw [List.head?_cons, Option.any_some, afterExponent]
    by_cases hc : c = 'e' ∨ c = 'E'
    · rw [if_pos (by simpa [isExponentMark] using hc), if_pos (by simpa using hc)]
      have hrest := (List.suffix_cons c s).trans hs
      have hsign := runs_sign hrest
      exact (runs_step hs (by rcases hc with rfl | rfl <;> rfl)).bind_ok <| hsign.bind_ok <|
        runs_skipBytes (fun _ => utf8Size_of_isDigit) hsign.2
    · rw [if_neg (by simpa [isExponentMark] using hc), if_neg (by simpa using hc)]
      exact .pure hs ()

/-- A decimal is passed in three parts: digits, a fraction and an exponent. -/
theorem afterDecimal_eq (hc : c.isDigit = true ∨ c = '.') (s : List Char) :
    afterDecimal c s = afterExponent (afterFraction ((c :: s).dropWhile isDigitOrGap)) := by
  rcases hc with hc | rfl
  · have hne : c ≠ '.' := by
      rintro rfl
      cases hc
    have hdigit : isDigitOrGap c = true := by rw [isDigitOrGap, hc, Bool.true_or]
    rw [afterDecimal, if_neg hne, List.dropWhile_cons_of_pos hdigit, afterDigits]
  · rfl

theorem runs_decimalFrom (hs : c :: s <:+ text) (hrest : afterDecimal c s <:+ s) :
    Runs text (Walk.decimalFrom text (offset text (c :: s))) (afterDecimal c s)
      (outcome (decimalNumeral c s)) := by
  have htext := hrest.trans ((List.suffix_cons c s).trans hs)
  have hsplit : c :: s.take (s.length - (afterDecimal c s).length) ++ afterDecimal c s = c :: s :=
    congrArg (c :: ·) (List.suffix_iff_eq_append.mp hrest)
  refine (runs_peek htext).bind_ok ?_
  rw [decimalNumeral]
  by_cases hbig : (afterDecimal c s).head? = some 'n'
  · simp only [if_pos hbig]
    exact .throw _ rfl trivial
  · simp only [if_neg hbig]
    refine (runs_spelling hsplit hs).bind_ok ?_
    cases decimal? ((c :: s.take (s.length - (afterDecimal c s).length)).filter (· ≠ '_')) with
    | none => exact .throw _ rfl trivial
    | some d => exact .pure htext d.toNumber

theorem runs_decimal (hs : c :: s <:+ text) (hc : c.isDigit = true ∨ c = '.') :
    Runs text (Walk.decimal text) (c :: s) (outcome (decimalNumeral c s)) := by
  have hdigits := runs_skipBytes (fun _ => utf8Size_of_isDigitOrGap) hs
  have hfraction := runs_fraction hdigits.2
  have hexponent := runs_exponent hfraction.2
  rw [← afterDecimal_eq hc] at hexponent
  have hrest : afterDecimal c s <:+ s := List.suffix_of_suffix_length_le hexponent.2
    ((List.suffix_cons c s).trans hs) (length_afterDecimal_le c s)
  exact (runs_get hs).bind_ok <| hdigits.bind_ok <| hfraction.bind_ok <| hexponent.bind_ok <|
    runs_decimalFrom hs hrest

/-- The digits of a marked numeral stand behind its first two characters. -/
theorem runs_marked {base : Nat} {mark : Char} (hmark : mark.utf8Size = 1)
    (hs : '0' :: mark :: s <:+ text) :
    Runs text (Walk.marked text base (offset text ('0' :: mark :: s))) ('0' :: mark :: s)
      (outcome (markedNumeral base mark s)) := by
  have hmarked := (List.suffix_cons '0' (mark :: s)).trans hs
  have hdigits := (List.suffix_cons mark s).trans hmarked
  have hstart : offset text ('0' :: mark :: s) + 2 = offset text s := by
    rw [offset_cons hmarked, hmark, offset_cons hs]
    rfl
  have hskip := runs_skipBytes (fun _ => utf8Size_of_isMarkedDigit) hdigits
  have hbehind : s <:+ '0' :: mark :: s :=
    (List.suffix_cons mark s).trans (List.suffix_cons '0' _)
  refine (runs_advance hs hstart hbehind).bind_ok <| hskip.bind_ok ?_
  rw [hstart]
  refine (runs_spelling List.takeWhile_append_dropWhile hdigits).bind_ok ?_
  rw [markedNumeral]
  cases markedValue? base (s.takeWhile isMarkedDigit) with
  | some n => exact .pure hskip.2 n
  | none =>
    have hsplit : '0' :: mark :: s.takeWhile isMarkedDigit ++ s.dropWhile isMarkedDigit =
        '0' :: mark :: s :=
      congrArg ('0' :: mark :: ·) List.takeWhile_append_dropWhile
    exact (runs_spelling hsplit hs).bind_ok (.throw _ rfl trivial)

theorem utf8Size_of_base? {base : Nat} {mark : Char} (h : base? mark = some base) :
    mark.utf8Size = 1 := by
  unfold base? at h
  split_ifs at h with hx ho hb
  · simp only [Bool.or_eq_true, decide_eq_true_eq] at hx
    rcases hx with rfl | rfl <;> rfl
  · simp only [Bool.or_eq_true, decide_eq_true_eq] at ho
    rcases ho with rfl | rfl <;> rfl
  · simp only [Bool.or_eq_true, decide_eq_true_eq] at hb
    rcases hb with rfl | rfl <;> rfl

theorem runs_number (hs : c :: s <:+ text) (hc : c.isDigit = true ∨ c = '.') :
    Runs text (Walk.number text) (c :: s) (outcome (numeral (c :: s))) := by
  refine (runs_ahead hs).bind_ok ?_
  by_cases hmarked : ∃ mark t, c :: s = '0' :: mark :: t
  · obtain ⟨mark, t, heq⟩ := hmarked
    cases heq
    rw [numeral]
    cases hbase : base? mark with
    | none =>
      simp only [Walk.markedBase?, hbase]
      exact runs_decimal hs hc
    | some base =>
      simp only [Walk.markedBase?, hbase]
      exact (runs_get hs).bind_ok (runs_marked (utf8Size_of_base? hbase) hs)
  · have hnone : Walk.markedBase? (c :: s) = none := by
      rw [Walk.markedBase?]
      exact fun mark t heq => hmarked ⟨mark, t, heq⟩
    have hplain : numeral (c :: s) = decimalNumeral c s := by
      rw [numeral]
      rintro mark t rfl rfl
      exact hmarked ⟨mark, t, rfl⟩
    rw [hnone, hplain]
    exact runs_decimal hs hc

end

/-! ### Strings and templates -/

section
variable {text s : List Char}

theorem runs_expect_none {wanted : Char} (hs : s <:+ text) (hmark : firstMark s = none) :
    Runs text (Walk.expect text wanted) s (.error .unexpectedEnd) := by
  refine runs_mark_bump hs (fun _ => rfl) fun c hc _ => ?_
  rw [hmark] at hc
  cases hc

theorem runs_expect {wanted : Char} (hs : s <:+ text) (hmark : firstMark s = some wanted) :
    Runs text (Walk.expect text wanted) s (.ok ((), afterMark s)) := by
  refine runs_mark_bump hs (fun hnone => ?_) fun c hc hcons => ?_
  · rw [hmark] at hnone
    cases hnone
  · rw [hmark] at hc
    cases hc
    simp only [if_true]
    exact .pure ((List.suffix_cons _ _).trans hcons) ()

theorem runs_expect_other {wanted c : Char} (hs : s <:+ text) (hmark : firstMark s = some c)
    (hne : c ≠ wanted) :
    Runs text (Walk.expect text wanted) s (.error (.unexpectedChar c (trimStart s))) := by
  refine runs_mark_bump hs (fun hnone => ?_) fun d hd hcons => ?_
  · rw [hmark] at hnone
    cases hnone
  · rw [hmark] at hd
    cases hd
    rw [Text.trimStart_eq_of_firstMark hmark]
    simp only [if_neg hne]
    exact runs_unexpectedBehind hcons

theorem runs_hexDigits (count start : Nat) (hs : s <:+ text) :
    Runs text (Walk.hexDigits text count) s
      ((hexValue count start s).map fun _ => ((), s.drop count)) := by
  induction count generalizing start s with
  | zero => exact .pure hs ()
  | succ count ih =>
    cases s with
    | nil => exact (runs_bumpOr_nil .unterminatedString hs rfl trivial).bind_error
    | cons c s =>
      refine (runs_bumpOr hs).bind_ok ?_
      rw [hexValue]
      cases hd : digitValue? 16 c with
      | none =>
        simp only [isHexDigit, hd, Option.isSome_none, Bool.false_eq_true, if_false]
        exact runs_unexpectedBehind hs
      | some d =>
        simp only [isHexDigit, hd, Option.isSome_some, if_true]
        exact ih _ ((List.suffix_cons c s).trans hs)

theorem digitValue?_lt {base d : Nat} {c : Char} (h : digitValue? base c = some d) : d < base := by
  simp only [digitValue?, Option.ite_none_right_eq_some] at h
  exact Option.some.inj h.2 ▸ h.1

/-- The digits of a code point that is read digit by digit have its value as a whole. -/
theorem foldlM_of_hexValue {count start n : Nat} (h : hexValue count start s = .ok n) :
    (s.take count).length = count ∧
      (s.take count).foldlM (fun n c => (digitValue? 16 c).map (16 * n + ·)) start = some n ∧
        n < 16 ^ count * (start + 1) := by
  induction count generalizing start s with
  | zero =>
    cases h
    exact ⟨rfl, rfl, by omega⟩
  | succ count ih =>
    cases s with
    | nil => cases h
    | cons c s =>
      rw [hexValue] at h
      cases hd : digitValue? 16 c with
      | none =>
        rw [hd] at h
        cases h
      | some d =>
        rw [hd] at h
        obtain ⟨hlength, hfold, hlt⟩ := ih h
        refine ⟨by rw [List.take_succ_cons, List.length_cons, hlength], ?_, ?_⟩
        · rw [List.take_succ_cons, List.foldlM_cons, hd]
          exact hfold
        · have hdigit := digitValue?_lt hd
          refine Nat.lt_of_lt_of_le hlt ?_
          rw [Nat.pow_succ, Nat.mul_assoc]
          exact Nat.mul_le_mul_left _ (by omega)

theorem wholeValue?_of_hexValue {count n : Nat} (hcount : 0 < count)
    (h : hexValue count 0 s = .ok n) :
    wholeValue? 16 (s.take count) = some n ∧ n < 16 ^ count := by
  obtain ⟨hlength, hfold, hlt⟩ := foldlM_of_hexValue h
  have hne : s.take count ≠ [] := List.ne_nil_of_length_pos (by rw [hlength]; exact hcount)
  rw [wholeValue?, if_neg hne]
  exact ⟨hfold, by simpa using hlt⟩

/-- A code point of a few digits has at most 32 bits. -/
theorem runs_fixedCode {count : Nat} (hcount : 0 < count ∧ count ≤ 8) (mark : Char)
    (hs : s <:+ text) :
    Runs text (Walk.fixedCode text count) s (outcome (fixedCode count mark s)) := by
  have hdigits := runs_hexDigits count 0 hs
  refine (runs_get hs).bind_ok ?_
  rw [fixedCode]
  cases hvalue : hexValue count 0 s with
  | error fault =>
    rw [hvalue] at hdigits
    exact hdigits.bind_error
  | ok n =>
    rw [hvalue] at hdigits
    obtain ⟨hwhole, hlt⟩ := wholeValue?_of_hexValue hcount.1 hvalue
    have hbits : n < 2 ^ 32 :=
      Nat.lt_of_lt_of_le hlt (Nat.pow_le_pow_right (by decide : 0 < 16) hcount.2)
    refine hdigits.bind_ok <| (runs_spelling (List.take_append_drop count s) hs).bind_ok ?_
    rw [Walk.codePoint, hwhole]
    simp only [if_pos hbits]
    exact .pure hdigits.2 _

theorem runs_bracedCode (hs : '\x7b' :: s <:+ text) :
    Runs text (Walk.bracedCode text) ('\x7b' :: s) (outcome (bracedCode s)) := by
  have hbehind := (List.suffix_cons _ s).trans hs
  have hskip := runs_skipBytes (fun _ => utf8Size_of_isHexDigit) hbehind
  refine (runs_bump hs).bind_ok <| (runs_get hbehind).bind_ok <| hskip.bind_ok <|
    (runs_spelling List.takeWhile_append_dropWhile hbehind).bind_ok ?_
  rw [bracedCode]
  cases hmark : firstMark (s.dropWhile isHexDigit) with
  | none => exact (runs_expect_none hskip.2 hmark).bind_error
  | some c =>
    by_cases hc : c = '\x7d'
    · subst hc
      have hexpect := runs_expect hskip.2 hmark
      refine hexpect.bind_ok ?_
      simp only [if_true]
      rw [Walk.codePoint]
      cases wholeValue? 16 (s.takeWhile isHexDigit) with
      | none => exact .throw _ rfl trivial
      | some n =>
        by_cases hn : n < 2 ^ 32
        · simp only [if_pos hn]
          exact .pure hexpect.2 _
        · simp only [if_neg hn]
          exact .throw _ rfl trivial
    · simp only [if_neg hc]
      exact (runs_expect_other hskip.2 hmark hc).bind_error

theorem runs_escape (hs : s <:+ text) :
    Runs text (Walk.escape text) s (outcome (escape s)) := by
  cases s with
  | nil => exact (runs_bumpOr_nil .unterminatedString hs rfl trivial).bind_error
  | cons c s =>
    have hrest := (List.suffix_cons c s).trans hs
    refine (runs_bumpOr hs).bind_ok ?_
    by_cases hx : c = 'x'
    · subst hx
      exact runs_fixedCode (by decide) 'x' hrest
    by_cases hu : c = 'u'
    · subst hu
      refine (runs_peek hrest).bind_ok ?_
      by_cases hbrace : s.head? = some '\x7b'
      · obtain ⟨t, rfl⟩ := List.head?_eq_some_iff.mp hbrace
        exact runs_bracedCode hrest
      · rw [escape_fixedCode hbrace, if_neg hbrace]
        exact runs_fixedCode (by decide) 'u' hrest
    · simp only [if_neg hx, if_neg hu]
      rw [escape_char hx hu]
      exact .pure hrest _

/-- A string up to its closing quote, by induction on the rounds that are left: each passes a
character or an escape. -/
theorem runs_untilQuote {rounds : Nat} (quote : Char) (hs : s <:+ text)
    (hrounds : s.length < rounds) :
    Runs text (Walk.untilQuote text quote rounds) s (outcome (quoted quote s)) := by
  induction rounds generalizing s with
  | zero => exact absurd hrounds (Nat.not_lt_zero _)
  | succ rounds ih =>
    rw [quoted.eq_def]
    cases s with
    | nil => exact (runs_bumpOr_nil .unterminatedString hs rfl trivial).bind_error
    | cons c s =>
      have hrest := (List.suffix_cons c s).trans hs
      have hfewer : s.length < rounds := Nat.lt_of_succ_lt_succ hrounds
      refine (runs_bumpOr hs).bind_ok ?_
      by_cases hquote : c = quote
      · simp only [if_pos hquote]
        exact .pure hrest []
      by_cases hslash : c = '\\'
      · simp only [if_neg hquote, if_pos hslash]
        refine (runs_escape hrest).bind_result (fun _ h => by rw [h]; rfl) fun f hread hbehind => ?_
        rw [hread]
        exact (ih hbehind (Nat.lt_trans f.shorter hfewer)).map_result (fun _ => rfl) fun _ => rfl
      by_cases hfeed : (c = '\n' && quote ≠ '\x60') = true
      · simp only [if_neg hquote, if_neg hslash, if_pos hfeed]
        exact .throw _ rfl trivial
      · simp only [if_neg hquote, if_neg hslash, if_neg hfeed]
        exact (ih hrest hfewer).map_result (fun _ => rfl) fun _ => rfl

theorem runs_string {quote : Char} (hs : quote :: s <:+ text) :
    Runs text (Walk.string text quote) (quote :: s) (outcome (quoted quote s)) := by
  have hrest := (List.suffix_cons quote s).trans hs
  exact (runs_bump hs).bind_ok (runs_untilQuote quote hrest (length_lt_rounds hrest))

theorem runs_template (hs : '\x60' :: s <:+ text) :
    Runs text (Walk.template text) ('\x60' :: s) (outcome (template s)) := by
  have hbehind := (List.suffix_cons _ s).trans hs
  have hstart : offset text ('\x60' :: s) + 1 = offset text s := (offset_cons hs).symm
  refine (runs_get hs).bind_ok <| (runs_string hs).bind_result
    (fun _ h => by rw [template, h]; rfl) fun f hread htext => ?_
  have hrest : f.rest <:+ s :=
    List.suffix_of_suffix_length_le htext hbehind (Nat.le_of_lt f.shorter)
  rw [hstart, template, hread]
  refine (runs_spelling (List.suffix_iff_eq_append.mp hrest) hbehind).bind_ok ?_
  by_cases hmark : Text.occursIn interpolationMark (s.take (s.length - f.rest.length)) = true
  · simp only [if_pos hmark]
    exact .throw _ rfl trivial
  · simp only [if_neg hmark]
    exact .pure htext _

end

end DocComments.Expression
