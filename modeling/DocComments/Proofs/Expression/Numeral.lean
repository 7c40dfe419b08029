import DocComments.Proofs.Expression.Reading

/-!
# Where a numeral ends

Of what stands behind a numeral only the first character has a say in where the numeral ends, and
only if it is one that can belong to a token. So a numeral may be put in front of another text as
long as that does not go on with it. The parts of a decimal are told by functions that drop a part
of a token from the front of a text; the law is stated for these and holds of them one after the
other.
-/

namespace DocComments.Expression
open Unicode (isBlank)

/-- Whether a character behind a numeral or a name can belong to it. -/
def continuesToken (c : Char) : Bool :=
  isMarkedDigit c || isNamePart c || c == '.' || c == '+' || c == '-'

/-- The first character of a text, if it can belong to a token in front of it. -/
def front (s : List Char) : Option Char :=
  s.head?.filter continuesToken

/-- A function drops a part of a token, and looks no further than at the front of what it leaves. -/
def DropsToken (f : List Char → List Char) : Prop :=
  ∀ s, ∃ u, s = u ++ f s ∧ (∀ c ∈ u, continuesToken c = true) ∧
    ∀ r, front r = front (f s) → f (u ++ r) = r

section
variable {c : Char} {u r s : List Char}

theorem continuesToken_of_isMarkedDigit (h : isMarkedDigit c = true) : continuesToken c = true := by
  simp [continuesToken, h]

theorem continuesToken_of_isNamePart (h : isNamePart c = true) : continuesToken c = true := by
  simp [continuesToken, h]

theorem continuesToken_of_isDigit (h : c.isDigit = true) : continuesToken c = true := by
  apply continuesToken_of_isMarkedDigit
  rw [isMarkedDigit, Char.isAlphanum, h, Bool.or_true, Bool.true_or]

theorem continuesToken_of_isDigitOrGap (h : isDigitOrGap c = true) : continuesToken c = true := by
  rcases Bool.or_eq_true_iff.mp h with hdigit | hgap
  · exact continuesToken_of_isDigit hdigit
  · rw [eq_of_beq hgap]
    decide

/-- No blank belongs to a token. -/
theorem continuesToken_of_isBlank (h : isBlank c = true) : continuesToken c = false := by
  have hmarked : isMarkedDigit c = false := Unicode.eq_false_of_isBlank (by decide) h
  have hne : ∀ d : Char, isBlank d = false → c ≠ d := by
    rintro d hd rfl
    rw [h] at hd
    cases hd
  have hpoint : c ≠ '.' := hne _ rfl
  have hplus : c ≠ '+' := hne _ rfl
  have hminus : c ≠ '-' := hne _ rfl
  simp [continuesToken, hmarked, isNamePart_of_isBlank h, hpoint, hplus, hminus]

theorem front_eq_some_iff : front s = some c ↔ s.head? = some c ∧ continuesToken c = true :=
  Option.filter_eq_some_iff

/-- What stands in front of two texts with one front gives them one front. -/
theorem front_append_congr (h : front r = front s) : front (u ++ r) = front (u ++ s) := by
  cases u with
  | nil => exact h
  | cons c u => rfl

/-- Of two texts with one front, both start with a character of a token or neither does. -/
theorem head?_of_front_eq (h : front r = front s) (hc : continuesToken c = true)
    (hr : r.head? = some c) : s.head? = some c := by
  have hfront : front r = some c := front_eq_some_iff.mpr ⟨hr, hc⟩
  rw [h] at hfront
  exact (front_eq_some_iff.mp hfront).1

end

/-! ### The parts of a decimal -/

section
variable {f g : List Char → List Char} {P : Char → Bool}

theorem dropsToken_id : DropsToken id := by
  intro s
  refine ⟨[], rfl, ?_, fun _ _ => rfl⟩
  intro c hc
  cases hc

/-- What stands behind a run of characters of tokens does not go on with it. -/
theorem head?_of_front_eq_dropWhile {r s : List Char}
    (hP : ∀ c, P c = true → continuesToken c = true) (hr : front r = front (s.dropWhile P)) :
    ∀ c, r.head? = some c → P c = false := by
  intro c hc
  cases hPc : P c with
  | false => rfl
  | true =>
    have hhead := head?_of_front_eq hr (hP c hPc) hc
    have hnot := List.head?_dropWhile_not P s
    rw [hhead] at hnot
    simp [hPc] at hnot

theorem dropsToken_dropWhile (hP : ∀ c, P c = true → continuesToken c = true) :
    DropsToken (List.dropWhile P) := by
  intro s
  have hall : ∀ c ∈ s.takeWhile P, P c = true := fun c hc =>
    List.all_eq_true.mp List.all_takeWhile c hc
  refine ⟨s.takeWhile P, List.takeWhile_append_dropWhile.symm, fun c hc => hP c (hall c hc), ?_⟩
  intro r hr
  exact (Text.span_append hall (head?_of_front_eq_dropWhile hP hr)).2

theorem DropsToken.comp (hg : DropsToken g) (hf : DropsToken f) : DropsToken fun s => g (f s) := by
  intro s
  obtain ⟨u, hu, hutoken, hulocal⟩ := hf s
  obtain ⟨w, hw, hwtoken, hwlocal⟩ := hg (f s)
  refine ⟨u ++ w, ?_, ?_, ?_⟩
  · rw [List.append_assoc, ← hw, ← hu]
  · intro c hc
    rcases List.mem_append.mp hc with hc | hc
    · exact hutoken c hc
    · exact hwtoken c hc
  · intro r hr
    have hfront : front (w ++ r) = front (f s) := by
      rw [hw]
      exact front_append_congr hr
    rw [List.append_assoc]
    exact (congrArg g (hulocal _ hfront)).trans (hwlocal r hr)

/-- A part that a mark announces is dropped with its mark, and without the mark nothing is. -/
theorem DropsToken.behind (hf : DropsToken f) (hP : ∀ c, P c = true → continuesToken c = true)
    (hnil : g [] = []) (hcons : ∀ c s, g (c :: s) = if P c then f s else c :: s) :
    DropsToken g := by
  have hkeep : ∀ r, (∀ c, r.head? = some c → P c = false) → g r = r := by
    intro r hr
    cases r with
    | nil => exact hnil
    | cons c r => rw [hcons, hr c rfl, if_neg Bool.false_ne_true]
  have hstay : ∀ s, (∀ c, s.head? = some c → P c = false) →
      ∃ u, s = u ++ g s ∧ (∀ c ∈ u, continuesToken c = true) ∧
        ∀ r, front r = front (g s) → g (u ++ r) = r := by
    intro s hs
    refine ⟨[], (hkeep s hs).symm, fun c hc => absurd hc List.not_mem_nil, ?_⟩
    intro r hr
    rw [hkeep s hs] at hr
    apply hkeep
    intro c hc
    cases hPc : P c with
    | false => rfl
    | true => exact hPc ▸ hs c (head?_of_front_eq hr (hP c hPc) hc)
  intro s
  cases s with
  | nil => exact hstay [] fun c hc => by cases hc
  | cons c s =>
    cases hPc : P c with
    | false =>
      refine hstay (c :: s) ?_
      rintro d ⟨⟩
      exact hPc
    | true =>
      obtain ⟨u, hu, hutoken, hulocal⟩ := hf s
      have hdrop : ∀ t, g (c :: t) = f t := fun t => by rw [hcons, if_pos hPc]
      rw [hdrop]
      refine ⟨c :: u, ?_, ?_, ?_⟩
      · rw [List.cons_append, ← hu]
      · rintro d (_ | ⟨_, hd⟩)
        · exact hP c hPc
        · exact hutoken d hd
      · intro r hr
        rw [List.cons_append, hdrop]
        exact hulocal r hr

theorem dropsToken_afterDigits : DropsToken afterDigits :=
  dropsToken_dropWhile fun _ => continuesToken_of_isDigitOrGap

theorem dropsToken_afterFraction : DropsToken afterFraction := by
  refine dropsToken_afterDigits.behind (P := fun c => decide (c = '.')) ?_ rfl ?_
  · intro c hc
    rw [of_decide_eq_true hc]
    decide
  · intro c s
    simp [afterFraction]

theorem dropsToken_afterSign : DropsToken afterSign := by
  refine dropsToken_id.behind (P := fun c => c = '+' || c = '-') ?_ rfl ?_
  · intro c hc
    rcases Bool.or_eq_true_iff.mp hc with hc | hc <;>
      rw [of_decide_eq_true hc] <;> decide
  · intro c s
    rfl

theorem dropsToken_afterExponent : DropsToken afterExponent := by
  have hdigits : DropsToken (List.dropWhile Char.isDigit) :=
    dropsToken_dropWhile fun _ => continuesToken_of_isDigit
  refine (hdigits.comp dropsToken_afterSign).behind (P := fun c => c = 'e' || c = 'E') ?_ rfl ?_
  · intro c hc
    rcases Bool.or_eq_true_iff.mp hc with hc | hc <;>
      rw [of_decide_eq_true hc] <;> decide
  · intro c s
    rfl

theorem dropsToken_afterDecimal (c : Char) : DropsToken (afterDecimal c) := by
  by_cases hpoint : c = '.'
  · have hread : afterDecimal c = fun s => afterExponent (afterDigits s) := by
      funext s
      rw [afterDecimal, if_pos hpoint]
    rw [hread]
    exact dropsToken_afterExponent.comp dropsToken_afterDigits
  · have hread : afterDecimal c = fun s => afterExponent (afterFraction (afterDigits s)) := by
      funext s
      rw [afterDecimal, if_neg hpoint]
    rw [hread]
    exact dropsToken_afterExponent.comp (dropsToken_afterFraction.comp dropsToken_afterDigits)

end

/-! ### Numerals -/

section
variable {c mark : Char} {s rest : List Char} {n : Number} {base : Nat}

theorem yields_decimalNumeral :
    Yields (decimalNumeral c s) n rest ↔
      rest = afterDecimal c s ∧ rest.head? ≠ some 'n' ∧
        ∃ d, decimal? ((c :: s.take (s.length - rest.length)).filter (· ≠ '_')) = some d ∧
          d.toNumber = n := by
  unfold decimalNumeral
  extract_lets left spelling
  split
  · rename_i hbig
    simp only [not_yields_error, false_iff]
    rintro ⟨rfl, hnot, -⟩
    exact hnot hbig
  · rename_i hbig
    split
    · rename_i d hd
      rw [yields_ok]
      constructor
      · rintro ⟨rfl, rfl⟩
        exact ⟨rfl, hbig, d, hd, rfl⟩
      · rintro ⟨rfl, -, e, he, rfl⟩
        have heq : some d = some e := hd.symm.trans he
        cases heq
        exact ⟨rfl, rfl⟩
    · rename_i hnone
      simp only [not_yields_error, false_iff]
      rintro ⟨rfl, -, d, hd, -⟩
      have heq : none = some d := hnone.symm.trans hd
      cases heq

theorem yields_markedNumeral :
    Yields (markedNumeral base mark s) n rest ↔
      rest = s.dropWhile isMarkedDigit ∧
        markedValue? base (s.takeWhile isMarkedDigit) = some n := by
  unfold markedNumeral
  extract_lets digits
  split
  · rename_i m hm
    rw [yields_ok, hm, Option.some.injEq]
    exact ⟨fun h => ⟨h.2.symm, h.1⟩, fun h => ⟨h.2, h.1.symm⟩⟩
  · rename_i hnone
    simp [show markedValue? base (s.takeWhile isMarkedDigit) = none from hnone]

/-- A numeral is a decimal unless its second character marks a base. -/
theorem numeral_eq_decimalNumeral (h : c = '0' → ∀ m, s.head? = some m → base? m = none) :
    numeral (c :: s) = decimalNumeral c s := by
  by_cases hzero : c = '0'
  · subst hzero
    cases s with
    | nil => rfl
    | cons m s => simp only [numeral, h rfl m rfl]
  · rw [numeral]
    intro mark t hc
    exact absurd hc hzero

/-- A mark of a base belongs to the numeral. -/
theorem continuesToken_of_base? (h : base? mark = some base) : continuesToken mark = true := by
  unfold base? at h
  split_ifs at h with hx ho hb
  · rcases Bool.or_eq_true_iff.mp hx with hx | hx <;>
      rw [of_decide_eq_true hx] <;> decide
  · rcases Bool.or_eq_true_iff.mp ho with ho | ho <;>
      rw [of_decide_eq_true ho] <;> decide
  · rcases Bool.or_eq_true_iff.mp hb with hb | hb <;>
      rw [of_decide_eq_true hb] <;> decide

/-- A decimal may be put in front of a text with the same front. -/
theorem yields_decimalNumeral_append (h : Yields (decimalNumeral c s) n rest) :
    ∃ u, s = u ++ rest ∧ (∀ d ∈ u, continuesToken d = true) ∧
      ∀ r, front r = front rest → Yields (decimalNumeral c (u ++ r)) n r := by
  obtain ⟨hrest, hbig, d, hd, rfl⟩ := yields_decimalNumeral.mp h
  obtain ⟨u, hu, htoken, hlocal⟩ := dropsToken_afterDecimal c s
  rw [← hrest] at hu hlocal
  have htake : ∀ t, (u ++ t).take ((u ++ t).length - t.length) = u := by
    intro t
    rw [List.length_append, Nat.add_sub_cancel, List.take_left]
  rw [hu, htake] at hd
  refine ⟨u, hu, htoken, ?_⟩
  intro r hr
  refine yields_decimalNumeral.mpr ⟨(hlocal r hr).symm, ?_, d, ?_, rfl⟩
  · intro hn
    exact hbig (head?_of_front_eq hr (by decide) hn)
  · rw [htake]
    exact hd

/-- A numeral may be put in front of a text with the same front. -/
theorem yields_numeral_append (h : Yields (numeral (c :: s)) n rest) :
    ∃ u, s = u ++ rest ∧ (∀ d ∈ u, continuesToken d = true) ∧
      ∀ r, front r = front rest → Yields (numeral (c :: (u ++ r))) n r := by
  by_cases hdecimal : c = '0' → ∀ m, s.head? = some m → base? m = none
  · rw [numeral_eq_decimalNumeral hdecimal] at h
    obtain ⟨u, rfl, htoken, hread⟩ := yields_decimalNumeral_append h
    refine ⟨u, rfl, htoken, ?_⟩
    intro r hr
    rw [numeral_eq_decimalNumeral]
    · exact hread r hr
    · intro hzero m hm
      -- a mark of a base would belong to the numeral that was read before
      cases hbase : base? m with
      | none => rfl
      | some base =>
        have hfront : front (u ++ r) = front (u ++ rest) := front_append_congr hr
        have hhead := head?_of_front_eq hfront (continuesToken_of_base? hbase) hm
        rw [hdecimal hzero m hhead] at hbase
        cases hbase
  · push Not at hdecimal
    obtain ⟨rfl, m, hm, hbase⟩ := hdecimal
    obtain ⟨base, hbase⟩ := Option.ne_none_iff_exists'.mp hbase
    obtain ⟨t, rfl⟩ := List.head?_eq_some_iff.mp hm
    have hnumeral : ∀ t, numeral ('0' :: m :: t) = markedNumeral base m t := by
      intro t
      simp only [numeral, hbase]
    rw [hnumeral] at h
    obtain ⟨rfl, hvalue⟩ := yields_markedNumeral.mp h
    have hdigits : ∀ d ∈ t.takeWhile isMarkedDigit, isMarkedDigit d = true := fun d hd =>
      List.all_eq_true.mp List.all_takeWhile d hd
    refine ⟨m :: t.takeWhile isMarkedDigit, ?_, ?_, ?_⟩
    · rw [List.cons_append, List.takeWhile_append_dropWhile]
    · rintro d (_ | ⟨_, hd⟩)
      · exact continuesToken_of_base? hbase
      · exact continuesToken_of_isMarkedDigit (hdigits d hd)
    · intro r hr
      have hspan := Text.span_append hdigits
        (head?_of_front_eq_dropWhile (fun _ => continuesToken_of_isMarkedDigit) hr)
      rw [List.cons_append, hnumeral]
      exact yields_markedNumeral.mpr ⟨hspan.2.symm, hspan.1.symm ▸ hvalue⟩

end

end DocComments.Expression
