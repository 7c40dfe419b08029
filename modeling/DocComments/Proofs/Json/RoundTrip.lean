import DocComments.Proofs.Json.StringPart
import DocComments.Proofs.Text.Trimming

/-!
# Written data is read back

Data without fractions, written in any style whose gaps are blank, is read back as it was as long as
its containers are not nested deeper than the reader allows. Each reader is shown to take what the
printer writes and to leave what stands behind; keys that occur twice are kept.
-/

namespace DocComments.Json

/-- Nothing in front of the text goes on with a numeral. -/
def EndsNumeral (rest : List Char) : Prop :=
  ∀ c, rest.head? = some c → c.isDigit = false ∧ c ≠ '.' ∧ c ≠ 'e' ∧ c ≠ 'E'

/-- A style that puts nothing but blanks between the parts. -/
structure Style.IsBlank (style : Style) : Prop where
  gap : ∀ depth, ∀ c ∈ style.gap depth, isSpace c = true
  afterColon : ∀ c ∈ style.afterColon, isSpace c = true

theorem skip_append {g : List Char} (hg : ∀ c ∈ g, isSpace c = true) (s : List Char) :
    skip (g ++ s) = skip s :=
  List.dropWhile_append_of_pos hg

theorem skip_cons {c : Char} (hc : isSpace c = false) (s : List Char) : skip (c :: s) = c :: s := by
  rw [skip, List.dropWhile_cons_of_neg (by simp [hc])]

/-! ### Numerals -/

namespace Numeral

/-- Digits are all taken into the significand if it fits. -/
theorem takeDigits_eq {digits : List Char} {start : Nat}
    (h : Nat.ofDigitChars 10 digits start ≤ significandLimit) :
    takeDigits start digits = (Nat.ofDigitChars 10 digits start, []) := by
  induction digits generalizing start with
  | nil => rfl
  | cons c digits ih =>
    rw [Nat.ofDigitChars_cons] at h ⊢
    have hle : 10 * start + (c.toNat - 48) ≤ significandLimit := by
      refine Nat.le_trans ?_ h
      rw [Nat.ofDigitChars_eq_ofDigitChars_zero]
      have hpos : 0 < 10 ^ digits.length := Nat.pow_pos (by decide)
      exact Nat.le_add_right_of_le (Nat.le_mul_of_pos_left _ hpos)
    rw [takeDigits, if_pos hle]
    exact ih h

/-- A significand without an exponent is rounded and multiplied by one. -/
theorem scaled?_zero {n : Nat} (hn : n ≤ 2 ^ 53) :
    scaled? n 0 = some (Number.nearestRank (n * Number.unitsPerOne) 1) := by
  have hone : powerRank 0 = Number.nearestRank (1 * Number.unitsPerOne) 1 := by
    rw [powerRank, Nat.pow_zero]
  rw [scaled?, if_pos (Int.le_refl 0), multiplied?, Int.toNat_zero, if_pos (Nat.zero_le _)]
  simp only [hone, Number.productRank_one hn,
    if_pos (Number.nearestRank_whole_lt hn)]

/-- Digits of a whole number up to the limit denote the number. -/
theorem value?_digits (negative : Bool) {n : Nat} (hn : n ≤ 2 ^ 53) :
    value? ⟨negative, Nat.toDigits 10 n, [], false, 0⟩ =
      some (.ofRatio negative n 1) := by
  have hdigits : takeDigits 0 (Nat.toDigits 10 n) = (n, []) := by
    have hlimit : n ≤ significandLimit := Nat.le_trans hn (by decide)
    rw [← Nat.ofDigitChars_ten_toDigits (n := n)] at hlimit
    rw [takeDigits_eq hlimit, Nat.ofDigitChars_ten_toDigits]
  have hexponent : ¬ exponentLimit < 0 := by decide
  have hempty : takeDigits n [] = (n, []) := rfl
  simp only [value?, hdigits, hempty, List.length_nil, Nat.sub_self, Int.natCast_zero, Int.sub_self,
    if_neg hexponent, Bool.false_eq_true, if_false, Int.add_zero, scaled?_zero hn]
  rw [Option.map_some, Number.ofRatio]

end Numeral

/-- Digits are read to their end. -/
theorem unsigned?_toDigits (negative : Bool) (n : Nat) {rest : List Char}
    (hrest : EndsNumeral rest) :
    unsigned? negative (Nat.toDigits 10 n ++ rest) =
      some (⟨negative, Nat.toDigits 10 n, [], false, 0⟩, rest) := by
  have hwhole : wholePart? (Nat.toDigits 10 n ++ rest) = some (Nat.toDigits 10 n, rest) := by
    have hend : ∀ c, rest.head? = some c → c.isDigit = false := fun c hc => (hrest c hc).1
    by_cases hn : n = 0
    · subst hn
      have hnone : rest.head?.any Char.isDigit = false := by
        cases rest with
        | nil => rfl
        | cons c rest => exact hend c rfl
      rw [Nat.toDigits_zero, List.singleton_append, wholePart?, if_pos rfl,
        if_neg (by simp [hnone])]
    · have hfirst := head?_toDigits_ne (Nat.pos_of_ne_zero hn)
      have hall : ∀ c ∈ Nat.toDigits 10 n, c.isDigit = true := fun c hc =>
        Nat.isDigit_of_mem_toDigits (by decide) (by decide) hc
      obtain ⟨c, t, hdigits⟩ := List.exists_cons_of_ne_nil (Nat.toDigits_ne_nil (n := n) (b := 10))
      rw [hdigits] at hfirst hall ⊢
      have hzero : c ≠ '0' := fun h => hfirst (h ▸ rfl)
      obtain ⟨hc, ht⟩ := List.forall_mem_cons.mp hall
      have hspan := Text.span_append ht hend
      rw [List.cons_append, wholePart?, if_neg hzero, if_pos hc, hspan.1, hspan.2]
  have hfraction : fractionPart? rest = some ([], rest) := by
    unfold fractionPart?
    split
    · exact absurd rfl (hrest '.' rfl).2.1
    · rfl
  have hexponent : exponentPart? rest = some (false, 0, rest) := by
    cases rest with
    | nil => rfl
    | cons c rest =>
      obtain ⟨-, -, he, hE⟩ := hrest c rfl
      rw [exponentPart?, if_neg (by simp [he, hE])]
  simp only [unsigned?, hwhole, hfraction, hexponent]

theorem gives_unsignedNumber? (negative : Bool) {n : Nat} (hn : n ≤ 2 ^ 53) {rest : List Char}
    (hrest : EndsNumeral rest) :
    Gives (unsignedNumber? negative (Nat.toDigits 10 n ++ rest)) (.ofRatio negative n 1) rest := by
  have hread := unsigned?_toDigits negative n hrest
  unfold unsignedNumber?
  split
  · rename_i hnone
    rw [hread] at hnone
    cases hnone
  · rename_i m t hsome
    rw [hread] at hsome
    cases hsome
    rw [Numeral.value?_digits negative hn]
    exact gives_mk _

/-- A written whole number is read back. -/
theorem gives_numeral? {i : Int} (hi : i.natAbs ≤ 2 ^ 53) {rest : List Char}
    (hrest : EndsNumeral rest) :
    ∃ c s, signedDigits (i < 0) i.natAbs ++ rest = c :: s ∧ (c = '-' ∨ c.isDigit = true) ∧
      Gives (numeral? c s) (.ofInt i) rest := by
  by_cases hsign : i < 0
  · refine ⟨'-', Nat.toDigits 10 i.natAbs ++ rest, ?_, .inl rfl, ?_⟩
    · rw [signedDigits, decide_eq_true hsign]
      rfl
    · have hread := gives_unsignedNumber? true hi hrest
      rw [numeral?, if_pos rfl, Number.ofInt, decide_eq_true hsign]
      exact hread.map_same (fun _ => rfl) fun _ => rfl
  · have hne := Nat.toDigits_ne_nil (n := i.natAbs) (b := 10)
    obtain ⟨c, t, hdigits⟩ := List.exists_cons_of_ne_nil hne
    have hc : c.isDigit = true :=
      Nat.isDigit_of_mem_toDigits (by decide) (by decide) (hdigits ▸ List.mem_cons_self)
    have hread := gives_unsignedNumber? false hi hrest
    refine ⟨c, t ++ rest, ?_, .inr hc, ?_⟩
    · rw [signedDigits, decide_eq_false hsign, hdigits]
      rfl
    · have hminus : c ≠ '-' := by
        rintro rfl
        cases hc
      rw [numeral?, if_neg hminus, Number.ofInt, decide_eq_false hsign]
      rw [hdigits] at hread
      exact hread

/-! ### Values -/

/-- The reader for the levels inside a level, if there are any. -/
def inner? : Nat → Option Reader
  | 0 => none
  | depth + 1 => some (value? depth)

section
variable {d : Nat} {s t u g rest : List Char} {j x : Json} {xs : List Json} {k : String}
  {es : List (String × Json)} {e : String × Json} {value : Reader}

/-- A value is read from behind the blanks in front of it. -/
theorem gives_value?_iff :
    Gives (value? d s) j rest ↔
      ∃ c t, skip s = c :: t ∧ Gives (valueFrom? (inner? d) c t) j rest := by
  have hlevel : value? d = level? (inner? d) := by
    cases d <;> rfl
  rw [hlevel]
  unfold level?
  constructor
  · intro h
    split at h
    · obtain ⟨_, h⟩ := h
      cases h
    · rename_i c t hskip
      obtain ⟨_, h⟩ := h
      obtain ⟨f, hf, hfound⟩ := Option.map_eq_some_iff.mp h
      cases hfound
      exact ⟨c, t, hskip, hf ▸ gives_some.mpr ⟨rfl, rfl⟩⟩
  · rintro ⟨c, t, hskip, h⟩
    split
    · rename_i hnil
      rw [hskip] at hnil
      cases hnil
    · rename_i c' t' hcons
      have heq := hskip.symm.trans hcons
      cases heq
      exact h.map_same (fun _ => rfl) fun _ => rfl

theorem gives_value?_gap (hg : ∀ c ∈ g, isSpace c = true) (h : Gives (value? d s) j rest) :
    Gives (value? d (g ++ s)) j rest := by
  rw [gives_value?_iff] at h ⊢
  rw [skip_append hg]
  exact h

/-- No value starts with a closing bracket. -/
theorem head?_skip_ne_of_gives (h : Gives (value? d s) j rest) : (skip s).head? ≠ some ']' := by
  obtain ⟨c, t, hskip, h⟩ := gives_value?_iff.mp h
  rw [hskip]
  rintro ⟨⟩
  obtain ⟨_, h⟩ := h
  cases h

/-- A string is a value. -/
theorem gives_value?_string (h : Gives (quoted? s) u rest) :
    Gives (value? d ('\x22' :: s)) (.string (String.ofList u)) rest := by
  have hread : Gives (valueFrom? (inner? d) '\x22' s) (.string (String.ofList u)) rest :=
    h.map (g := Json.string ∘ String.ofList) (fun _ => rfl) fun _ => rfl
  exact gives_value?_iff.mpr ⟨_, _, skip_cons rfl _, hread⟩

theorem gives_word? (ending : String) {c : Char} :
    Gives (word? ending j c (ending.toList ++ rest)) j rest := by
  have hstarts : ending.toList.isPrefixOf? (ending.toList ++ rest) = some rest :=
    Text.isPrefixOf?_eq_some_iff.mpr rfl
  unfold word?
  split
  · rename_i r hr
    rw [hstarts] at hr
    cases hr
    exact gives_mk _
  · rename_i hnone
    rw [hstarts] at hnone
    cases hnone

/-! ### Arrays -/

theorem gives_items?_last (hx : Gives (value s) x t) (hclose : skip t = ']' :: rest) :
    Gives (items? value s) [x] rest := by
  obtain ⟨_, hx⟩ := hx
  have hhead : (skip t).head? = some ']' := by rw [hclose, List.head?_cons]
  have htail : (skip t).tail = rest := by rw [hclose, List.tail_cons]
  rw [items?, hx]
  simp only [hhead, gives_some]
  exact ⟨rfl, htail⟩

theorem gives_items?_cons (hx : Gives (value s) x t) (hcomma : skip t = ',' :: u)
    (hmore : Gives (items? value u) xs rest) : Gives (items? value s) (x :: xs) rest := by
  obtain ⟨_, hx⟩ := hx
  obtain rfl : (skip t).tail = u := by rw [hcomma, List.tail_cons]
  have hhead : (skip t).head? = some ',' := by rw [hcomma, List.head?_cons]
  rw [items?, hx]
  simp only [hhead]
  exact hmore.map (g := (x :: ·)) (fun _ => rfl) fun _ => rfl

theorem gives_array?_nil (hclose : skip s = ']' :: rest) :
    Gives (array? value s) (.array []) rest := by
  have hhead : (skip s).head? = some ']' := by rw [hclose, List.head?_cons]
  have htail : (skip s).tail = rest := by rw [hclose, List.tail_cons]
  rw [array?, dif_pos hhead, gives_some]
  exact ⟨rfl, htail⟩

theorem gives_array? (h : Gives (items? (value? d) s) xs rest) :
    Gives (array? (value? d) s) (.array xs) rest := by
  have hne : (skip s).head? ≠ some ']' := by
    obtain ⟨_, hread⟩ := h
    rw [items?] at hread
    cases hvalue : value? d s with
    | none =>
      rw [hvalue] at hread
      cases hread
    | some f => exact head?_skip_ne_of_gives (hvalue ▸ gives_some.mpr ⟨rfl, rfl⟩)
  rw [array?, dif_neg hne]
  exact h.map (fun _ => rfl) fun _ => rfl

/-- A value in brackets is an array with one item. -/
theorem read?_array_singleton (h : Gives (value? d (s ++ [']'])) j [']']) :
    read? (d + 1) ('[' :: (s ++ [']'])) = some (.array [j]) := by
  have hitems : Gives (items? (value? d) (s ++ [']'])) [j] [] :=
    gives_items?_last h (skip_cons rfl [])
  have hread : Gives (value? (d + 1) ('[' :: (s ++ [']']))) (.array [j]) [] :=
    gives_value?_iff.mpr ⟨_, _, skip_cons rfl _,
      (gives_array? hitems).map_same (fun _ => rfl) fun _ => rfl⟩
  obtain ⟨_, hread⟩ := hread
  rw [read?, hread]
  rfl

/-! ### Objects -/

theorem gives_key? (hskip : skip s = '\x22' :: t) (h : Gives (quoted? t) u rest) :
    Gives (key? s) (String.ofList u) rest := by
  have hhead : (skip s).head? = some '\x22' := by rw [hskip, List.head?_cons]
  obtain rfl : (skip s).tail = t := by rw [hskip, List.tail_cons]
  rw [key?, if_pos hhead]
  exact h.map (fun _ => rfl) fun _ => rfl

theorem gives_entry? (hk : Gives (key? s) k t) (hcolon : skip t = ':' :: u)
    (h : Gives (value u) x rest) : Gives ( entry? value s) (k, x) rest := by
  obtain ⟨_, hk⟩ := hk
  have hhead : (skip t).head? = some ':' := by rw [hcolon, List.head?_cons]
  obtain rfl : (skip t).tail = u := by rw [hcolon, List.tail_cons]
  unfold entry?
  simp only [hk, hhead]
  exact h.map (g := (k, ·)) (fun _ => rfl) fun _ => rfl

theorem gives_entries?_last (he : Gives ( entry? value s) e t) (hclose : skip t = '\x7d' :: rest) :
    Gives (entries? value s) [e] rest := by
  obtain ⟨_, he⟩ := he
  have hhead : (skip t).head? = some '\x7d' := by rw [hclose, List.head?_cons]
  have htail : (skip t).tail = rest := by rw [hclose, List.tail_cons]
  rw [entries?, he]
  simp only [hhead, gives_some]
  exact ⟨rfl, htail⟩

theorem gives_entries?_cons (he : Gives ( entry? value s) e t) (hcomma : skip t = ',' :: u)
    (hmore : Gives (entries? value u) es rest) : Gives (entries? value s) (e :: es) rest := by
  obtain ⟨_, he⟩ := he
  have hhead : (skip t).head? = some ',' := by rw [hcomma, List.head?_cons]
  obtain rfl : (skip t).tail = u := by rw [hcomma, List.tail_cons]
  rw [entries?, he]
  simp only [hhead]
  exact hmore.map (g := (e :: ·)) (fun _ => rfl) fun _ => rfl

theorem gives_object?_nil (hclose : skip s = '\x7d' :: rest) :
    Gives (object? value s) (.object []) rest := by
  have hhead : (skip s).head? = some '\x7d' := by rw [hclose, List.head?_cons]
  have htail : (skip s).tail = rest := by rw [hclose, List.tail_cons]
  rw [object?, dif_pos hhead, gives_some]
  exact ⟨rfl, htail⟩

theorem gives_object? (h : Gives (entries? value s) es rest) :
    Gives (object? value s) (.object es) rest := by
  have hne : (skip s).head? ≠ some '\x7d' := by
    intro hhead
    obtain ⟨_, hread⟩ := h
    have hkey : key? s = none := by
      rw [key?, if_neg (by rw [hhead]; decide)]
    have hentry : entry? value s = none := by
      unfold entry?
      rw [hkey]
    rw [entries?, hentry] at hread
    cases hread
  rw [object?, dif_neg hne]
  exact h.map (fun _ => rfl) fun _ => rfl

end

/-! ### Written values -/

/-- A mark behind blanks ends a numeral. -/
theorem endsNumeral_mark {c : Char} {g s : List Char} (hg : ∀ d ∈ g, isSpace d = true)
    (hc : c = ',' ∨ c = ']' ∨ c = '\x7d') : EndsNumeral (g ++ c :: s) := by
  have hall : [' ', '\n', '\t', '\r', ',', ']', '\x7d'].all
      (fun d => !d.isDigit && d != '.' && d != 'e' && d != 'E') = true := by decide
  have hmarks : ∀ d ∈ [' ', '\n', '\t', '\r', ',', ']', '\x7d'],
      d.isDigit = false ∧ d ≠ '.' ∧ d ≠ 'e' ∧ d ≠ 'E' := by
    intro d hd
    simpa [and_assoc] using List.all_eq_true.mp hall d hd
  intro d hd
  apply hmarks
  cases g with
  | nil =>
    obtain rfl : c = d := Option.some.inj hd
    rcases hc with rfl | rfl | rfl <;> decide
  | cons b g =>
    obtain rfl : b = d := Option.some.inj hd
    have hb := hg b List.mem_cons_self
    simp only [isSpace, Bool.or_eq_true, beq_iff_eq] at hb
    rcases hb with ((rfl | rfl) | rfl) | rfl <;> decide

theorem endsNumeral_comma (s : List Char) : EndsNumeral (',' :: s) :=
  endsNumeral_mark (g := []) (fun _ hd => absurd hd List.not_mem_nil) (.inl rfl)

section
variable {style : Style} {d : Nat} {rest : List Char}

/-- What is written of a value is read at a depth as the value, and what stands behind it is
left. -/
def ReadsBack (style : Style) (d : Nat) (j : Json) : Prop :=
  ∀ n {rest : List Char}, EndsNumeral rest → Gives (value? d (textAt style n j ++ rest)) j rest

theorem gives_itemsText (hstyle : style.IsBlank) {x : Json} {xs : List Json}
    (h : ∀ y ∈ x :: xs, ReadsBack style d y) (n m : Nat) (rest : List Char) :
    Gives (items? (value? d) (itemsText style n (x :: xs) ++ (style.gap m ++ ']' :: rest)))
      (x :: xs) rest := by
  induction xs generalizing x with
  | nil =>
    have hend : EndsNumeral (style.gap m ++ ']' :: rest) :=
      endsNumeral_mark (hstyle.gap m) (.inr (.inl rfl))
    have hx := List.forall_mem_singleton.mp h n hend
    rw [itemsText, List.append_assoc]
    apply gives_items?_last (gives_value?_gap (hstyle.gap n) hx)
    rw [skip_append (hstyle.gap m), skip_cons rfl]
  | cons y xs ih =>
    obtain ⟨hx, hxs⟩ := List.forall_mem_cons.mp h
    rw [itemsText, List.append_assoc, List.append_assoc]
    have hitem := gives_value?_gap (hstyle.gap n)
      (hx n (endsNumeral_comma (itemsText style n (y :: xs) ++ (style.gap m ++ ']' :: rest))))
    exact gives_items?_cons hitem (skip_cons rfl _) (ih hxs)

/-- A written key is read back, blanks in front of it apart. -/
theorem gives_key?_stringText {g : List Char} (hg : ∀ c ∈ g, isSpace c = true) (k : String) :
    Gives (key? (g ++ (stringText k ++ rest))) k rest := by
  have hquoted := gives_quoted?_escapedChars k.toList rest
  have hskip : skip (g ++ (stringText k ++ rest)) =
      '\x22' :: (k.toList.flatMap escapedChar ++ '\x22' :: rest) := by
    rw [skip_append hg, stringText, List.cons_append, skip_cons rfl, List.append_assoc]
    rfl
  have hkey := gives_key? hskip hquoted
  rwa [String.ofList_toList] at hkey

theorem gives_entryText (hstyle : style.IsBlank) {x : Json} (h : ReadsBack style d x) (n : Nat)
    (k : String) (hrest : EndsNumeral rest) :
    Gives ( entry? (value? d)
        (style.gap n ++ (stringText k ++ ':' :: (style.afterColon ++ (textAt style n x ++ rest)))))
      (k, x) rest :=
  gives_entry? (gives_key?_stringText (hstyle.gap n) k) (skip_cons rfl _)
    (gives_value?_gap hstyle.afterColon (h n hrest))

theorem gives_entriesText (hstyle : style.IsBlank) {e : String × Json} {es : List (String × Json)}
    (h : ∀ f ∈ e :: es, ReadsBack style d f.2) (n m : Nat) (rest : List Char) :
    Gives (entries? (value? d) (entriesText style n (e :: es) ++ (style.gap m ++ '\x7d' :: rest)))
      (e :: es) rest := by
  induction es generalizing e with
  | nil =>
    have hend : EndsNumeral (style.gap m ++ '\x7d' :: rest) :=
      endsNumeral_mark (hstyle.gap m) (.inr (.inr rfl))
    have hentry := gives_entryText hstyle (h e List.mem_cons_self) n e.1 hend
    rw [entriesText, List.append_assoc, List.append_assoc, List.cons_append, List.append_assoc]
    apply gives_entries?_last hentry
    rw [skip_append (hstyle.gap m), skip_cons rfl]
  | cons f es ih =>
    obtain ⟨he, hes⟩ := List.forall_mem_cons.mp h
    have hentry := gives_entryText hstyle he n e.1
      (endsNumeral_comma (entriesText style n (f :: es) ++ (style.gap m ++ '\x7d' :: rest)))
    have hentries := gives_entries?_cons hentry (skip_cons rfl _) (ih hes)
    rw [entriesText, List.append_assoc, List.append_assoc, List.append_assoc, List.cons_append,
      List.cons_append, List.append_assoc]
    exact hentries

/-- Data without fractions is read back at every depth that its containers do not exceed. -/
theorem IsPlain.readsBack (hstyle : style.IsBlank) {j : Json} (hj : j.IsPlain)
    (hd : j.nesting ≤ d) : ReadsBack style d j := by
  induction hj generalizing d with
  | null =>
    intro n rest _
    exact gives_value?_iff.mpr ⟨'n', _, rfl, gives_word? "ull"⟩
  | bool b =>
    intro n rest _
    cases b with
    | true => exact gives_value?_iff.mpr ⟨'t', _, rfl, gives_word? "rue"⟩
    | false => exact gives_value?_iff.mpr ⟨'f', _, rfl, gives_word? "alse"⟩
  | number hi =>
    intro n rest hrest
    obtain ⟨c, s, htext, hc, hread⟩ := gives_numeral? hi hrest
    have hne : ∀ b : Char, b ≠ '-' → b.isDigit = false → c ≠ b := by
      rintro b hminus hdigit rfl
      rcases hc with rfl | hc
      · exact hminus rfl
      · rw [hc] at hdigit
        cases hdigit
    have hspace : isSpace c = false := by
      simp only [isSpace, Bool.or_eq_false_iff, beq_eq_false_iff_ne]
      exact ⟨⟨⟨hne _ (by decide) rfl, hne _ (by decide) rfl⟩, hne _ (by decide) rfl⟩,
        hne _ (by decide) rfl⟩
    rw [textAt, numberText_ofInt hi, htext]
    refine gives_value?_iff.mpr ⟨c, s, skip_cons hspace s, ?_⟩
    unfold valueFrom?
    rw [if_neg (hne _ (by decide) rfl), if_neg (hne _ (by decide) rfl),
      if_neg (hne _ (by decide) rfl), if_pos (by simpa using hc)]
    exact hread.map (fun _ => rfl) fun _ => rfl
  | string s =>
    intro n rest _
    have hread := gives_value?_string (d := d) (gives_quoted?_escapedChars s.toList rest)
    rw [String.ofList_toList] at hread
    rw [textAt, stringText, List.cons_append, List.append_assoc]
    exact hread
  | @array xs _ ih =>
    intro n rest _
    cases d with
    | zero => cases hd
    | succ d =>
      rw [nesting, Nat.succ_le_succ_iff, itemsNesting_le_iff] at hd
      cases xs with
      | nil =>
        have hread : Gives (array? (value? d) (']' :: rest)) (.array []) rest :=
          gives_array?_nil (skip_cons rfl rest)
        rw [textAt]
        exact gives_value?_iff.mpr
          ⟨'[', _, rfl, hread.map_same (fun _ => rfl) fun _ => rfl⟩
      | cons x xs =>
        have hitems := gives_itemsText hstyle (fun y hy => ih y hy (hd y hy)) (n + 1) n rest
        have hread := gives_array? hitems
        rw [textAt, List.cons_append, List.append_assoc, List.append_assoc]
        exact gives_value?_iff.mpr
          ⟨'[', _, skip_cons rfl _, hread.map_same (fun _ => rfl) fun _ => rfl⟩
  | @object es _ ih =>
    intro n rest _
    cases d with
    | zero => cases hd
    | succ d =>
      rw [nesting, Nat.succ_le_succ_iff, entriesNesting_le_iff] at hd
      cases es with
      | nil =>
        have hread : Gives (object? (value? d) ('\x7d' :: rest)) (.object []) rest :=
          gives_object?_nil (skip_cons rfl rest)
        rw [textAt]
        exact gives_value?_iff.mpr
          ⟨'\x7b', _, rfl, hread.map_same (fun _ => rfl) fun _ => rfl⟩
      | cons e es =>
        have hentries :=
          gives_entriesText hstyle (fun f hf => ih f hf (hd f hf)) (n + 1) n rest
        have hread := gives_object? hentries
        rw [textAt, List.cons_append, List.append_assoc, List.append_assoc]
        exact gives_value?_iff.mpr
          ⟨'\x7b', _, skip_cons rfl _, hread.map_same (fun _ => rfl) fun _ => rfl⟩

end

theorem endsNumeral_blanks {g : List Char} (hg : ∀ c ∈ g, isSpace c = true) : EndsNumeral g := by
  cases g with
  | nil => exact fun _ hc => by cases hc
  | cons b g =>
    intro d hd
    have hmark := endsNumeral_mark (s := []) hg (.inl rfl)
    exact hmark d hd

/-- Data without fractions is read back from its text in every style with blank gaps, whatever
blanks stand behind it. -/
theorem read?_textAt_append {style : Style} (hstyle : style.IsBlank) {j : Json} (hj : j.IsPlain)
    {limit : Nat} (hlimit : j.nesting ≤ limit) {g : List Char} (hg : ∀ c ∈ g, isSpace c = true) :
    read? limit (textAt style 0 j ++ g) = some j := by
  obtain ⟨_, hread⟩ := hj.readsBack hstyle hlimit 0 (endsNumeral_blanks hg)
  have hskip : skip g = [] := by
    have hall := skip_append hg []
    rwa [List.append_nil] at hall
  rw [read?, hread]
  exact if_pos hskip

/-- Data without fractions is read back from its text in every style with blank gaps. -/
theorem read?_textAt {style : Style} (hstyle : style.IsBlank) {j : Json} (hj : j.IsPlain)
    {limit : Nat} (hlimit : j.nesting ≤ limit) : read? limit (textAt style 0 j) = some j := by
  have hread := read?_textAt_append hstyle hj hlimit (g := []) fun _ hc => absurd hc List.not_mem_nil
  rwa [List.append_nil] at hread

/-! ### Reading without a limit -/

/-- The text of a member is part of the text of the items. -/
theorem length_textAt_le_itemsText (style : Style) (n : Nat) {x : Json} {xs : List Json}
    (hx : x ∈ xs) : (textAt style n x).length ≤ (itemsText style n xs).length := by
  induction xs with
  | nil => cases hx
  | cons y xs ih =>
    cases xs with
    | nil =>
      obtain rfl := List.mem_singleton.mp hx
      rw [itemsText, List.length_append]
      omega
    | cons z xs =>
      rw [itemsText, List.length_append, List.length_append, List.length_cons]
      rcases List.mem_cons.mp hx with rfl | hx
      · omega
      · have hrest := ih hx
        omega

/-- The text of a value is part of the text of the entries. -/
theorem length_textAt_le_entriesText (style : Style) (n : Nat) {e : String × Json}
    {es : List (String × Json)} (he : e ∈ es) :
    (textAt style n e.2).length ≤ (entriesText style n es).length := by
  induction es with
  | nil => cases he
  | cons f es ih =>
    cases es with
    | nil =>
      obtain rfl := List.mem_singleton.mp he
      simp only [entriesText, List.length_append, List.length_cons]
      omega
    | cons g es =>
      simp only [entriesText, List.length_append, List.length_cons]
      rcases List.mem_cons.mp he with rfl | he
      · omega
      · have hrest := ih he
        omega

/-- A text has room for all the containers that stand inside one another. -/
theorem IsPlain.nesting_le_length {j : Json} (hj : j.IsPlain) (style : Style) (n : Nat) :
    j.nesting ≤ (textAt style n j).length := by
  induction hj generalizing n with
  | @array xs _ ih =>
    cases xs with
    | nil => exact Nat.succ_le_succ (Nat.zero_le 1)
    | cons x xs =>
      have hitems : itemsNesting (x :: xs) ≤ (itemsText style (n + 1) (x :: xs)).length :=
        itemsNesting_le_iff.mpr fun y hy =>
          Nat.le_trans (ih y hy (n + 1)) (length_textAt_le_itemsText style (n + 1) hy)
      simp only [nesting, textAt, List.length_cons, List.length_append]
      omega
  | @object es _ ih =>
    cases es with
    | nil => exact Nat.succ_le_succ (Nat.zero_le 1)
    | cons e es =>
      have hentries : entriesNesting (e :: es) ≤ (entriesText style (n + 1) (e :: es)).length :=
        entriesNesting_le_iff.mpr fun f hf =>
          Nat.le_trans (ih f hf (n + 1)) (length_textAt_le_entriesText style (n + 1) hf)
      simp only [nesting, textAt, List.length_cons, List.length_append]
      omega
  | _ => exact Nat.zero_le _

/-- The value of a text, however deep its containers are nested. -/
def readAll? (s : List Char) : Option Json :=
  read? s.length s

theorem isBlank_prettyStyle : prettyStyle.IsBlank where
  gap depth c hc := by
    rcases List.mem_cons.mp hc with rfl | hc
    · rfl
    · rw [List.eq_of_mem_replicate hc]
      rfl
  afterColon c hc := by
    rw [List.mem_singleton.mp hc]
    rfl

/-- Data without fractions is read back from its text over many lines, with a line end behind it. -/
theorem IsPlain.readAll?_pretty {j : Json} (hj : j.IsPlain) :
    readAll? (j.pretty ++ "\n").toList = some j := by
  have htext : (j.pretty ++ "\n").toList = textAt prettyStyle 0 j ++ ['\n'] := by
    rw [String.toList_append, pretty, String.toList_ofList]
    rfl
  have hdepth : j.nesting ≤ (textAt prettyStyle 0 j ++ ['\n']).length := by
    rw [List.length_append]
    exact Nat.le_add_right_of_le (hj.nesting_le_length prettyStyle 0)
  rw [readAll?, htext]
  apply read?_textAt_append isBlank_prettyStyle hj hdepth
  intro c hc
  rw [List.mem_singleton.mp hc]
  rfl

end DocComments.Json
