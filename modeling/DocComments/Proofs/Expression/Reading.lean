import DocComments.Proofs.Expression.Grammar
import DocComments.Proofs.Text.Trimming
import DocComments.Proofs.Unicode.Disjoint
import Mathlib.Data.List.TakeWhile

/-!
# What the readers of expressions yield

A reader of expressions either fails or yields a value and the text behind it. For each reader one
lemma says when it yields what, in terms of what the readers it is built from yield; nothing behind
these lemmas looks into a reader again. Which fault is told where a reader fails is not treated.
-/

namespace DocComments.Expression
open Text (Found firstMark afterMark trimStart isBlankText)
open Unicode (isBlank)

section
variable {α β : Type} {s t rest : List Char} {a : α}

@[simp] theorem yields_ok {f : Found α s} :
    Yields (.ok f) a rest ↔ f.value = a ∧ f.rest = rest := by
  constructor
  · rintro ⟨_, h⟩
    cases h
    exact ⟨rfl, rfl⟩
  · rintro ⟨rfl, rfl⟩
    exact ⟨f.shorter, rfl⟩

@[simp] theorem not_yields_error {e : Fault (List Char)} :
    ¬ Yields (.error e : Result α s) a rest := by
  rintro ⟨_, h⟩
  cases h

/-- A reader that goes on from an answer changes its value and keeps the text behind it. -/
theorem yields_map {x : Result α s} {f : Found α s → Found β t} {g : α → β} {b : β}
    (hvalue : ∀ y, (f y).value = g y.value) (hrest : ∀ y, (f y).rest = y.rest) :
    Yields (x.map f) b rest ↔ ∃ a, Yields x a rest ∧ g a = b := by
  cases x with
  | error e =>
    simp only [not_yields_error, false_and, exists_false, iff_false]
    exact not_yields_error
  | ok y =>
    change Yields (.ok (f y)) b rest ↔ _
    simp only [yields_ok, hvalue, hrest]
    constructor
    · rintro ⟨rfl, rfl⟩
      exact ⟨_, ⟨rfl, rfl⟩, rfl⟩
    · rintro ⟨_, ⟨rfl, rfl⟩, rfl⟩
      exact ⟨rfl, rfl⟩

/-- Reading a larger text from behind its front changes nothing. -/
theorem yields_map_same {x : Result α s} {f : Found α s → Found α t}
    (hvalue : ∀ y, (f y).value = y.value) (hrest : ∀ y, (f y).rest = y.rest) :
    Yields (x.map f) a rest ↔ Yields x a rest := by
  rw [yields_map (g := id) hvalue hrest]
  simp

/-- Something of the text is read. -/
theorem Yields.length_lt {x : Result α s} (h : Yields x a rest) : rest.length < s.length :=
  h.1

/-- A text has at most one reading. -/
theorem Yields.unique {x : Result α s} {b : α} {t : List Char} (h : Yields x a rest)
    (h' : Yields x b t) : a = b ∧ rest = t := by
  obtain ⟨_, rfl⟩ := h
  exact yields_ok.mp h'

theorem firstMark_of_trimStart {c : Char} {t : List Char} (h : trimStart s = c :: t) :
    firstMark s = some c := by
  rw [firstMark, h]
  rfl

theorem firstMark_eq_some_iff {c : Char} :
    firstMark s = some c ↔ trimStart s = c :: afterMark s := by
  constructor
  · exact Text.trimStart_eq_of_firstMark
  · exact firstMark_of_trimStart

/-- A text without a mark holds nothing but blanks. -/
theorem firstMark_eq_none_iff : firstMark s = none ↔ isBlankText s = true := by
  rw [firstMark, List.head?_eq_none_iff, trimStart, List.dropWhile_eq_nil_iff, isBlankText,
    List.all_eq_true]

end

section
variable {value : Reader} {s rest : List Char}

theorem yields_closed {v : Literal} :
    Yields (closed value s) v rest ↔ Yields (value s) v rest ∧ Ends rest := by
  unfold closed
  cases hread : value s with
  | error e => simp
  | ok f =>
    simp only [yields_ok]
    constructor
    · intro h
      split at h
      · rename_i hnone
        obtain ⟨rfl, rfl⟩ := yields_ok.mp h
        refine ⟨⟨rfl, rfl⟩, ?_⟩
        intro c hc
        rw [hnone] at hc
        cases hc
      · rename_i c hsome
        split at h
        · exact absurd h not_yields_error
        · rename_i hcont
          obtain ⟨rfl, rfl⟩ := yields_ok.mp h
          refine ⟨⟨rfl, rfl⟩, ?_⟩
          intro d hd
          rw [hsome] at hd
          cases hd
          simpa using hcont
    · rintro ⟨⟨rfl, rfl⟩, hends⟩
      split
      · exact yields_ok.mpr ⟨rfl, rfl⟩
      · rename_i c hsome
        rw [hends c hsome]
        exact yields_ok.mpr ⟨rfl, rfl⟩

/-! ### Arrays -/

/-- What stands behind an element of a list: the closing bracket, or a comma and further
elements. -/
theorem yields_behind {α : Type} {f : Found α s} {closing : Char} {xs : List α}
    (more : (u : List Char) → Result (List α) (trimStart u)) (hclosing : closing ≠ ',') :
    Yields
        (match firstMark f.rest with
          | none => .error .unexpectedEnd
          | some d =>
            if d = ',' then
              (more (afterMark f.rest)).map fun g =>
                f.after
                  ((g.map (f.value :: ·)).within (Text.length_trimStart_afterMark_le f.rest))
            else if d = closing then
              .ok ((f.leaving (afterMark f.rest) (Text.length_afterMark_le f.rest)).map ([·]))
            else .error (.unexpectedChar d (trimStart f.rest)) : Result (List α) s)
        xs rest ↔
      (trimStart f.rest = closing :: rest ∧ xs = [f.value]) ∨
        ∃ u us, trimStart f.rest = ',' :: u ∧ Yields (more u) us rest ∧ xs = f.value :: us := by
  split
  · rename_i hnone
    have hnil : trimStart f.rest = [] := List.head?_eq_none_iff.mp hnone
    simp [hnil]
  · rename_i d hsome
    rw [firstMark_eq_some_iff] at hsome
    rw [hsome]
    by_cases hcomma : d = ','
    · subst hcomma
      rw [if_pos rfl, yields_map (g := (f.value :: ·))]
      · simp only [List.cons.injEq, true_and, hclosing.symm, false_and, false_or]
        constructor
        · rintro ⟨us, hus, rfl⟩
          exact ⟨_, us, rfl, hus, rfl⟩
        · rintro ⟨u, us, rfl, hus, rfl⟩
          exact ⟨us, hus, rfl⟩
      · intro y
        rfl
      · intro y
        rfl
    · rw [if_neg hcomma]
      by_cases hclose : d = closing
      · subst hclose
        rw [if_pos rfl, yields_ok]
        simp [hcomma, eq_comm, and_comm]
      · rw [if_neg hclose]
        simp [hclose, hcomma]

theorem not_yields_items_nil {vs : List Literal} : ¬ Yields (items value []) vs rest := by
  rw [items]
  exact not_yields_error

theorem yields_items_close {vs : List Literal} :
    Yields (items value (']' :: s)) vs rest ↔ vs = [] ∧ rest = s := by
  rw [items, if_pos rfl, yields_ok, Text.Found.value_one, Text.Found.rest_one]
  exact and_congr eq_comm eq_comm

theorem yields_items_hole {vs : List Literal} :
    Yields (items value (',' :: s)) vs rest ↔
      ∃ us, Yields (items value (trimStart s)) us rest ∧ vs = .undefined :: us := by
  rw [items, if_neg (by decide), if_pos rfl, yields_map (g := (.undefined :: ·))]
  · simp only [eq_comm]
  · intro y
    rfl
  · intro y
    rfl

/-- An item and what stands behind it: the closing bracket, or a comma and further items. -/
theorem yields_items {c : Char} {vs : List Literal} (hclose : c ≠ ']') (hcomma : c ≠ ',') :
    Yields (items value (c :: s)) vs rest ↔
      startsSpread (c :: s) = false ∧ ∃ v t, Yields (closed value (c :: s)) v t ∧
        ((trimStart t = ']' :: rest ∧ vs = [v]) ∨
          ∃ u us, trimStart t = ',' :: u ∧ Yields (items value (trimStart u)) us rest ∧
            vs = v :: us) := by
  rw [items, if_neg hclose, if_neg hcomma]
  cases hspread : startsSpread (c :: s) with
  | true => simp
  | false =>
    simp only [Bool.false_eq_true, if_false, true_and]
    cases hread : closed value (c :: s) with
    | error e => simp
    | ok f =>
      refine (yields_behind (fun u => items value (trimStart u)) (by decide)).trans ?_
      constructor
      · intro h
        exact ⟨f.value, f.rest, yields_ok.mpr ⟨rfl, rfl⟩, h⟩
      · rintro ⟨v, t, hf, h⟩
        obtain ⟨rfl, rfl⟩ := yields_ok.mp hf
        exact h

end

/-! ### Names and keys -/

section
variable {scope : List String} {s name rest : List Char} {c : Char}

theorem valueOfName_eq_ok_iff {name : String} {v : Literal} :
    valueOfName scope name = .ok v ↔ NameDenotes scope name v := by
  constructor
  · intro h
    unfold valueOfName at h
    split_ifs at h with htrue hfalse hnull hundefined hnan hinfinity hword hscope <;> cases h
    · exact .constant (by simp [constants, htrue])
    · exact .constant (by simp [constants, hfalse])
    · exact .constant (by simp [constants, hnull])
    · exact .constant (by simp [constants, hundefined])
    · exact .constant (by simp [constants, hnan])
    · exact .constant (by simp [constants, hinfinity])
    · refine .bound ?_ hword hscope
      intro v hv
      simp [constants, *] at hv
  · rintro (h | ⟨hconstant, hword, hscope⟩)
    · simp only [constants, List.mem_cons, Prod.mk.injEq, List.not_mem_nil, or_false] at h
      rcases h with ⟨rfl, rfl⟩ | ⟨rfl, rfl⟩ | ⟨rfl, rfl⟩ | ⟨rfl, rfl⟩ | ⟨rfl, rfl⟩ | ⟨rfl, rfl⟩
        <;> rfl
    · have hne : ∀ e ∈ constants, name ≠ e.1 := by
        rintro e he rfl
        exact hconstant e.2 he
      simp only [constants, List.forall_mem_cons, List.not_mem_nil, false_imp_iff,
        implies_true, and_true] at hne
      simp [valueOfName, hne, hword, hscope]

/-- What holds of the ten digits holds of every digit. -/
theorem of_isDigit {P : Char → Bool} (hP : "0123456789".toList.all P = true)
    (h : c.isDigit = true) : P c = true := by
  have hmem : c.toNat ∈ List.range' 48 10 := by
    simp only [Char.isDigit, Bool.and_eq_true, decide_eq_true_eq,
      UInt32.le_iff_toNat_le] at h
    rw [List.mem_range'_1]
    exact ⟨h.1, Nat.lt_succ_of_le h.2⟩
  have hc := List.mem_map_of_mem (f := Char.ofNat) hmem
  rw [Char.ofNat_toNat] at hc
  exact List.all_eq_true.mp hP c hc

/-- No digit starts a name. -/
theorem isNameStart_of_isDigit (h : c.isDigit = true) : isNameStart c = false := by
  have hc := of_isDigit (P := fun d => !isNameStart d) (by decide) h
  simpa using hc

/-- No digit is blank. -/
theorem isBlank_of_isDigit (h : c.isDigit = true) : isBlank c = false := by
  have hc := of_isDigit (P := fun d => !isBlank d) (by decide) h
  simpa using hc

/-- A character that starts a name is none that does not. -/
theorem ne_of_isNameStart {d : Char} (h : isNameStart c = true) (hd : isNameStart d = false) :
    c ≠ d := by
  rintro rfl
  rw [h] at hd
  cases hd

theorem ne_of_isDigit {d : Char} (h : c.isDigit = true) (hd : d.isDigit = false) : c ≠ d := by
  rintro rfl
  rw [h] at hd
  cases hd

/-- A name reaches as far as its characters do. -/
theorem takesName_cons_iff :
    TakesName (c :: s) name rest ↔
      isNameStart c = true ∧ name = c :: s.takeWhile isNamePart ∧
        rest = s.dropWhile isNamePart := by
  constructor
  · rintro ⟨heq, ⟨d, t, rfl, hstart, hpart⟩, hlongest⟩
    simp only [List.cons_append, List.cons.injEq] at heq
    obtain ⟨rfl, rfl⟩ := heq
    have hspan := Text.span_append hpart hlongest
    rw [hspan.1, hspan.2]
    exact ⟨hstart, rfl, rfl⟩
  · rintro ⟨hstart, rfl, rfl⟩
    refine ⟨?_, ⟨c, _, rfl, hstart, ?_⟩, ?_⟩
    · rw [List.cons_append, List.takeWhile_append_dropWhile]
    · intro d hd
      exact List.all_eq_true.mp List.all_takeWhile d hd
    · intro d hd
      have hnot := List.head?_dropWhile_not isNamePart s
      rw [hd] at hnot
      simpa using hnot

theorem not_takesName_nil : ¬ TakesName [] name rest := by
  rintro ⟨heq, ⟨c, t, rfl, -⟩, -⟩
  cases heq

/-- No blank starts a name or stands in it. -/
theorem isNamePart_of_isBlank (h : isBlank c = true) : isNamePart c = false := by
  have hdollar : c ≠ '$' := by
    rintro rfl
    cases h
  have hgap : c ≠ '_' := by
    rintro rfl
    cases h
  simp [isNamePart, hdollar, hgap, Unicode.isAlphanumeric_of_isBlank h]

theorem isNamePart_of_isNameStart (h : isNameStart c = true) : isNamePart c = true := by
  rw [isNameStart, Bool.or_eq_true_iff] at h
  rw [isNamePart, Unicode.isAlphanumeric, Bool.or_eq_true_iff]
  rcases h with hmark | hletter
  · exact .inl hmark
  · exact .inr (by rw [hletter, Bool.true_or])

theorem isBlank_of_isNameStart (h : isNameStart c = true) : isBlank c = false := by
  cases hblank : isBlank c with
  | false => rfl
  | true =>
    have hpart := isNamePart_of_isNameStart h
    rw [isNamePart_of_isBlank hblank] at hpart
    cases hpart

/-- Three points do not start a text whose first character is another one. -/
theorem startsSpread_cons_of_ne (h : c ≠ '.') : startsSpread (c :: s) = false := by
  change ('.' == c && _) = false
  rw [beq_false_of_ne h.symm, Bool.false_and]

theorem isBlank_of_startsNumeral (h : startsNumeral (c :: s) = true) : isBlank c = false := by
  rcases Bool.or_eq_true_iff.mp h with hdigit | hpoint
  · exact isBlank_of_isDigit hdigit
  · rw [Bool.and_eq_true, beq_iff_eq] at hpoint
    obtain ⟨rfl, -⟩ := hpoint
    rfl

/-- A key starts with no blank and with no closing brace. -/
theorem TakesKey.exists_cons {k : String} (h : TakesKey s k rest) :
    ∃ c t, s = c :: t ∧ isBlank c = false ∧ c ≠ '\x7d' := by
  cases h with
  | string hq _ => rcases hq with rfl | rfl <;> exact ⟨_, _, rfl, rfl, by decide⟩
  | number hc _ => exact ⟨_, _, rfl, isBlank_of_isDigit hc, ne_of_isDigit hc (by decide)⟩
  | name h =>
    cases s with
    | nil => exact absurd h not_takesName_nil
    | cons c s =>
      obtain ⟨hc, -⟩ := takesName_cons_iff.mp h
      exact ⟨c, s, rfl, isBlank_of_isNameStart hc, ne_of_isNameStart hc (by decide)⟩

theorem yields_key {k : String} :
    Yields (key c s) k rest ↔ TakesKey (c :: s) k rest := by
  rw [key]
  constructor
  · intro h
    split_ifs at h with hquote hbracket hspread hdigit hname
    · rw [yields_map (g := String.ofList) (fun _ => rfl) (fun _ => rfl)] at h
      obtain ⟨t, ht, rfl⟩ := h
      exact .string (by simpa using hquote) ht
    · exact absurd h not_yields_error
    · exact absurd h not_yields_error
    · rw [yields_map (g := numberKey) (fun _ => rfl) (fun _ => rfl)] at h
      obtain ⟨n, hn, rfl⟩ := h
      exact .number hdigit hn
    · obtain ⟨rfl, rfl⟩ := yields_ok.mp h
      exact .name (takesName_cons_iff.mpr ⟨hname, rfl, rfl⟩)
    · exact absurd h not_yields_error
  · intro h
    cases h with
    | @string _ _ t _ hq h =>
      rw [if_pos (by simpa using hq), yields_map (g := String.ofList) (fun _ => rfl) (fun _ => rfl)]
      exact ⟨t, h, rfl⟩
    | @number _ _ _ n hc h =>
      have hne : ∀ d : Char, d.isDigit = false → c ≠ d := fun d => ne_of_isDigit hc
      rw [if_neg (by simp [hne]), if_neg (hne _ (by decide)),
        startsSpread_cons_of_ne (hne _ (by decide)), if_neg (by decide), if_pos hc,
        yields_map (g := numberKey) (fun _ => rfl) (fun _ => rfl)]
      exact ⟨n, h, rfl⟩
    | name h =>
      obtain ⟨hname, rfl, rfl⟩ := takesName_cons_iff.mp h
      have hne : ∀ d : Char, isNameStart d = false → c ≠ d := fun d => ne_of_isNameStart hname
      have hdigit : ¬ c.isDigit = true := fun hc => by
        rw [isNameStart_of_isDigit hc] at hname
        cases hname
      have hquote : ¬ (c = '\x27' ∨ c = '\x22') :=
        not_or.mpr ⟨hne _ (by decide), hne _ (by decide)⟩
      rw [if_neg (by simpa using hquote), if_neg (hne _ (by decide)),
        startsSpread_cons_of_ne (hne _ (by decide)), if_neg (by decide), if_neg hdigit,
        if_pos hname]
      exact yields_ok.mpr ⟨rfl, rfl⟩

end

/-! ### Objects -/

section
variable {scope : List String} {value : Reader} {s rest : List Char} {k : Found String s}
  {e : String × Literal}

/-- Behind a key stand a colon and an expression, or a mark that ends the entry. -/
theorem yields_entryAfterKey :
    Yields (entryAfterKey scope value k) e rest ↔
      (∃ u v, trimStart k.rest = ':' :: u ∧ Yields (closed value u) v rest ∧ e = (k.value, v)) ∨
        ((firstMark k.rest = some ',' ∨ firstMark k.rest = some '\x7d') ∧
          ∃ v, NameDenotes scope k.value v ∧ e = (k.value, v) ∧ rest = k.rest) := by
  rw [entryAfterKey]
  split
  · rename_i hnone
    have hnil : trimStart k.rest = [] := List.head?_eq_none_iff.mp hnone
    simp [hnil, hnone]
  · rename_i c hsome
    have htrim := firstMark_eq_some_iff.mp hsome
    rw [htrim, hsome]
    by_cases hcolon : c = ':'
    · subst hcolon
      rw [if_pos rfl, yields_map (g := (k.value, ·))]
      · simp [eq_comm]
      · intro y
        rfl
      · intro y
        rfl
    · rw [if_neg hcolon]
      by_cases hend : c = ',' ∨ c = '\x7d'
      · rw [if_pos (by simpa using hend)]
        simp only [← valueOfName_eq_ok_iff]
        cases valueOfName scope k.value with
        | error e => simp [hcolon]
        | ok v => simp [hcolon, hend, eq_comm]
      · rw [if_neg (by simpa using hend)]
        rw [not_or] at hend
        split
        · simp [hcolon, hend]
        · simp [hcolon, hend]

theorem yields_entry {c : Char} :
    Yields (entry scope value c s) e rest ↔
      ∃ k t, TakesKey (c :: s) k t ∧
        ((∃ u v, trimStart t = ':' :: u ∧ Yields (closed value u) v rest ∧ e = (k, v)) ∨
          ((firstMark t = some ',' ∨ firstMark t = some '\x7d') ∧
            ∃ v, NameDenotes scope k v ∧ e = (k, v) ∧ rest = t)) := by
  unfold entry
  simp only [← yields_key]
  cases key c s with
  | error f => simp
  | ok k =>
    refine yields_entryAfterKey.trans ?_
    constructor
    · intro h
      exact ⟨k.value, k.rest, yields_ok.mpr ⟨rfl, rfl⟩, h⟩
    · rintro ⟨_, _, hk, h⟩
      obtain ⟨rfl, rfl⟩ := yields_ok.mp hk
      exact h

theorem not_yields_entries_nil {es : List (String × Literal)} :
    ¬ Yields (entries scope value []) es rest := by
  rw [entries]
  exact not_yields_error

theorem yields_entries_close {es : List (String × Literal)} :
    Yields (entries scope value ('\x7d' :: s)) es rest ↔ es = [] ∧ rest = s := by
  rw [entries, if_pos rfl, yields_ok, Text.Found.value_one, Text.Found.rest_one]
  exact and_congr eq_comm eq_comm

/-- An entry and what stands behind it: the closing brace, or a comma and further entries. -/
theorem yields_entries {c : Char} {es : List (String × Literal)} (hclose : c ≠ '\x7d') :
    Yields (entries scope value (c :: s)) es rest ↔
      ∃ e t, Yields (entry scope value c s) e t ∧
        ((trimStart t = '\x7d' :: rest ∧ es = [e]) ∨
          ∃ u fs, trimStart t = ',' :: u ∧ Yields (entries scope value (trimStart u)) fs rest ∧
            es = e :: fs) := by
  rw [entries, if_neg hclose]
  cases hread : entry scope value c s with
  | error e => simp
  | ok f =>
    refine (yields_behind (fun u => entries scope value (trimStart u)) (by decide)).trans ?_
    constructor
    · intro h
      exact ⟨f.value, f.rest, yields_ok.mpr ⟨rfl, rfl⟩, h⟩
    · rintro ⟨e, t, hf, h⟩
      obtain ⟨rfl, rfl⟩ := yields_ok.mp hf
      exact h

end

/-! ### Operands -/

section
variable {value : Reader} {v : Literal} {c : Char} {s rest : List Char}

theorem yields_grouped :
    Yields (grouped value s) v rest ↔
      ∃ t, Yields (closed value s) v t ∧ trimStart t = ')' :: rest := by
  unfold grouped
  cases hread : closed value s with
  | error e => simp
  | ok f =>
    simp only [yields_ok]
    split
    · rename_i hnone
      have hnil : trimStart f.rest = [] := List.head?_eq_none_iff.mp hnone
      simp only [not_yields_error, false_iff, not_exists]
      rintro t ⟨⟨-, rfl⟩, h⟩
      rw [hnil] at h
      cases h
    · rename_i d hsome
      rw [firstMark_eq_some_iff] at hsome
      by_cases hclose : d = ')'
      · rw [if_pos hclose, yields_ok]
        constructor
        · rintro ⟨rfl, rfl⟩
          exact ⟨f.rest, ⟨rfl, rfl⟩, hclose ▸ hsome⟩
        · rintro ⟨t, ⟨rfl, rfl⟩, h⟩
          rw [hsome, List.cons.injEq] at h
          exact ⟨rfl, h.2⟩
      · rw [if_neg hclose]
        simp only [not_yields_error, false_iff, not_exists]
        rintro t ⟨⟨-, rfl⟩, h⟩
        rw [hsome, List.cons.injEq] at h
        exact hclose h.1

theorem yields_signed {negative : Bool} :
    Yields (signed negative value s) v rest ↔
      ∃ n, Yields (value s) (.number n) rest ∧
        v = .number (if negative then n.negate else n) := by
  unfold signed
  cases hread : value s with
  | error e => simp
  | ok f =>
    simp only [yields_ok]
    cases hvalue : f.value with
    | number n => simp [eq_comm, and_comm]
    | _ => simp

theorem yields_array :
    Yields (array value s) v rest ↔
      ∃ vs, Yields (items value (trimStart s)) vs rest ∧ .array vs = v :=
  yields_map (fun _ => rfl) (fun _ => rfl)

theorem yields_object {scope : List String} :
    Yields (object scope value s) v rest ↔
      ∃ es, Yields (entries scope value (trimStart s)) es rest ∧ .object es = v :=
  yields_map (fun _ => rfl) (fun _ => rfl)

theorem yields_inside {limit : Nat} {value? : Option Reader} {read : Reader → Reader} :
    Yields (inside limit value? read c s) v rest ↔
      ∃ value, value? = some value ∧ Yields (read value s) v rest := by
  unfold inside
  cases value? with
  | none => simp
  | some value =>
    simp [yields_map_same Text.Found.value_behind Text.Found.rest_behind]

theorem yields_level {setting : Setting} {value? : Option Reader} :
    Yields (level setting value? s) v rest ↔
      ∃ c t, trimStart s = c :: t ∧ Yields (valueFrom setting value? c t) v rest := by
  unfold level
  split
  · rename_i hnil
    simp [hnil]
  · rename_i c t hcons
    have hle := Text.length_le_of_trimStart_eq_cons hcons
    rw [yields_map_same (fun y => Text.Found.value_within y hle)
      (fun y => Text.Found.rest_within y hle)]
    simp [hcons]

end

section
variable {setting : Setting} {value? : Option Reader} {v : Literal} {c : Char} {s rest : List Char}

/-- The reader for the levels inside a level, if there are any. -/
def inner? (setting : Setting) : Nat → Option Reader
  | 0 => none
  | depth + 1 => some (value setting depth)

theorem value_eq_level (setting : Setting) (depth : Nat) :
    value setting depth = level setting (inner? setting depth) := by
  cases depth <;> rfl

/-- A value is read from behind the blanks in front of it. -/
theorem yields_value {depth : Nat} :
    Yields (value setting depth s) v rest ↔
      ∃ c t, trimStart s = c :: t ∧
        Yields (valueFrom setting (inner? setting depth) c t) v rest := by
  rw [value_eq_level]
  exact yields_level

/-- A fault at the first mark is the fault of the value. -/
theorem value_eq_error {depth : Nat} {e : Fault (List Char)} (hc : isBlank c = false)
    (h : valueFrom setting (inner? setting depth) c s = .error e) :
    value setting depth (c :: s) = .error e := by
  rw [value_eq_level]
  unfold level
  split
  · rename_i hnil
    rw [Text.trimStart_cons_of_not_blank hc] at hnil
    cases hnil
  · rename_i d t hcons
    rw [Text.trimStart_cons_of_not_blank hc] at hcons
    cases hcons
    rw [h]
    rfl

/-- No value starts with a mark that ends an item. -/
theorem not_yields_valueFrom (hc : c = ']' ∨ c = ',') :
    ¬ Yields (valueFrom setting value? c s) v rest := by
  have hname : isNameStart c = false := by
    rcases hc with rfl | rfl <;> decide
  rcases hc with rfl | rfl <;> simp [valueFrom, hname]

/-- A value that starts with a point is a numeral. -/
theorem startsSpread_of_yields_valueFrom (h : Yields (valueFrom setting value? c s) v rest) :
    startsSpread (c :: s) = false := by
  by_cases hpoint : c = '.'
  · subst hpoint
    have hdigit : s.head?.any Char.isDigit = true := by
      by_contra hnot
      have hname : isNameStart '.' = false := by decide
      simp [valueFrom, hname, hnot] at h
    cases s with
    | nil => rfl
    | cons d s =>
      have hd : d ≠ '.' := ne_of_isDigit hdigit (by decide)
      change ('.' == '.' && ('.' == d && _)) = false
      rw [beq_false_of_ne hd.symm, Bool.false_and, Bool.and_false]
  · exact startsSpread_cons_of_ne hpoint

theorem yields_valueFrom_number {n : Number} (hstart : startsNumeral (c :: s) = true)
    (h : Yields (numeral (c :: s)) n rest) :
    Yields (valueFrom setting value? c s) (.number n) rest := by
  have hne : ∀ d : Char, d.isDigit = false → d ≠ '.' → c ≠ d := by
    rintro d hdigit hpoint rfl
    simp [startsNumeral, hdigit, hpoint] at hstart
  have hsign : ¬ (c = '-' ∨ c = '+') :=
    not_or.mpr ⟨hne _ (by decide) (by decide), hne _ (by decide) (by decide)⟩
  have hrefused : ¬ (c = '!' ∨ c = '~') :=
    not_or.mpr ⟨hne _ (by decide) (by decide), hne _ (by decide) (by decide)⟩
  rw [valueFrom, if_neg (by simpa using hsign), if_neg (by simpa using hrefused),
    if_pos (by exact hstart), yields_map (g := Literal.number) (fun _ => rfl) (fun _ => rfl)]
  exact ⟨n, h, rfl⟩

theorem yields_valueFrom_string {t : List Char} (hc : c = '\x27' ∨ c = '\x22')
    (h : Yields (quoted c s) t rest) :
    Yields (valueFrom setting value? c s) (.string (String.ofList t)) rest := by
  have hread : valueFrom setting value? c s =
      (quoted c s).map fun f => (f.map (Literal.string ∘ String.ofList)).behind := by
    rcases hc with rfl | rfl <;> rfl
  rw [hread, yields_map (g := Literal.string ∘ String.ofList) (fun _ => rfl) (fun _ => rfl)]
  exact ⟨t, h, rfl⟩

theorem yields_valueFrom_template {t : List Char} (h : Yields (template s) t rest) :
    Yields (valueFrom setting value? '\x60' s) (.string (String.ofList t)) rest := by
  have hread : valueFrom setting value? '\x60' s =
      (template s).map fun f => (f.map (Literal.string ∘ String.ofList)).behind := rfl
  rw [hread, yields_map (g := Literal.string ∘ String.ofList) (fun _ => rfl) (fun _ => rfl)]
  exact ⟨t, h, rfl⟩

theorem yields_valueFrom_name {name : List Char} (hname : TakesName (c :: s) name rest)
    (h : NameDenotes setting.scope (String.ofList name) v) :
    Yields (valueFrom setting value? c s) v rest := by
  obtain ⟨hstart, rfl, rfl⟩ := takesName_cons_iff.mp hname
  have hne : ∀ d : Char, isNameStart d = false → c ≠ d := fun d => ne_of_isNameStart hstart
  have hdigit : c.isDigit = false := by
    cases hc : c.isDigit with
    | false => rfl
    | true =>
      rw [isNameStart_of_isDigit hc] at hstart
      cases hstart
  have hmarks : ∀ d ∈ ['-', '+', '!', '~', '.', '\x27', '\x22', '\x60', '[', '\x7b', '('],
      c ≠ d := by
    have hall : ['-', '+', '!', '~', '.', '\x27', '\x22', '\x60', '[', '\x7b', '('].all
        (fun d => !isNameStart d) = true := by decide
    intro d hd
    exact hne d (by simpa using List.all_eq_true.mp hall d hd)
  simp only [List.forall_mem_cons, List.not_mem_nil, false_imp_iff, implies_true, and_true]
    at hmarks
  rw [← valueOfName_eq_ok_iff] at h
  simp [-String.ofList_cons, valueFrom, hmarks, hdigit, hstart, h]

end

end DocComments.Expression
