import DocComments.Json.Printer
import DocComments.Proofs.Number.Whole
import Mathlib.Tactic.SplitIfs

/-!
# Written data

What the printer writes for the parts of data: a whole number up to `2 ^ 53` is its decimal digits,
behind a minus sign if it is negative, and each character of a string stands for itself, behind a
backslash under a letter of its own, or as a code point of four digits. Numbers that are written
with a fraction or an exponent are not treated.
-/

namespace DocComments.Json

/-! ### Data without fractions -/

/-- Data whose numbers are all whole and of magnitude up to `2 ^ 53`. -/
inductive IsPlain : Json → Prop
  | null : IsPlain null
  | bool (b : Bool) : IsPlain (bool b)
  | number {i : Int} (h : i.natAbs ≤ 2 ^ 53) : IsPlain (number (.ofInt i))
  | string (s : String) : IsPlain (string s)
  | array {xs : List Json} (h : ∀ x ∈ xs, IsPlain x) : IsPlain (array xs)
  | object {es : List (String × Json)} (h : ∀ e ∈ es, IsPlain e.2) : IsPlain (object es)

mutual

/-- How many containers stand inside one another. -/
def nesting : Json → Nat
  | array items => itemsNesting items + 1
  | object entries => entriesNesting entries + 1
  | _ => 0

/-- The greatest nesting of an item. -/
def itemsNesting : List Json → Nat
  | [] => 0
  | x :: xs => max x.nesting (itemsNesting xs)

/-- The greatest nesting of the value of an entry. -/
def entriesNesting : List (String × Json) → Nat
  | [] => 0
  | (_, x) :: xs => max x.nesting (entriesNesting xs)

end

theorem itemsNesting_le_iff {xs : List Json} {d : Nat} :
    itemsNesting xs ≤ d ↔ ∀ x ∈ xs, x.nesting ≤ d := by
  induction xs with
  | nil => simp [itemsNesting]
  | cons x xs ih => rw [itemsNesting, Nat.max_le, ih, List.forall_mem_cons]

theorem entriesNesting_le_iff {es : List (String × Json)} {d : Nat} :
    entriesNesting es ≤ d ↔ ∀ e ∈ es, e.2.nesting ≤ d := by
  induction es with
  | nil => simp [entriesNesting]
  | cons e es ih => rw [entriesNesting, Nat.max_le, ih, List.forall_mem_cons]

/-! ### Numbers -/

/-- Digits with a minus sign in front if asked for. -/
def signedDigits (negative : Bool) (n : Nat) : List Char :=
  if negative then '-' :: Nat.toDigits 10 n else Nat.toDigits 10 n

/-- A written integer starts with a digit or a minus sign. -/
theorem exists_signedDigits_eq_cons (negative : Bool) (n : Nat) :
    ∃ c s, signedDigits negative n = c :: s ∧ (c = '-' ∨ c.isDigit = true) := by
  cases negative with
  | true => exact ⟨'-', _, rfl, .inl rfl⟩
  | false =>
    obtain ⟨c, s, hdigits⟩ := List.exists_cons_of_ne_nil (Nat.toDigits_ne_nil (n := n) (b := 10))
    have hc : c.isDigit = true :=
      Nat.isDigit_of_mem_toDigits (by decide) (by decide) (hdigits ▸ List.mem_cons_self)
    exact ⟨c, s, hdigits, .inr hc⟩

theorem toList_toString_int (i : Int) :
    (toString i).toList = signedDigits (i < 0) i.natAbs := by
  cases i with
  | ofNat n =>
    have hsign : ¬ Int.ofNat n < 0 := Int.not_lt.mpr (Int.natCast_nonneg n)
    rw [Int.toString_eq_repr, signedDigits, decide_eq_false hsign]
    exact Nat.toList_repr
  | negSucc n =>
    rw [Int.toString_eq_repr, signedDigits, decide_eq_true (Int.negSucc_lt_zero n), if_pos rfl]
    have htext : (Int.negSucc n).repr = "-" ++ (n + 1).repr := rfl
    rw [htext, String.toList_append, Nat.toList_repr]
    rfl

/-- A number that is equal to an integer up to the limit is written as the integer. -/
theorem numberText_of_toInt? {n : Number} {i : Int} (hn : n.toInt? = some i)
    (hi : i.natAbs ≤ largestInteger) : numberText n = (toString i).toList := by
  cases n with
  | nan => cases hn
  | infinite negative => cases hn
  | finite negative rank =>
    have hfinite : numberText (.finite negative rank) =
        finiteText negative rank (Number.finite negative rank).toInt? := rfl
    rw [hfinite, hn, finiteText, if_pos hi]

/-- A whole number is written by its digits. -/
theorem numberText_ofInt {i : Int} (hi : i.natAbs ≤ 2 ^ 53) :
    numberText (.ofInt i) = signedDigits (i < 0) i.natAbs := by
  rw [numberText_of_toInt? (Number.toInt?_ofInt hi) hi, toList_toString_int]

/-- The first digit of a number other than zero is not zero. -/
theorem head?_toDigits_ne {n : Nat} (hn : 0 < n) : (Nat.toDigits 10 n).head? ≠ some '0' := by
  induction n using Nat.strongRecOn with
  | ind n ih =>
    by_cases hlt : n < 10
    · rw [Nat.toDigits_of_lt_base hlt]
      have hall : ∀ d < 10, 0 < d → [Nat.digitChar d].head? ≠ some '0' := by decide
      exact hall n hlt hn
    · have hdiv : n / 10 < n := by omega
      have hfirst := ih (n / 10) hdiv (by omega)
      rw [Nat.toDigits_of_base_le (by decide) (by omega)]
      have hne := Nat.toDigits_ne_nil (n := n / 10) (b := 10)
      obtain ⟨c, t, hdigits⟩ := List.exists_cons_of_ne_nil hne
      rw [hdigits] at hfirst ⊢
      exact hfirst

/-! ### Characters -/

/-- The letters under which characters are written behind a backslash. -/
def letters : List (Char × Char) :=
  [('\x22', '\x22'), ('\\', '\\'), ('b', '\x08'), ('f', '\x0c'), ('n', '\n'), ('r', '\r'),
   ('t', '\t')]

/-- How a character is written in a string. -/
inductive WrittenChar : Char → List Char → Prop
  | letter {l c : Char} (h : (l, c) ∈ letters) : WrittenChar c ['\\', l]
  | code {c : Char} (h : c.toNat < 32) :
      WrittenChar c
        ['\\', 'u', '0', '0', Nat.digitChar (c.toNat / 16), Nat.digitChar (c.toNat % 16)]
  | plain {c : Char} (hquote : c ≠ '\x22') (hslash : c ≠ '\\') (h : 32 ≤ c.toNat) :
      WrittenChar c [c]

theorem writtenChar (c : Char) : WrittenChar c (escapedChar c) := by
  have hletter : ∀ e ∈ letters, c = e.2 → WrittenChar c ['\\', e.1] := by
    rintro ⟨l, d⟩ he rfl
    exact .letter he
  simp only [letters, List.forall_mem_cons, List.not_mem_nil, false_imp_iff, implies_true,
    and_true] at hletter
  obtain ⟨hquote, hslash, hback, hfeed, hline, hreturn, htab⟩ := hletter
  unfold escapedChar
  split_ifs with h₁ h₂ h₃ h₄ h₅ h₆ h₇ hcode
  · exact hquote h₁
  · exact hslash h₂
  · exact hback h₃
  · exact hfeed h₄
  · exact hline h₅
  · exact hreturn h₆
  · exact htab h₇
  · exact .code hcode
  · exact .plain h₁ h₂ (Nat.le_of_not_lt hcode)

end DocComments.Json
