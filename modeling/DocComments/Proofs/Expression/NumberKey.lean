import DocComments.Proofs.Expression.Printed

/-!
# Keys that are numerals

A numeral as the key of an entry is read as a number and then written as a key. A whole number that
the format holds is written by its own digits, so such a key is the numeral again; but from `2 ^ 63`
on every one of them is written as the largest signed integer of 64 bits.
-/

namespace DocComments.Expression

/-- A whole number in decimal, without zeros in front. -/
structure WholeNumeral where
  digits : List Char
  ne_nil : digits ≠ []
  isDigit : ∀ c ∈ digits, c.isDigit = true
  noLeadingZero : digits.head? = some '0' → digits = ['0']

/-- The number that a numeral denotes. -/
def WholeNumeral.value (d : WholeNumeral) : Nat :=
  Nat.ofDigitChars 10 d.digits 0

/-- An object with a numeral as the key of its only entry. -/
def WholeNumeral.inObject (d : WholeNumeral) : List Char :=
  '\x7b' :: (d.digits ++ ": 1\x7d".toList)

theorem digitChar_of_isDigit {c : Char} (hc : c.isDigit = true) :
    c.toNat - 48 < 10 ∧ Nat.digitChar (c.toNat - 48) = c := by
  have hbounds : 48 ≤ c.toNat ∧ c.toNat ≤ 57 := Char.isDigit_iff_toNat.mp hc
  have hlt : c.toNat - 48 < 10 := by omega
  refine ⟨hlt, Char.toNat_inj.mp ?_⟩
  rw [Nat.toNat_digitChar_of_lt_ten hlt]
  omega

/-- Digits without a zero in front are those of a positive number. -/
theorem toDigits_ofDigitChars {digits : List Char} (hne : digits ≠ [])
    (hdigit : ∀ c ∈ digits, c.isDigit = true) (hzero : digits.head? ≠ some '0') :
    0 < Nat.ofDigitChars 10 digits 0 ∧
      Nat.toDigits 10 (Nat.ofDigitChars 10 digits 0) = digits := by
  induction digits using List.reverseRecOn with
  | nil => exact absurd rfl hne
  | append_singleton t c ih =>
    have hc := hdigit c (List.mem_append_right _ List.mem_cons_self)
    obtain ⟨hlt, hchar⟩ := digitChar_of_isDigit hc
    have hcode : '0'.toNat = 48 := rfl
    rw [Nat.ofDigitChars_append, Nat.ofDigitChars_cons, Nat.ofDigitChars_nil, hcode]
    cases t with
    | nil =>
      have hne : c.toNat - 48 ≠ 0 := by
        intro h
        rw [h] at hchar
        exact hzero (hchar ▸ rfl)
      rw [Nat.ofDigitChars_nil, Nat.mul_zero, Nat.zero_add, Nat.toDigits_of_lt_base hlt, hchar]
      exact ⟨Nat.pos_of_ne_zero hne, rfl⟩
    | cons b t =>
      obtain ⟨hpos, hdigits⟩ := ih (List.cons_ne_nil _ _)
        (fun d hd => hdigit d (List.mem_append_left _ hd)) hzero
      refine ⟨by omega, ?_⟩
      rw [← Nat.toDigits_append_toDigits (by decide) hpos hlt, hdigits,
        Nat.toDigits_of_lt_base hlt, hchar]

namespace WholeNumeral
variable (d : WholeNumeral)

/-- The numeral of a number. -/
def ofNat (n : Nat) : WholeNumeral where
  digits := Nat.toDigits 10 n
  ne_nil := Nat.toDigits_ne_nil
  isDigit _ hc := Nat.isDigit_of_mem_toDigits (by decide) (by decide) hc
  noLeadingZero h := by
    by_cases hn : n = 0
    · rw [hn, Nat.toDigits_zero]
    · exact absurd h (Json.head?_toDigits_ne (Nat.pos_of_ne_zero hn))

@[simp] theorem value_ofNat (n : Nat) : (ofNat n).value = n :=
  Nat.ofDigitChars_ten_toDigits

/-- A numeral is the digits of the number that it denotes. -/
theorem toDigits_value : Nat.toDigits 10 d.value = d.digits := by
  by_cases hzero : d.digits.head? = some '0'
  · rw [value, d.noLeadingZero hzero]
    rfl
  · exact (toDigits_ofDigitChars d.ne_nil d.isDigit hzero).2

end WholeNumeral

/-- The key of an exact whole number is its digits, or those of the largest integer. -/
theorem numberKey_ofNat {n : Nat} (hexact : Number.IsExact n) (hlt : n < 10 ^ 21) :
    numberKey (.ofNat n) = toString (min (n : Int) largestKey) := by
  obtain ⟨rank, hnumber, hrank⟩ := hexact.exists_ofNat_eq
  have hint : (Number.finite false rank).toInt? = some (n : Int) :=
    Number.toInt?_finite false rank.isLt hrank
  have hbelow : (n : Int) < ((10 ^ 21 : Nat) : Int) := Int.ofNat_lt.mpr hlt
  have hfinite : numberKey (.finite false rank) =
      finiteKey rank (Number.finite false rank).toInt? := rfl
  rw [hnumber, hfinite, hint, finiteKey, if_pos hbelow]

theorem toList_numberKey_ofNat {n : Nat} (hexact : Number.IsExact n) (hlt : n < 10 ^ 21) :
    (numberKey (.ofNat n)).toList =
      if n < 2 ^ 63 then Nat.toDigits 10 n else Nat.toDigits 10 (2 ^ 63 - 1) := by
  have hkey : ∀ m : Nat, (toString (m : Int)).toList = Nat.toDigits 10 m := by
    intro m
    have hsign : ¬ (m : Int) < 0 := by omega
    rw [Json.toList_toString_int, Json.signedDigits, decide_eq_false hsign, Int.natAbs_natCast]
    rfl
  rw [numberKey_ofNat hexact hlt, largestKey]
  split
  · rw [Int.min_eq_left (by omega), hkey]
  · rw [Int.min_eq_right (by omega), hkey]

section
variable {scope : List String}

/-- The object of a numeral has a single entry, whose key is written from the number. -/
theorem evaluate_inObject (d : WholeNumeral) :
    evaluate ⟨scope, defaultLimit⟩ d.inObject =
      .ok (.object [(numberKey (.ofNat d.value), .number (.ofNat 1))]) := by
  have hcolon : Delimits ": 1\x7d".toList := delimits_cons (by decide) _
  have hclose : Delimits "\x7d".toList := delimits_cons (by decide) _
  have hvalue : Derives scope 63 (.expression (.number (.ofNat 1))) " 1\x7d".toList
      "\x7d".toList :=
    .blank rfl (.expression (derives_toDigits (n := 1) hclose) hclose.ends)
  obtain ⟨c, s, htext, hc, hread⟩ := exists_numeral_toDigits d.value hcolon
  rw [d.toDigits_value] at htext
  have hobject : Derives scope 64
      (.operand (.object [(numberKey (.ofNat d.value), .number (.ofNat 1))])) d.inObject [] := by
    rw [WholeNumeral.inObject, htext]
    exact .object (.lastEntry (.pair (.number hc hread) rfl hvalue) rfl)
  exact evaluate_of_operand hobject

end

/-- A numeral that denotes an exact whole number below `10 ^ 21` is its own key below `2 ^ 63`; from
there on the key is the largest signed integer of 64 bits, whatever the numeral. -/
theorem evaluate_inObject_of_isExact (d : WholeNumeral) (hexact : Number.IsExact d.value)
    (hlt : d.value < 10 ^ 21) (scope : List String) :
    evaluate ⟨scope, defaultLimit⟩ d.inObject =
      .ok (.object [(String.ofList (if d.value < 2 ^ 63 then d.digits
        else "9223372036854775807".toList), .number (.ofNat 1))]) := by
  have hkey := toList_numberKey_ofNat hexact hlt
  have hlargest : Nat.toDigits 10 (2 ^ 63 - 1) = "9223372036854775807".toList := by decide
  rw [d.toDigits_value, hlargest] at hkey
  rw [evaluate_inObject, ← hkey, String.ofList_toList]

theorem evaluate_inObject_two_pow_62 :
    Number.IsExact (WholeNumeral.ofNat (2 ^ 62)).value ∧
      (WholeNumeral.ofNat (2 ^ 62)).value < 10 ^ 21 ∧
      evaluate ⟨[], defaultLimit⟩ (WholeNumeral.ofNat (2 ^ 62)).inObject =
        .ok (.object [("4611686018427387904", .number (.ofNat 1))]) := by
  have hexact : Number.IsExact (WholeNumeral.ofNat (2 ^ 62)).value := by
    rw [WholeNumeral.value_ofNat]
    exact Number.isExact_two_pow (by decide)
  have hlt : (WholeNumeral.ofNat (2 ^ 62)).value < 10 ^ 21 := by
    rw [WholeNumeral.value_ofNat]
    decide
  have hread := evaluate_inObject_of_isExact (WholeNumeral.ofNat (2 ^ 62)) hexact hlt []
  have hdigits : (WholeNumeral.ofNat (2 ^ 62)).digits = "4611686018427387904".toList := by decide
  rw [if_pos (by rw [WholeNumeral.value_ofNat]; decide), hdigits, String.ofList_toList] at hread
  exact ⟨hexact, hlt, hread⟩

/-- The first exact whole number that is written as another number. -/
theorem not_evaluate_inObject_two_pow_63 :
    (WholeNumeral.ofNat (2 ^ 63)).inObject = "\x7b9223372036854775808: 1\x7d".toList ∧
      Number.IsExact (WholeNumeral.ofNat (2 ^ 63)).value ∧
      (WholeNumeral.ofNat (2 ^ 63)).value < 10 ^ 21 ∧
      evaluate ⟨[], defaultLimit⟩ (WholeNumeral.ofNat (2 ^ 63)).inObject ≠
        .ok (.object [("9223372036854775808", .number (.ofNat 1))]) := by
  have hexact : Number.IsExact (2 ^ 63) :=
    Number.isExact_two_pow (by decide)
  have hkey := toList_numberKey_ofNat hexact (by decide)
  rw [WholeNumeral.value_ofNat, evaluate_inObject, WholeNumeral.value_ofNat]
  refine ⟨by decide, hexact, by decide, ?_⟩
  intro h
  simp only [Except.ok.injEq, Literal.object.injEq, List.cons.injEq, Prod.mk.injEq, and_true] at h
  rw [h, if_neg (by decide)] at hkey
  exact absurd hkey (by decide)

end DocComments.Expression
