import DocComments.Number.Basic

/-!
# Whole numbers

A magnitude that is a whole number of steps where it lies has a rank of its own, and so have the
whole numbers up to `2 ^ 53`: they are numbers of the format, and nothing of them is lost by
rounding. Multiplying such a number by one changes nothing either. Of larger whole numbers those are
treated that are the magnitude of some number, such as the multiples of a power of two by one up to
`2 ^ 53`; they are rounded to themselves.
-/

namespace DocComments.Number

section
variable {m n : Nat}

/-- A whole number of steps is not rounded. -/
theorem nearestRank_one_eq (h : 2 ^ (m.log2 - 52) ∣ m) :
    nearestRank m 1 = (m.log2 - 52) * 2 ^ 52 + m / 2 ^ (m.log2 - 52) := by
  have hleft : m % 2 ^ (m.log2 - 52) = 0 := Nat.mod_eq_zero_of_dvd h
  have hpos : 0 ≠ 2 ^ (m.log2 - 52) := Nat.ne_of_lt (Nat.two_pow_pos _)
  simp [nearestRank, hleft, hpos]

/-- A magnitude is counted in steps: fewer than `2 ^ 53`, and at least `2 ^ 52` once the step has
doubled. -/
theorem steps_bounds : m / 2 ^ (m.log2 - 52) < 2 ^ 53 ∧
    (0 < m.log2 - 52 → 2 ^ 52 ≤ m / 2 ^ (m.log2 - 52)) := by
  by_cases hm : m = 0
  · subst hm
    decide
  have hlow : 2 ^ m.log2 ≤ m := Nat.log2_self_le hm
  have hhigh : m < 2 ^ (m.log2 + 1) := Nat.lt_log2_self
  constructor
  · apply Nat.div_lt_of_lt_mul
    rw [← Nat.pow_add]
    apply Nat.lt_of_lt_of_le hhigh
    apply Nat.pow_le_pow_right (by decide)
    omega
  · intro hk
    rw [Nat.le_div_iff_mul_le (Nat.two_pow_pos _), ← Nat.pow_add]
    apply Nat.le_trans _ hlow
    apply Nat.pow_le_pow_right (by decide)
    omega

/-- A whole number of steps is the magnitude of its rank. -/
theorem units_nearestRank (h : 2 ^ (m.log2 - 52) ∣ m) : units (nearestRank m 1) = m := by
  obtain ⟨hhigh, hlow⟩ := steps_bounds (m := m)
  have hm : m / 2 ^ (m.log2 - 52) * 2 ^ (m.log2 - 52) = m := Nat.div_mul_cancel h
  rw [nearestRank_one_eq h, units]
  generalize m / 2 ^ (m.log2 - 52) = q at *
  generalize m.log2 - 52 = k at *
  have hdoublings : doublings (k * 2 ^ 52 + q) = k := by
    unfold doublings
    omega
  rw [hdoublings, Nat.add_sub_cancel_left]
  exact hm

theorem log2_mul_two_pow (hn : n ≠ 0) (e : Nat) : (n * 2 ^ e).log2 = n.log2 + e := by
  have hlow : 2 ^ n.log2 ≤ n := Nat.log2_self_le hn
  have hhigh : n < 2 ^ (n.log2 + 1) := Nat.lt_log2_self
  have hne : n * 2 ^ e ≠ 0 := Nat.mul_ne_zero hn (Nat.ne_of_gt (Nat.two_pow_pos e))
  rw [Nat.log2_eq_iff hne]
  constructor
  · rw [Nat.pow_add]
    exact Nat.mul_le_mul_right _ hlow
  · rw [Nat.add_right_comm, Nat.pow_add]
    exact Nat.mul_lt_mul_of_pos_right hhigh (Nat.two_pow_pos e)

/-- Whole numbers up to the limit are whole numbers of steps, in whatever fine a unit. -/
theorem two_pow_dvd_mul (hn : n ≤ 2 ^ 53) (e : Nat) :
    2 ^ ((n * 2 ^ e).log2 - 52) ∣ n * 2 ^ e := by
  by_cases hzero : n = 0
  · subst hzero
    rw [Nat.zero_mul]
    exact Nat.dvd_zero _
  rw [log2_mul_two_pow hzero]
  by_cases hlimit : n = 2 ^ 53
  · subst hlimit
    rw [Nat.log2_two_pow, ← Nat.pow_add]
    apply Nat.pow_dvd_pow
    omega
  · have hlog : n.log2 < 53 := (Nat.log2_lt hzero).mpr (Nat.lt_of_le_of_ne hn hlimit)
    apply Nat.dvd_mul_left_of_dvd
    apply Nat.pow_dvd_pow
    omega

theorem exists_unitsPerOne_eq : ∃ e, unitsPerOne = 2 ^ e :=
  ⟨1074, rfl⟩

theorem unitsPerOne_pos : 0 < unitsPerOne := by
  obtain ⟨e, he⟩ := exists_unitsPerOne_eq
  rw [he]
  exact Nat.two_pow_pos e

theorem two_pow_dvd_whole (hn : n ≤ 2 ^ 53) :
    2 ^ ((n * unitsPerOne).log2 - 52) ∣ n * unitsPerOne := by
  obtain ⟨e, he⟩ := exists_unitsPerOne_eq
  rw [he]
  exact two_pow_dvd_mul hn e

/-- The magnitude of a whole number up to the limit is the number itself. -/
theorem units_whole (hn : n ≤ 2 ^ 53) :
    units (nearestRank (n * unitsPerOne) 1) = n * unitsPerOne :=
  units_nearestRank (two_pow_dvd_whole hn)

/-- A whole number up to the limit is finite in every unit that is not too coarse. -/
theorem nearestRank_mul_two_pow_lt (hn : n ≤ 2 ^ 53) {e : Nat} (he : e ≤ 2044) :
    nearestRank (n * 2 ^ e) 1 < 2047 * 2 ^ 52 := by
  have hlog : (n * 2 ^ e).log2 ≤ 2097 := by
    by_cases hzero : n = 0
    · subst hzero
      rw [Nat.zero_mul]
      decide
    · have hn' : n < 2 ^ 54 := Nat.lt_of_le_of_lt hn (by decide)
      have hlt : n.log2 < 54 := (Nat.log2_lt hzero).mpr hn'
      rw [log2_mul_two_pow hzero]
      omega
  obtain ⟨hsteps, -⟩ := steps_bounds (m := n * 2 ^ e)
  rw [nearestRank_one_eq (two_pow_dvd_mul hn e)]
  generalize n * 2 ^ e / 2 ^ ((n * 2 ^ e).log2 - 52) = q at *
  omega

/-- Whole numbers up to the limit are finite. -/
theorem nearestRank_whole_lt (hn : n ≤ 2 ^ 53) :
    nearestRank (n * unitsPerOne) 1 < 2047 * 2 ^ 52 :=
  nearestRank_mul_two_pow_lt hn (by decide)

/-- A ratio may be expanded before it is rounded. -/
theorem nearestRank_mul_right {k : Nat} (hk : 0 < k) (num den : Nat) :
    nearestRank (num * k) (den * k) = nearestRank num den := by
  have hratio : num * k / (den * k) = num / den := Nat.mul_div_mul_right num den hk
  have hdiv : ∀ d, num * k / (den * k * d) = num / (den * d) := by
    intro d
    rw [Nat.mul_right_comm, Nat.mul_div_mul_right _ _ hk]
  have hmod : ∀ d, num * k % (den * k * d) = num % (den * d) * k := by
    intro d
    rw [Nat.mul_right_comm, Nat.mul_mod_mul_right]
  have hlt : ∀ d left, den * k * d < 2 * (left * k) ↔ den * d < 2 * left := by
    intro d left
    rw [Nat.mul_right_comm, ← Nat.mul_assoc, Nat.mul_lt_mul_right hk]
  have htie : ∀ d left, (2 * (left * k) == den * k * d) = (2 * left == den * d) := by
    intro d left
    rw [Bool.eq_iff_iff, beq_iff_eq, beq_iff_eq, Nat.mul_right_comm, ← Nat.mul_assoc,
      Nat.mul_left_inj (Nat.ne_of_gt hk)]
  simp only [nearestRank, hratio, hdiv, hmod, hlt, htie]

/-- A whole number times one is the number. -/
theorem productRank_one (hn : n ≤ 2 ^ 53) :
    productRank (nearestRank (n * unitsPerOne) 1) (nearestRank (1 * unitsPerOne) 1) =
      nearestRank (n * unitsPerOne) 1 := by
  have hscale := nearestRank_mul_right unitsPerOne_pos (n * unitsPerOne) 1
  rw [Nat.one_mul] at hscale
  rw [productRank, units_whole hn, units_whole (by decide), Nat.one_mul]
  exact hscale

end

/-! ### Magnitudes -/

/-- The magnitude of a rank is rounded to that rank. -/
theorem nearestRank_units (rank : Nat) : nearestRank (units rank) 1 = rank := by
  have hdoublings : (units rank).log2 - 52 = doublings rank := by
    by_cases hfine : doublings rank = 0
    · have hlt : rank < 2 ^ 53 := by
        unfold doublings at hfine
        omega
      have hunits : units rank = rank := by
        rw [units, hfine, Nat.zero_mul, Nat.sub_zero, Nat.pow_zero, Nat.mul_one]
      rw [hunits, hfine]
      by_cases hzero : rank = 0
      · subst hzero
        rfl
      · have hlog := (Nat.log2_lt hzero).mpr hlt
        omega
    · have hbounds : 2 ^ 52 ≤ rank - doublings rank * 2 ^ 52 ∧
          rank - doublings rank * 2 ^ 52 < 2 ^ 53 := by
        unfold doublings at hfine ⊢
        omega
      have hne : rank - doublings rank * 2 ^ 52 ≠ 0 :=
        Nat.ne_of_gt (Nat.lt_of_lt_of_le (Nat.two_pow_pos 52) hbounds.1)
      have hlog : (rank - doublings rank * 2 ^ 52).log2 = 52 :=
        (Nat.log2_eq_iff hne).mpr hbounds
      rw [units, log2_mul_two_pow hne, hlog, Nat.add_sub_cancel_left]
  have hdvd : 2 ^ ((units rank).log2 - 52) ∣ units rank := by
    rw [hdoublings, units]
    exact Nat.dvd_mul_left _ _
  rw [nearestRank_one_eq hdvd, hdoublings, units, Nat.mul_div_cancel _ (Nat.two_pow_pos _)]
  unfold doublings
  omega

/-- A whole number that is the magnitude of a finite number. -/
def IsExact (n : Nat) : Prop :=
  ∃ rank : Fin (2047 * 2 ^ 52), units rank = n * unitsPerOne

/-- The multiples of a power of two by a whole number up to the limit are exact. -/
theorem isExact_mul_two_pow {n k : Nat} (hn : n ≤ 2 ^ 53) (hk : k ≤ 970) :
    IsExact (n * 2 ^ k) := by
  have he : k + 1074 ≤ 2044 := by omega
  refine ⟨⟨nearestRank (n * 2 ^ (k + 1074)) 1, nearestRank_mul_two_pow_lt hn he⟩, ?_⟩
  rw [units_nearestRank (two_pow_dvd_mul hn _), unitsPerOne, Nat.mul_assoc, ← Nat.pow_add]

theorem isExact_two_pow {k : Nat} (hk : k ≤ 970) : IsExact (2 ^ k) := by
  have h := isExact_mul_two_pow (n := 1) (by decide) hk
  rwa [Nat.one_mul] at h

/-- An exact whole number is not rounded. -/
theorem IsExact.exists_ofNat_eq {n : Nat} (h : IsExact n) :
    ∃ rank, ofNat n = .finite false rank ∧ units rank = n * unitsPerOne := by
  obtain ⟨rank, hrank⟩ := h
  refine ⟨rank, ?_, hrank⟩
  rw [ofNat, ofRatio, ← hrank, nearestRank_units, ofRank, dif_pos rank.isLt]

/-- A number whose magnitude is whole is equal to an integer. -/
theorem toInt?_finite (negative : Bool) {rank n : Nat} (hlt : rank < 2047 * 2 ^ 52)
    (h : units rank = n * unitsPerOne) :
    (finite negative ⟨rank, hlt⟩).toInt? = some (if negative then -(n : Int) else n) := by
  have hwhole : ((n * unitsPerOne : Nat) : Int) / (unitsPerOne : Int) = n := by
    rw [← Int.natCast_ediv, Nat.mul_div_cancel _ unitsPerOne_pos]
  rw [toInt?]
  simp only [h, Nat.mul_mod_left, hwhole, if_true]

/-! ### Integers -/

section
variable {i : Int}

theorem ofInt_eq_finite (hi : i.natAbs ≤ 2 ^ 53) :
    ofInt i =
      .finite (i < 0) ⟨nearestRank (i.natAbs * unitsPerOne) 1, nearestRank_whole_lt hi⟩ := by
  rw [ofInt, ofRatio, ofRank, dif_pos (nearestRank_whole_lt hi)]

/-- An integer up to the limit is equal to the number nearest to it. -/
theorem toInt?_ofInt (hi : i.natAbs ≤ 2 ^ 53) : (ofInt i).toInt? = some i := by
  rw [ofInt_eq_finite hi, toInt?_finite _ (nearestRank_whole_lt hi) (units_whole hi),
    Option.some.injEq]
  split <;> simp only [decide_eq_true_eq] at * <;> omega

theorem ofInt_natCast (n : Nat) : ofInt n = ofNat n := by
  have hsign : ¬ ((n : Int) < 0) := by omega
  rw [ofInt, ofNat, Int.natAbs_natCast, decide_eq_false hsign]

theorem negate_ofRank (negative : Bool) (rank : Nat) :
    (ofRank negative rank).negate = ofRank (!negative) rank := by
  unfold ofRank
  split <;> rfl

/-- The number of a negative integer is the number of its magnitude with the other sign. -/
theorem negate_ofNat {n : Nat} (hn : 0 < n) : (ofNat n).negate = ofInt (-n) := by
  have hsign : -(n : Int) < 0 := by omega
  rw [ofNat, ofInt, ofRatio, ofRatio, negate_ofRank, Int.natAbs_neg, Int.natAbs_natCast,
    decide_eq_true hsign]
  rfl

end

end DocComments.Number
