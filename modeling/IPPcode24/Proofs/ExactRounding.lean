import IPPcode24.Binary64.Arithmetic
import Mathlib.Algebra.Order.Ring.Nat

/-!
# Exact rounding

A count of units is narrow if it has at most 53 bits before the zeros at its end. Within the range
of the finite numbers these counts are exactly the magnitudes of the binary64 numbers: rounding
does not change them, so that sums and products of such numbers are exact as long as their counts
are narrow. Counts past the range are rounded to an infinity.
-/

namespace IPPcode24.Binary64

/-- The number nearest to a count of units. -/
def ofUnits (n : Nat) : Binary64 := round false n 1

/-- The count has at most 53 bits before the zeros at its end. -/
def Narrow (n : Nat) : Prop := ∃ m s, m < 0x20000000000000 ∧ n = m * 2 ^ s

/-- The least count of units past the finite numbers. -/
def endOfRange : Nat := Nat.pow 2 2098

/-! ## Narrow counts -/

section Narrow

variable {n : Nat}

theorem narrow_of_lt (small : n < 0x20000000000000) : Narrow n :=
  ⟨n, 0, small, (Nat.mul_one n).symm⟩

theorem narrow_pow (k : Nat) : Narrow (2 ^ k) := ⟨1, k, by decide, (Nat.one_mul _).symm⟩

theorem Narrow.mul_pow (narrow : Narrow n) (k : Nat) : Narrow (n * 2 ^ k) := by
  obtain ⟨m, s, small, rfl⟩ := narrow
  exact ⟨m, s + k, small, by rw [Nat.pow_add, Nat.mul_assoc]⟩

theorem Narrow.div_pow (narrow : Narrow n) (k : Nat) : Narrow (n / 2 ^ k) := by
  obtain ⟨m, s, small, rfl⟩ := narrow
  rcases Nat.le_total k s with within | past
  · refine ⟨m, s - k, small, ?_⟩
    obtain ⟨more, rfl⟩ := Nat.exists_eq_add_of_le within
    rw [Nat.add_sub_cancel_left, Nat.pow_add, Nat.mul_comm (2 ^ k), ← Nat.mul_assoc,
      Nat.mul_div_cancel _ (Nat.two_pow_pos k)]
  · obtain ⟨more, rfl⟩ := Nat.exists_eq_add_of_le past
    rw [Nat.pow_add, Nat.mul_comm m, Nat.mul_div_mul_left _ _ (Nat.two_pow_pos s)]
    exact narrow_of_lt (Nat.lt_of_le_of_lt (Nat.div_le_self _ _) small)

theorem Narrow.of_mul_pow {k : Nat} (narrow : Narrow (n * 2 ^ k)) : Narrow n := by
  have divided := narrow.div_pow k
  rwa [Nat.mul_div_cancel _ (Nat.two_pow_pos k)] at divided

/-- The bits can be chosen to be all 53, unless nothing is left to scale. -/
theorem Narrow.exists_normal (narrow : Narrow n) :
    ∃ m s, m < 0x20000000000000 ∧ (s = 0 ∨ 0x10000000000000 ≤ m) ∧ n = m * 2 ^ s := by
  obtain ⟨m, s, small, rfl⟩ := narrow
  induction s generalizing m with
  | zero => exact ⟨m, 0, small, .inl rfl, rfl⟩
  | succ s ih =>
    by_cases full : 0x10000000000000 ≤ m
    · exact ⟨m, s + 1, small, .inr full, rfl⟩
    · obtain ⟨m', s', small', normal', same⟩ := ih (2 * m) (by omega)
      refine ⟨m', s', small', normal', ?_⟩
      rw [← same, Nat.pow_succ, Nat.mul_comm (2 ^ s), ← Nat.mul_assoc, Nat.mul_comm m]

end Narrow

/-! ## Rounding -/

section Rounding

variable {negative : Bool} {n m s d : Nat} {x : Binary64}

/-- The exponent stands apart from the power, which is too large to be computed in other proofs. -/
theorem unitsOfOne_eq : ∃ one, one = 1074 ∧ unitsOfOne = 2 ^ one := ⟨1074, rfl, by decide +kernel⟩

theorem endOfRange_eq : ∃ top, top = 2098 ∧ endOfRange = 2 ^ top := ⟨2098, rfl, by decide +kernel⟩

theorem unitsOfOne_pos : 0 < unitsOfOne := by
  obtain ⟨one, _, unit⟩ := unitsOfOne_eq
  exact unit ▸ Nat.two_pow_pos one

theorem endOfRange_pos : 0 < endOfRange := by
  obtain ⟨top, _, range⟩ := endOfRange_eq
  exact range ▸ Nat.two_pow_pos top

theorem nearestQuotient_mul (m : Nat) (positive : 0 < d) : nearestQuotient (m * d) d = m := by
  simp [nearestQuotient, Nat.mul_div_cancel m positive, positive]

theorem le_nearestQuotient (n d : Nat) : n / d ≤ nearestQuotient n d := by
  simp only [nearestQuotient]
  split
  · exact Nat.le_refl _
  · split <;> omega

theorem log2_sub_of_normal (small : m < 0x20000000000000)
    (normal : s = 0 ∨ 0x10000000000000 ≤ m) : Nat.log2 (m * 2 ^ s) - 52 = s := by
  by_cases zero : m * 2 ^ s = 0
  · have noBits : m = 0 := (Nat.mul_eq_zero.mp zero).resolve_right (Nat.two_pow_pos s).ne'
    rw [zero]
    change 0 = s
    omega
  · have below : Nat.log2 (m * 2 ^ s) < 53 + s := by
      rw [Nat.log2_lt zero, Nat.pow_add]
      exact Nat.mul_lt_mul_of_pos_right small (Nat.two_pow_pos s)
    rcases normal with rfl | full
    · omega
    · have above : 52 + s ≤ Nat.log2 (m * 2 ^ s) := by
        rw [Nat.le_log2 zero, Nat.pow_add]
        exact Nat.mul_le_mul_right _ full
      omega

/-- The rank of a narrow count consists of its scale and its bits. -/
theorem round_normal (negative : Bool) (small : m < 0x20000000000000)
    (normal : s = 0 ∨ 0x10000000000000 ≤ m) (positive : 0 < d) :
    round negative (m * 2 ^ s * d) d = ofRank negative (s * 0x10000000000000 + m) := by
  have spacing : Nat.log2 (m * 2 ^ s * d / d) - 52 = s := by
    rw [Nat.mul_div_cancel _ positive, log2_sub_of_normal small normal]
  have quotient : nearestQuotient (m * 2 ^ s * d) (d * Nat.pow 2 s) = m := by
    rw [Nat.mul_assoc, Nat.mul_comm (2 ^ s)]
    exact nearestQuotient_mul m (Nat.mul_pos positive (Nat.two_pow_pos s))
  simp only [round, spacing, quotient]

theorem Narrow.round_exact (narrow : Narrow n) (positive : 0 < d) :
    round negative (n * d) d = round negative n 1 := by
  obtain ⟨m, s, small, normal, rfl⟩ := narrow.exists_normal
  have plain := round_normal negative small normal Nat.one_pos
  rw [Nat.mul_one] at plain
  rw [round_normal negative small normal positive, plain]

theorem fits_iff (small : m < 0x20000000000000) (normal : s = 0 ∨ 0x10000000000000 ≤ m) :
    m * 2 ^ s < endOfRange ↔ s < 2046 := by
  obtain ⟨top, places, range⟩ := endOfRange_eq
  rw [range]
  constructor
  · intro within
    by_contra past
    have full : 0x10000000000000 ≤ m := by omega
    have enough : 2 ^ top ≤ 2 ^ 52 * 2 ^ s := by
      rw [← Nat.pow_add]
      exact Nat.pow_le_pow_right Nat.two_pos (by omega)
    exact absurd within (Nat.not_lt.mpr (enough.trans (Nat.mul_le_mul_right _ full)))
  · intro fits
    have enough : 2 ^ 53 * 2 ^ s ≤ 2 ^ top := by
      rw [← Nat.pow_add]
      exact Nat.pow_le_pow_right Nat.two_pos (by omega)
    exact (Nat.mul_lt_mul_of_pos_right small (Nat.two_pow_pos s)).trans_le enough

theorem ofRank_normal (small : m < 0x20000000000000) (normal : s = 0 ∨ 0x10000000000000 ≤ m)
    (fits : s < 2046) :
    (ofRank negative (s * 0x10000000000000 + m)).isFinite = true ∧
      (ofRank negative (s * 0x10000000000000 + m)).negative = negative ∧
      (ofRank negative (s * 0x10000000000000 + m)).units = m * 2 ^ s := by
  have within : s * 0x10000000000000 + m < 0x7FF0000000000000 := by omega
  rw [ofRank, dif_pos within]
  refine ⟨?_, rfl, ?_⟩
  · simp only [isFinite, ne_eq, decide_not, Bool.not_eq_true', decide_eq_false_iff_not]
    omega
  · by_cases full : 0x10000000000000 ≤ m
    · have exponent : (s * 0x10000000000000 + m) / 0x10000000000000 = s + 1 := by omega
      have fraction : 0x10000000000000 + (s * 0x10000000000000 + m) % 0x10000000000000 = m := by
        omega
      simp only [units, significand, scale, exponent, fraction, Nat.add_one_sub_one,
        Nat.succ_ne_zero, if_false]
      rfl
    · obtain rfl : s = 0 := by omega
      have exponent : (0 * 0x10000000000000 + m) / 0x10000000000000 = 0 := by omega
      have fraction : (0 * 0x10000000000000 + m) % 0x10000000000000 = m := by omega
      simp only [units, significand, scale, exponent, fraction, if_true]
      rfl

/-- A narrow count within the range is the magnitude of the number that it is rounded to. -/
theorem Narrow.round_units (narrow : Narrow n) (within : n < endOfRange) :
    (round negative n 1).isFinite = true ∧ (round negative n 1).negative = negative ∧
      (round negative n 1).units = n := by
  obtain ⟨m, s, small, normal, rfl⟩ := narrow.exists_normal
  have rank := round_normal negative small normal Nat.one_pos
  rw [Nat.mul_one] at rank
  rw [rank]
  exact ofRank_normal small normal ((fits_iff small normal).mp within)

theorem round_of_endOfRange_le (past : endOfRange ≤ n) :
    round negative n 1 = infinity negative := by
  obtain ⟨top, places, range⟩ := endOfRange_eq
  have positive : n ≠ 0 := (endOfRange_pos.trans_le past).ne'
  have long : top ≤ Nat.log2 n := (Nat.le_log2 positive).mpr (range ▸ past)
  have most : 0x10000000000000 ≤ n / Nat.pow 2 (Nat.log2 n - 52) := by
    change 2 ^ 52 ≤ n / 2 ^ (Nat.log2 n - 52)
    rw [Nat.le_div_iff_mul_le (Nat.two_pow_pos _), ← Nat.pow_add, ← Nat.le_log2 positive]
    omega
  have rounded := most.trans (le_nearestQuotient _ _)
  simp only [round, Nat.div_one, Nat.one_mul]
  rw [ofRank, dif_neg (by omega)]

theorem significand_lt (x : Binary64) : x.significand < 0x20000000000000 := by
  have bound := x.fraction.isLt
  rw [significand]
  split <;> omega

theorem normal_significand (x : Binary64) : x.scale = 0 ∨ 0x10000000000000 ≤ x.significand := by
  rw [scale, significand]
  split <;> omega

theorem narrow_units (x : Binary64) : Narrow x.units := ⟨_, _, x.significand_lt, rfl⟩

theorem units_lt_endOfRange (finite : x.isFinite = true) : x.units < endOfRange := by
  have field := x.exponent.isLt
  have other : x.exponent.val ≠ 2047 := of_decide_eq_true finite
  refine (fits_iff x.significand_lt x.normal_significand).mpr ?_
  rw [scale]
  omega

/-- A finite number is what its own magnitude is rounded to. -/
theorem round_of_units (finite : x.isFinite = true) : round x.negative x.units 1 = x := by
  have rank :=
    round_normal x.negative x.significand_lt x.normal_significand Nat.one_pos
  rw [Nat.mul_one] at rank
  have other : x.exponent.val ≠ 2047 := of_decide_eq_true finite
  have field := x.exponent.isLt
  have bound := x.fraction.isLt
  have whole : x.scale * 0x10000000000000 + x.significand =
      x.exponent.val * 0x10000000000000 + x.fraction.val := by
    rw [scale, significand]
    split <;> omega
  refine rank.trans ?_
  rw [whole, ofRank, dif_pos (by omega)]
  congr 1
  · exact Fin.ext (by change _ / _ = _; omega)
  · exact Fin.ext (by change _ % _ = _; omega)

theorem neg_round (negative : Bool) (n d : Nat) :
    (round negative n d).neg = round (!negative) n d := by
  simp only [round, ofRank]
  split <;> rfl

theorem neg_eq_iff {y : Binary64} : x.neg = y ↔ x = y.neg := by
  constructor <;>
  · rintro rfl
    simp [neg]

end Rounding

/-! ## Sums and products -/

section Arithmetic

variable {a b n : Nat} {x : Binary64}

theorem isNaN_of_isFinite (finite : x.isFinite = true) : x.isNaN = false := by
  have other : x.exponent.val ≠ 2047 := of_decide_eq_true finite
  simp [isNaN, other]

theorem isInfinite_of_isFinite (finite : x.isFinite = true) : x.isInfinite = false := by
  have other : x.exponent.val ≠ 2047 := of_decide_eq_true finite
  simp [isInfinite, other]

theorem ofUnits_zero : ofUnits 0 = zero false := by decide +kernel

theorem ofUnits_of_endOfRange_le (past : endOfRange ≤ n) : ofUnits n = infinity false :=
  round_of_endOfRange_le past

theorem Narrow.units_ofUnits (narrow : Narrow n) (within : n < endOfRange) :
    (ofUnits n).units = n := (narrow.round_units within).2.2

theorem Narrow.isNaN_ofUnits (narrow : Narrow n) : (ofUnits n).isNaN = false := by
  by_cases within : n < endOfRange
  · exact isNaN_of_isFinite (narrow.round_units within).1
  · rw [ofUnits_of_endOfRange_le (Nat.not_lt.mp within)]
    decide

theorem Narrow.isInfinite_ofUnits (narrow : Narrow n) :
    (ofUnits n).isInfinite = decide (endOfRange ≤ n) := by
  by_cases within : n < endOfRange
  · rw [decide_eq_false (Nat.not_le.mpr within)]
    exact isInfinite_of_isFinite (narrow.round_units within).1
  · rw [ofUnits_of_endOfRange_le (Nat.not_lt.mp within), decide_eq_true (Nat.not_lt.mp within)]
    decide

theorem Narrow.negative_ofUnits (narrow : Narrow n) : (ofUnits n).negative = false := by
  by_cases within : n < endOfRange
  · exact (narrow.round_units within).2.1
  · rw [ofUnits_of_endOfRange_le (Nat.not_lt.mp within)]
    rfl

theorem Narrow.units_ofUnits_eq_zero_iff (narrow : Narrow n) : (ofUnits n).units = 0 ↔ n = 0 := by
  by_cases within : n < endOfRange
  · rw [narrow.units_ofUnits within]
  · have past := Nat.not_lt.mp within
    have infinite : (infinity false).units ≠ 0 := by decide +kernel
    rw [ofUnits_of_endOfRange_le past]
    exact iff_of_false infinite (endOfRange_pos.trans_le past).ne'

theorem Narrow.signedUnits_ofUnits (narrow : Narrow n) (within : n < endOfRange) :
    (ofUnits n).signedUnits = n := by
  rw [signedUnits, narrow.negative_ofUnits, narrow.units_ofUnits within]
  rfl

/-- Sums of narrow counts are rounded once. Past the range they stay infinite. -/
theorem add_ofUnits (narrowA : Narrow a) (narrowB : Narrow b) :
    add (ofUnits a) (ofUnits b) = ofUnits (a + b) := by
  simp only [add, narrowA.isNaN_ofUnits, narrowB.isNaN_ofUnits, narrowA.isInfinite_ofUnits,
    narrowB.isInfinite_ofUnits, narrowA.negative_ofUnits, narrowB.negative_ofUnits]
  by_cases pastA : endOfRange ≤ a
  · rw [ofUnits_of_endOfRange_le pastA, ofUnits_of_endOfRange_le (Nat.le_add_right_of_le pastA)]
    simp [pastA]
  · by_cases pastB : endOfRange ≤ b
    · rw [ofUnits_of_endOfRange_le pastB, ofUnits_of_endOfRange_le (Nat.le_add_left_of_le pastB)]
      simp [pastA, pastB]
    · rw [narrowA.signedUnits_ofUnits (Nat.not_le.mp pastA),
        narrowB.signedUnits_ofUnits (Nat.not_le.mp pastB), ← Int.natCast_add, Int.natAbs_natCast]
      generalize a + b = sum
      have nonnegative : decide ((sum : Int) < 0) = false :=
        decide_eq_false (Int.not_lt.mpr (Int.natCast_nonneg sum))
      by_cases zero : sum = 0
      · rw [zero, ofUnits_zero]
        simp [pastA, pastB]
      · rw [nonnegative]
        simp [pastA, pastB, zero, ofUnits]

/-- A product within the range is rounded once. -/
theorem mul_ofUnits (narrowA : Narrow a) (narrowB : Narrow b) (withinA : a < endOfRange)
    (withinB : b < endOfRange) : mul (ofUnits a) (ofUnits b) = round false (a * b) unitsOfOne := by
  simp [mul, narrowA.isNaN_ofUnits, narrowB.isNaN_ofUnits, narrowA.isInfinite_ofUnits,
    narrowB.isInfinite_ofUnits, narrowA.negative_ofUnits, narrowB.negative_ofUnits,
    narrowA.units_ofUnits withinA, narrowB.units_ofUnits withinB, Nat.not_le.mpr withinA,
    Nat.not_le.mpr withinB]

/-- A product that is a narrow count of units is exact. -/
theorem mul_ofUnits_exact (narrowA : Narrow a) (narrowB : Narrow b) (withinA : a < endOfRange)
    (withinB : b < endOfRange) (narrow : Narrow n) (product : a * b = n * unitsOfOne) :
    mul (ofUnits a) (ofUnits b) = ofUnits n := by
  rw [mul_ofUnits narrowA narrowB withinA withinB, product, narrow.round_exact unitsOfOne_pos]
  rfl

/-- A product with an infinite factor is infinite, unless the other factor is zero. -/
theorem mul_ofUnits_of_past (narrowA : Narrow a) (narrowB : Narrow b)
    (past : endOfRange ≤ a ∨ endOfRange ≤ b) :
    mul (ofUnits a) (ofUnits b) = if a = 0 ∨ b = 0 then nan else infinity false := by
  simp [mul, narrowA.isNaN_ofUnits, narrowB.isNaN_ofUnits, narrowA.isInfinite_ofUnits,
    narrowB.isInfinite_ofUnits, narrowA.negative_ofUnits, narrowB.negative_ofUnits,
    narrowA.units_ofUnits_eq_zero_iff, narrowB.units_ofUnits_eq_zero_iff, past]

theorem ofUnits_inj (narrowA : Narrow a) (narrowB : Narrow b) (withinA : a < endOfRange)
    (withinB : b < endOfRange) : ofUnits a = ofUnits b ↔ a = b := by
  constructor
  · intro same
    rw [← narrowA.units_ofUnits withinA, ← narrowB.units_ofUnits withinB, same]
  · exact congrArg ofUnits

/-- A finite product has finite factors. -/
theorem within_of_mul (narrowA : Narrow a) (narrowB : Narrow b)
    (finite : (mul (ofUnits a) (ofUnits b)).isFinite = true) : a < endOfRange ∧ b < endOfRange := by
  by_contra past
  rw [mul_ofUnits_of_past narrowA narrowB (by omega)] at finite
  split at finite <;> exact absurd finite (by decide)

/-- From the least power with a finite reciprocal on, powers of two are exact. Past the range
they are infinite. -/
theorem powerOfTwo_of_le {e : Int} (atLeast : -1023 ≤ e) :
    ∃ k : Nat, (k : Int) = e + 1074 ∧ powerOfTwo e = ofUnits (2 ^ k) := by
  refine ⟨(e + 1074).toNat, by omega, ?_⟩
  rw [powerOfTwo, if_neg (Int.not_lt.mpr atLeast)]
  split
  · obtain ⟨top, places, range⟩ := endOfRange_eq
    refine (ofUnits_of_endOfRange_le ?_).symm
    rw [range]
    exact Nat.pow_le_pow_right Nat.two_pos (by omega)
  · rfl

theorem powerOfTwo_of_lt {e : Int} (less : e < -1023) : powerOfTwo e = ofUnits 0 := by
  rw [powerOfTwo, if_pos less, ofUnits_zero]

theorem ofInt_natCast (n : Nat) : ofInt n = ofUnits (n * unitsOfOne) := by
  rw [ofInt, Int.natAbs_natCast, decide_eq_false (Int.not_lt.mpr (Int.natCast_nonneg n))]
  rfl

end Arithmetic

end IPPcode24.Binary64
