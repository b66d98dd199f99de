import IPPcode24.Literal.Float
import IPPcode24.Proofs.ExactRounding
import IPPcode24.Proofs.NumeralPieces

/-!
# Sums of hexadecimal digits

The digits of a hexadecimal number are summed up in binary64 arithmetic. If the number that they
form is narrow, so is each number that the digits up to some place form, and every partial sum is
exact or past the range. The weights of the digits behind the point are exact as well for 268
places. The next one is rounded to zero, so the digits after those places are lost.
-/

namespace IPPcode24.Literal

open Binary64

/-- The weight of the next digit while the digits of some more places count. -/
def placeWeight : Nat → Binary64
  | 0 => zero false
  | places + 1 => ofUnits (2 ^ (4 * places + 2))

section Sums

variable {digit k : Nat} {values front back : List Nat}

theorem sixteen_pow (k : Nat) : 16 ^ k = 2 ^ (4 * k) := by
  rw [Nat.pow_mul]

theorem numberOf_lt (small : ∀ value ∈ values, value < 16) :
    numberOf 16 values < 16 ^ values.length := by
  rw [numberOf, ← List.length_reverse]
  exact Nat.ofDigits_lt_base_pow_length (by decide) fun value member =>
    small value (List.mem_reverse.mp member)

/-- The number of the first digits is a quotient of the number of all digits. -/
theorem numberOf_append_div (small : ∀ value ∈ back, value < 16) :
    numberOf 16 (front ++ back) / 2 ^ (4 * back.length) = numberOf 16 front := by
  rw [numberOf_append, ← sixteen_pow, Nat.add_comm,
    Nat.add_mul_div_right _ _ (Nat.pow_pos (by decide)), Nat.div_eq_of_lt (numberOf_lt small),
    Nat.zero_add]

theorem narrow_of_append (small : ∀ value ∈ back, value < 16)
    (narrow : Narrow (numberOf 16 (front ++ back))) : Narrow (numberOf 16 front) :=
  numberOf_append_div small ▸ narrow.div_pow _

theorem narrow_digit (small : digit < 16) (k : Nat) : Narrow (digit * 2 ^ k) :=
  (narrow_of_lt (by omega)).mul_pow k

/-- A digit is a number within the range. -/
theorem ofInt_digit (small : digit ≤ 16) :
    ofInt digit = ofUnits (digit * unitsOfOne) ∧ Narrow (digit * unitsOfOne) ∧
      digit * unitsOfOne < endOfRange := by
  obtain ⟨one, places, unit⟩ := unitsOfOne_eq
  obtain ⟨top, placesToo, range⟩ := endOfRange_eq
  refine ⟨ofInt_natCast digit, ?_, ?_⟩
  · rw [unit]
    exact (narrow_of_lt (by omega)).mul_pow one
  · rw [unit, range]
    have enough : 2 ^ 5 * 2 ^ one ≤ 2 ^ top := by
      rw [← Nat.pow_add]
      exact Nat.pow_le_pow_right Nat.two_pos (by omega)
    exact (Nat.mul_lt_mul_of_pos_right (by omega) (Nat.two_pow_pos one)).trans_le enough

/-! ## Before the point -/

theorem mul_sixteen {n : Nat} (narrow : Narrow n) :
    mul (ofUnits (n * unitsOfOne)) (ofInt 16) = ofUnits (n * 16 * unitsOfOne) := by
  obtain ⟨one, _, unit⟩ := unitsOfOne_eq
  have narrowA : Narrow (n * unitsOfOne) := unit ▸ narrow.mul_pow one
  have narrowC : Narrow (n * 16 * unitsOfOne) := unit ▸ (narrow.mul_pow 4).mul_pow one
  obtain ⟨same, narrowB, within⟩ := ofInt_digit (Nat.le_refl 16)
  rw [show ofInt 16 = ofUnits (16 * unitsOfOne) from same]
  by_cases past : endOfRange ≤ n * unitsOfOne
  · have present := endOfRange_pos.trans_le past
    have positive := unitsOfOne_pos
    rw [mul_ofUnits_of_past narrowA narrowB (.inl past), if_neg (by omega),
      ofUnits_of_endOfRange_le]
    rw [Nat.mul_right_comm]
    omega
  · refine mul_ofUnits_exact narrowA narrowB (Nat.not_le.mp past) within narrowC ?_
    rw [← Nat.mul_assoc, Nat.mul_right_comm n]

theorem wholePart_concat (front : List Nat) (last : Nat) :
    wholePart (front ++ [last]) = add (mul (wholePart front) (ofInt 16)) (ofInt last) := by
  rw [wholePart, List.foldl_append]
  rfl

/-- The digits before the point are summed up exactly. -/
theorem wholePart_eq (small : ∀ value ∈ values, value < 16)
    (narrow : Narrow (numberOf 16 values)) :
    wholePart values = ofUnits (numberOf 16 values * unitsOfOne) := by
  induction values using List.reverseRecOn with
  | nil =>
    rw [numberOf_nil, Nat.zero_mul, ofUnits_zero]
    rfl
  | append_singleton front last ih =>
    have smallFront : ∀ value ∈ front, value < 16 := fun value member =>
      small value (List.mem_append_left [last] member)
    have smallLast : ∀ value ∈ [last], value < 16 := fun value member =>
      small value (List.mem_append_right front member)
    have before := narrow_of_append smallLast narrow
    obtain ⟨one, _, unit⟩ := unitsOfOne_eq
    have shifted : Narrow (numberOf 16 front * 16 * unitsOfOne) :=
      unit ▸ (before.mul_pow 4).mul_pow one
    obtain ⟨same, narrowLast, _⟩ := ofInt_digit (smallLast last List.mem_cons_self).le
    rw [wholePart_concat, ih smallFront before, mul_sixteen before, same,
      add_ofUnits shifted narrowLast, ← Nat.add_mul, numberOf_concat]

/-! ## Behind the point -/

theorem powerOfTwo_neg_four :
    ∃ places, places + 1 = 268 ∧ powerOfTwo (-4) = ofUnits (2 ^ (4 * places + 2)) := by
  obtain ⟨power, shifted, same⟩ := powerOfTwo_of_le (e := -4) (by decide)
  obtain ⟨places, last⟩ : ∃ places, places + 1 = 268 := ⟨267, rfl⟩
  obtain rfl : power = 4 * places + 2 := by omega
  exact ⟨places, last, same⟩

/-- A weight is divided by sixteen exactly, except that the last one becomes zero. -/
theorem placeWeight_mul (places : Nat) (within : places ≤ 268) :
    mul (placeWeight places) (powerOfTwo (-4)) = placeWeight (places - 1) := by
  match places with
  | 0 => decide +kernel
  | 1 => decide +kernel
  | k + 2 =>
    obtain ⟨one, onePlaces, unit⟩ := unitsOfOne_eq
    obtain ⟨top, topPlaces, range⟩ := endOfRange_eq
    obtain ⟨others, last, sixteenth⟩ := powerOfTwo_neg_four
    rw [sixteenth]
    refine mul_ofUnits_exact (narrow_pow _) (narrow_pow _) ?_ ?_ (narrow_pow _) ?_
    · rw [range]
      exact Nat.pow_lt_pow_right (by decide) (by omega)
    · rw [range]
      exact Nat.pow_lt_pow_right (by decide) (by omega)
    · rw [unit, ← Nat.pow_add, ← Nat.pow_add]
      exact congrArg (2 ^ ·) (by omega)

theorem mul_placeWeight (small : digit < 16) (within : k < 268) :
    mul (ofInt digit) (placeWeight (k + 1)) = ofUnits (digit * 2 ^ (4 * k + 2)) := by
  obtain ⟨top, topPlaces, range⟩ := endOfRange_eq
  obtain ⟨same, narrow, withinDigit⟩ := ofInt_digit small.le
  rw [same]
  refine mul_ofUnits_exact narrow (narrow_pow _) withinDigit ?_ (narrow_digit small _) ?_
  · rw [range]
    exact Nat.pow_lt_pow_right (by decide) (by omega)
  · exact Nat.mul_right_comm _ _ _

theorem mul_placeWeight_zero (small : digit < 16) :
    mul (ofInt digit) (placeWeight 0) = ofUnits 0 := by
  obtain ⟨same, narrow, within⟩ := ofInt_digit small.le
  rw [same, placeWeight, ← ofUnits_zero]
  exact mul_ofUnits_exact narrow (narrow_of_lt (by decide)) within endOfRange_pos
    (narrow_of_lt (by decide)) (by rw [Nat.mul_zero, Nat.zero_mul])

/-- Digits after the places that count add nothing. -/
theorem addFraction_of_no_places {n : Nat} (narrow : Narrow n)
    (small : ∀ value ∈ values, value < 16) :
    addFraction (ofUnits n) (placeWeight 0) values = ofUnits n := by
  induction values with
  | nil => rfl
  | cons digit rest ih =>
    rw [addFraction, mul_placeWeight_zero (small digit List.mem_cons_self),
      add_ofUnits narrow (narrow_of_lt (by decide)), placeWeight_mul 0 (by decide)]
    exact ih fun value member => small value (List.mem_cons_of_mem digit member)

/-- The digits of the places that count are added exactly. -/
theorem addFraction_eq (within : k ≤ 268) (small : ∀ value ∈ back, value < 16)
    (narrow : Narrow (numberOf 16 (front ++ back))) :
    addFraction (ofUnits (numberOf 16 front * 2 ^ (4 * k + 2))) (placeWeight k) back =
      ofUnits (numberOf 16 (front ++ back.take k) * 2 ^ (4 * (k - back.length) + 2)) := by
  -- Each digit goes from the back to the front and takes one place.
  induction back generalizing front k with
  | nil => rw [addFraction, List.take_nil, List.append_nil, List.length_nil, Nat.sub_zero]
  | cons digit rest ih =>
    have before := (narrow_of_append small narrow).mul_pow
    have smallRest : ∀ value ∈ rest, value < 16 := fun value member =>
      small value (List.mem_cons_of_mem digit member)
    cases k with
    | zero =>
      rw [addFraction_of_no_places (before _) small, List.take_zero, List.append_nil, Nat.zero_sub]
    | succ k =>
      have smallDigit := small digit List.mem_cons_self
      have sum : numberOf 16 front * 2 ^ (4 * (k + 1) + 2) + digit * 2 ^ (4 * k + 2) =
          numberOf 16 (front ++ [digit]) * 2 ^ (4 * k + 2) := by
        rw [numberOf_concat, Nat.add_mul, Nat.mul_assoc, show 16 = 2 ^ 4 from rfl, ← Nat.pow_add]
        congr 3
        omega
      have narrowRest : Narrow (numberOf 16 ((front ++ [digit]) ++ rest)) := by
        rwa [List.append_assoc, List.singleton_append]
      rw [addFraction, mul_placeWeight smallDigit (by omega),
        add_ofUnits (before _) (narrow_digit smallDigit _), sum, placeWeight_mul _ within,
        Nat.add_sub_cancel, ih (by omega) smallRest narrowRest, List.append_assoc,
        List.singleton_append, List.take_succ_cons, List.length_cons, Nat.add_sub_add_right]

/-- The digits of a mantissa are summed up exactly, up to the last place that counts. -/
theorem addFraction_wholePart {whole fraction : List Nat}
    (small : ∀ value ∈ whole ++ fraction, value < 16)
    (narrow : Narrow (numberOf 16 (whole ++ fraction))) :
    addFraction (wholePart whole) (powerOfTwo (-4)) fraction =
      ofUnits (numberOf 16 (whole ++ fraction.take 268) *
        2 ^ (4 * (268 - fraction.length) + 2)) := by
  obtain ⟨one, places, unit⟩ := unitsOfOne_eq
  obtain ⟨others, last, sixteenth⟩ := powerOfTwo_neg_four
  have smallWhole : ∀ value ∈ whole, value < 16 := fun value member =>
    small value (List.mem_append_left fraction member)
  have smallFraction : ∀ value ∈ fraction, value < 16 := fun value member =>
    small value (List.mem_append_right whole member)
  rw [wholePart_eq smallWhole (narrow_of_append smallFraction narrow), unit, sixteenth, ← last,
    show one = 4 * (others + 1) + 2 by omega]
  exact addFraction_eq last.le smallFraction narrow

end Sums

end IPPcode24.Literal
