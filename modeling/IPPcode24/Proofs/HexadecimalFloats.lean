import IPPcode24.Proofs.HexadecimalSums
import IPPcode24.Proofs.Words
import Mathlib.Algebra.Field.Rat
import Mathlib.Algebra.Order.Field.Basic
import Mathlib.Tactic.FieldSimp
import Mathlib.Tactic.NormNum
import Mathlib.Tactic.Positivity

/-!
# Hexadecimal floats

The hexadecimal floats are described without reference to how they are read, and each of them has
an exact value. Every one is read as some number. If a finite number has the exact value, this
number is read exactly if the float is within reach: its power of two is a factor of its own, and
neither this factor nor the sum of the digits may leave the range, even if their product does not.
-/

namespace IPPcode24

/-- The exact value of a finite number. -/
def Binary64.value (x : Binary64) : ℚ := x.signedUnits / Binary64.unitsOfOne

namespace Literal

open Binary64

/-- A hexadecimal float: its sign, its digits before and behind the point, and the power of two. -/
structure HexFloat where
  negative : Bool
  whole : List Nat
  fraction : List Nat
  exponent : Int

/-- The text is digits with a point, or digits alone. -/
inductive MantissaText : Text → List Nat → List Nat → Prop where
  | whole {text : Text} {values : List Nat} (digits : DigitsOf 16 text values) :
      MantissaText text values []
  | point {front back : Text} {whole fraction : List Nat} (before : DigitsOf 16 front whole)
      (behind : DigitsOf 16 back fraction) : MantissaText (front ++ '.' :: back) whole fraction

/-- The text is a letter and an exponent with a sign or without one, or nothing. -/
inductive ExponentText : Text → Int → Prop where
  | absent : ExponentText [] 0
  | power {p : Char} {digits text : Text} {negative : Bool} {values : List Nat}
      (letter : p = 'p' ∨ p = 'P') (digitsOf : DigitsOf 10 digits values)
      (present : values ≠ []) (signed : Signed digits negative text) :
      ExponentText (p :: text) (withSign negative (numberOf 10 values))

namespace HexFloat

/-- The text is written for the float, which has a digit and an exponent of 32 bits. -/
structure IsText (float : HexFloat) (text : Text) : Prop where
  pieces : ∃ x mantissa exponent, (x = 'x' ∨ x = 'X') ∧
    MantissaText mantissa float.whole float.fraction ∧ ExponentText exponent float.exponent ∧
    Signed ('0' :: x :: (mantissa ++ exponent)) float.negative text
  digits : float.whole ++ float.fraction ≠ []
  fits : -0x80000000 ≤ float.exponent ∧ float.exponent < 0x80000000

def value (float : HexFloat) : ℚ :=
  (if float.negative then -1 else 1) *
    (numberOf 16 float.whole + numberOf 16 float.fraction / 16 ^ float.fraction.length) *
    2 ^ float.exponent

/-- Neither the power of two nor the sum of the digits leaves the range, and no digit but zeros
comes after the places that count. If all digits are zeros, only large powers are out of reach. -/
def InReach (float : HexFloat) : Prop :=
  float.exponent ≤ 1023 ∧ ((∀ digit ∈ float.whole ++ float.fraction, digit = 0) ∨
    -1023 ≤ float.exponent ∧ numberOf 16 float.whole < Nat.pow 2 1024 ∧
      ∀ digit ∈ float.fraction.drop 268, digit = 0)

instance (float : HexFloat) : Decidable float.InReach := inferInstanceAs (Decidable (_ ∧ _))

/-- The number that is computed for a float without its sign. -/
def magnitude (float : HexFloat) : Binary64 :=
  mul (addFraction (wholePart float.whole) (powerOfTwo (-4)) float.fraction)
    (powerOfTwo float.exponent)

/-- The units in the sum of the digits of the places that count. -/
def counted (float : HexFloat) : Nat :=
  numberOf 16 (float.whole ++ float.fraction.take 268) *
    2 ^ (4 * (268 - float.fraction.length) + 2)

/-- The float has digits, and its exact magnitude is a count of units of a finite number. -/
structure HasUnits (float : HexFloat) (n : Nat) : Prop where
  small : ∀ digit ∈ float.whole ++ float.fraction, digit < 16
  narrow : Narrow n
  within : n < endOfRange
  scaled : ∃ a b : Nat, (a : Int) + 4 * float.fraction.length = float.exponent + 1074 + b ∧
    n * 2 ^ b = numberOf 16 (float.whole ++ float.fraction) * 2 ^ a

end HexFloat

/-! ## Reading -/

section Reading

variable {text : Text}

theorem cutExponent_append (isLetter : Char → Bool) {front : Text}
    (absent : ∀ c ∈ front, isLetter c = false) (rest : Text) :
    cutExponent isLetter (front ++ rest) =
      (front ++ (cutExponent isLetter rest).1, (cutExponent isLetter rest).2) := by
  induction front with
  | nil => rfl
  | cons c front ih =>
    have later := ih fun d member => absent d (List.mem_cons_of_mem c member)
    rw [List.cons_append, cutExponent, absent c List.mem_cons_self, later]
    rfl

theorem MantissaText.not_mem_of_letter {whole fraction : List Nat} {p : Char}
    (written : MantissaText text whole fraction) (letter : p = 'p' ∨ p = 'P') : p ∉ text := by
  have noDigit {text : Text} {values : List Nat} (digits : DigitsOf 16 text values) :
      p ∉ text := by
    rcases letter with rfl | rfl
    · exact digits.not_mem (not_digitOf rfl (by decide))
    · exact digits.not_mem (not_digitOf rfl (by decide))
  cases written with
  | whole digits => exact noDigit digits
  | point before behind =>
    intro member
    rcases List.mem_append.mp member with inFront | inBack
    · exact noDigit before inFront
    · rcases List.mem_cons.mp inBack with rfl | inBack
      · rcases letter with point | point <;> cases point
      · exact noDigit behind inBack

theorem MantissaText.digitValues_splitPoint {whole fraction : List Nat}
    (written : MantissaText text whole fraction) :
    digitValues 16 (splitPoint text).1 = some whole ∧
      digitValues 16 (splitPoint text).2 = some fraction := by
  have noPoint {text : Text} {values : List Nat} (digits : DigitsOf 16 text values) :
      '.' ∉ text := digits.not_mem (not_digitOf rfl (by decide))
  cases written with
  | whole digits =>
    have uncut : Text.cut '.' text = none := by
      cases cut : Text.cut '.' text with
      | none => rfl
      | some parts =>
        obtain ⟨split, _⟩ := Text.cut_eq_some_iff.mp cut
        exact absurd (split ▸ List.mem_append_right _ List.mem_cons_self) (noPoint digits)
    rw [splitPoint, uncut]
    exact ⟨digitValues_eq_some_iff.mpr digits, rfl⟩
  | point before behind =>
    rw [splitPoint, Text.cut_append (noPoint before)]
    exact ⟨digitValues_eq_some_iff.mpr before, digitValues_eq_some_iff.mpr behind⟩

theorem signedDecimal_of_digits {negative : Bool} {digits : Text} {values : List Nat}
    (digitsOf : DigitsOf 10 digits values) (present : values ≠ [])
    (signed : Signed digits negative text) :
    signedDecimal text = some (withSign negative (numberOf 10 values)) := by
  have unsigned (c : Char) (first : digits.head? = some c) : c ≠ '-' ∧ c ≠ '+' := by
    cases digitsOf with
    | nil => cases first
    | cons digit _ =>
      cases first
      exact digit.ne_sign
  simp [signedDecimal, signed.takeSign_eq unsigned, digitValues_eq_some_iff.mpr digitsOf, present,
    ofDigits_eq, withSign]

theorem ExponentText.cutExponent_eq {exponent : Int} (written : ExponentText text exponent) :
    ∃ rest?, cutExponent (fun c => c = 'p' || c = 'P') text = ([], rest?) ∧
      (match rest? with
        | some rest => signedDecimal rest
        | none => some 0) = some exponent := by
  cases written with
  | absent => exact ⟨none, rfl, rfl⟩
  | power letter digitsOf present signed =>
    refine ⟨some _, if_pos ?_, signedDecimal_of_digits digitsOf present signed⟩
    rcases letter with rfl | rfl <;> rfl

theorem HexFloat.IsText.parseFloat_eq {float : HexFloat} (written : float.IsText text) :
    parseFloat text =
      .ok (some (if float.negative then float.magnitude.neg else float.magnitude)) := by
  obtain ⟨⟨x, mantissa, exponent, letter, mantissaText, exponentText, signed⟩, digit, fits⟩ :=
    written
  have sign := signed.takeSign_eq fun c first => by
    cases first
    exact ⟨by decide, by decide⟩
  have marker : takeMarker 'x' ('0' :: x :: (mantissa ++ exponent)) =
      .ok (some (mantissa ++ exponent)) := by
    rcases letter with rfl | rfl <;> rfl
  obtain ⟨rest?, power, given⟩ := exponentText.cutExponent_eq
  have noLetter (c : Char) (member : c ∈ mantissa) : (c = 'p' || c = 'P') = false := by
    refine Bool.eq_false_iff.mpr fun isLetter => mantissaText.not_mem_of_letter ?_ member
    simpa using isLetter
  have pieces := cutExponent_append _ noLetter exponent
  rw [power, List.append_nil] at pieces
  obtain ⟨whole, fraction⟩ := mantissaText.digitValues_splitPoint
  have present : ¬ ((splitPoint mantissa).1 = [] ∧ (splitPoint mantissa).2 = []) := by
    rintro ⟨noWhole, noFraction⟩
    rw [noWhole] at whole
    rw [noFraction] at fraction
    rw [← Option.some.inj whole, ← Option.some.inj fraction] at digit
    exact digit rfl
  have read : parseHexadecimal (mantissa ++ exponent) = some float.magnitude := by
    have outside : ¬ (float.exponent < -0x80000000 ∨ 0x80000000 ≤ float.exponent) := by omega
    rw [parseHexadecimal, pieces]
    cases rest? with
    | none =>
      have zero : 0 = float.exponent := Option.some.inj given
      simp [present, whole, fraction, HexFloat.magnitude, ← zero]
    | some rest =>
      have given : signedDecimal rest = some float.exponent := given
      simp [given, outside, present, whole, fraction, HexFloat.magnitude]
  simp [parseFloat, sign, marker, read]

theorem MantissaText.lt {whole fraction : List Nat}
    (written : MantissaText text whole fraction) : ∀ digit ∈ whole ++ fraction, digit < 16 := by
  cases written with
  | whole digits => exact fun digit member => digits.lt digit (List.append_nil whole ▸ member)
  | point before behind =>
    intro digit member
    exact (List.mem_append.mp member).elim (before.lt digit) (behind.lt digit)

end Reading

/-! ## Exact values -/

section Exactness

variable {float : HexFloat} {x : Binary64}

theorem HexFloat.digits_div (float : HexFloat) :
    (numberOf 16 float.whole + numberOf 16 float.fraction / 16 ^ float.fraction.length : ℚ) =
      numberOf 16 (float.whole ++ float.fraction) / 2 ^ (4 * float.fraction.length) := by
  have sixteen : (16 : ℚ) ^ float.fraction.length = 2 ^ (4 * float.fraction.length) := by
    rw [pow_mul]
    norm_num
  rw [numberOf_append, sixteen_pow, sixteen]
  push_cast
  field_simp

theorem HexFloat.units_div (sign : x.negative = float.negative) (exact : x.value = float.value) :
    (x.units / unitsOfOne : ℚ) =
      numberOf 16 (float.whole ++ float.fraction) / 2 ^ (4 * float.fraction.length) *
        2 ^ float.exponent := by
  rw [Binary64.value, HexFloat.value, digits_div, signedUnits, sign] at exact
  cases negative : float.negative with
  | true =>
    rw [negative, if_pos rfl, if_pos rfl, Int.cast_neg, Int.cast_natCast, neg_div, neg_one_mul,
      neg_mul] at exact
    exact neg_inj.mp exact
  | false =>
    rw [negative, if_neg Bool.false_ne_true, if_neg Bool.false_ne_true, Int.cast_natCast,
      one_mul] at exact
    exact exact

theorem HexFloat.hasUnits (small : ∀ digit ∈ float.whole ++ float.fraction, digit < 16)
    (finite : x.isFinite = true) (sign : x.negative = float.negative)
    (exact : x.value = float.value) : float.HasUnits x.units := by
  obtain ⟨one, places, unit⟩ := unitsOfOne_eq
  -- At most one of the two powers is not one, as the last digit is above a unit or below it.
  refine ⟨small, x.narrow_units, units_lt_endOfRange finite,
    (float.exponent + 1074 - 4 * float.fraction.length).toNat,
    (4 * float.fraction.length - float.exponent - 1074).toNat, by omega, ?_⟩
  generalize left : (float.exponent + 1074 - 4 * float.fraction.length).toNat = a
  generalize right : (4 * float.fraction.length - float.exponent - 1074).toNat = b
  have powers : (2 : ℚ) ^ float.exponent * 2 ^ one * 2 ^ b =
      2 ^ a * 2 ^ (4 * float.fraction.length) := by
    simp only [← zpow_natCast, ← zpow_add₀ (two_ne_zero' ℚ)]
    exact congrArg ((2 : ℚ) ^ ·) (by push_cast; omega)
  have rational : (x.units : ℚ) * 2 ^ b =
      numberOf 16 (float.whole ++ float.fraction) * 2 ^ a := by
    have scaled := units_div sign exact
    rw [unit, Nat.cast_pow, Nat.cast_ofNat, div_eq_iff (by positivity)] at scaled
    rw [scaled, mul_assoc, mul_assoc, ← mul_assoc (2 ^ float.exponent), powers]
    field_simp
  exact_mod_cast rational

/-- The digits of a mantissa are those of the places that count, and the lost ones. -/
theorem HexFloat.numberOf_eq (float : HexFloat) :
    numberOf 16 (float.whole ++ float.fraction) =
      numberOf 16 (float.whole ++ float.fraction.take 268) *
        2 ^ (4 * (float.fraction.length - 268)) + numberOf 16 (float.fraction.drop 268) := by
  have parts : float.whole ++ float.fraction =
      (float.whole ++ float.fraction.take 268) ++ float.fraction.drop 268 := by
    rw [List.append_assoc, List.take_append_drop]
  rw [parts, numberOf_append, sixteen_pow, List.length_drop]

namespace HexFloat.HasUnits

variable {k n : Nat}

theorem lost_lt (has : float.HasUnits n) :
    numberOf 16 (float.fraction.drop 268) < 2 ^ (4 * (float.fraction.length - 268)) := by
  rw [← sixteen_pow, ← List.length_drop]
  exact numberOf_lt fun digit member =>
    has.small digit (List.mem_append_right _ (List.mem_of_mem_drop member))

theorem narrow_digits (has : float.HasUnits n) :
    Narrow (numberOf 16 (float.whole ++ float.fraction)) := by
  obtain ⟨a, b, _, same⟩ := has.scaled
  exact (same ▸ has.narrow.mul_pow b).of_mul_pow

theorem narrow_taken (has : float.HasUnits n) :
    Narrow (numberOf 16 (float.whole ++ float.fraction.take 268)) := by
  have whole : Narrow (numberOf 16
      ((float.whole ++ float.fraction.take 268) ++ float.fraction.drop 268)) := by
    rw [List.append_assoc, List.take_append_drop]
    exact has.narrow_digits
  exact narrow_of_append (fun digit member =>
    has.small digit (List.mem_append_right _ (List.mem_of_mem_drop member))) whole

theorem narrow_counted (has : float.HasUnits n) : Narrow float.counted :=
  has.narrow_taken.mul_pow _

theorem counted_div (has : float.HasUnits n) :
    float.counted / unitsOfOne = numberOf 16 float.whole := by
  obtain ⟨one, places, unit⟩ := unitsOfOne_eq
  have smallTaken : ∀ digit ∈ float.fraction.take 268, digit < 16 := fun digit member =>
    has.small digit (List.mem_append_right _ (List.mem_of_mem_take member))
  have pieces : one =
      4 * (float.fraction.take 268).length + (4 * (268 - float.fraction.length) + 2) := by
    rw [List.length_take]
    omega
  rw [unit, pieces, Nat.pow_add, counted, Nat.mul_div_mul_right _ _ (Nat.two_pow_pos _),
    numberOf_append_div smallTaken]

theorem counted_lt_iff (has : float.HasUnits n) :
    float.counted < endOfRange ↔ numberOf 16 float.whole < Nat.pow 2 1024 := by
  have range : endOfRange = Nat.pow 2 1024 * unitsOfOne := by decide +kernel
  rw [range, ← has.counted_div, Nat.div_lt_iff_lt_mul unitsOfOne_pos]

/-- The scaled sum lacks the share of the lost digits. -/
theorem counted_add_lost (has : float.HasUnits n) (power : (k : Int) = float.exponent + 1074) :
    ∃ a b, float.counted * 2 ^ k * 2 ^ b + numberOf 16 (float.fraction.drop 268) * 2 ^ a =
      n * unitsOfOne * 2 ^ b := by
  obtain ⟨one, places, unit⟩ := unitsOfOne_eq
  obtain ⟨a, b, powers, same⟩ := has.scaled
  have exponents : 4 * (268 - float.fraction.length) + 2 + k + b =
      4 * (float.fraction.length - 268) + (a + one) := by omega
  refine ⟨a + one, b, ?_⟩
  calc float.counted * 2 ^ k * 2 ^ b + numberOf 16 (float.fraction.drop 268) * 2 ^ (a + one)
    _ = numberOf 16 (float.whole ++ float.fraction.take 268) *
          2 ^ (4 * (268 - float.fraction.length) + 2 + k + b) +
        numberOf 16 (float.fraction.drop 268) * 2 ^ (a + one) := by
      rw [counted, Nat.mul_assoc, Nat.mul_assoc, ← Nat.pow_add, ← Nat.pow_add, ← Nat.add_assoc]
    _ = numberOf 16 (float.whole ++ float.fraction) * 2 ^ (a + one) := by
      rw [exponents, numberOf_eq, Nat.add_mul, Nat.mul_assoc, ← Nat.pow_add]
    _ = n * unitsOfOne * 2 ^ b := by
      rw [unit, Nat.pow_add, ← Nat.mul_assoc, ← same, Nat.mul_right_comm]

/-- With a power that is not large, lost digits would be parts of a unit. -/
theorem lost_eq_zero_of_le (has : float.HasUnits n) (most : float.exponent ≤ -2) :
    numberOf 16 (float.fraction.drop 268) = 0 := by
  obtain ⟨a, b, powers, same⟩ := has.scaled
  by_cases short : float.fraction.length ≤ 268
  · have lost := has.lost_lt
    rw [Nat.sub_eq_zero_of_le short] at lost
    exact Nat.lt_one_iff.mp lost
  · obtain ⟨more, parts⟩ : ∃ more, b = more + 4 * (float.fraction.length - 268) + a :=
      ⟨b - a - 4 * (float.fraction.length - 268), by omega⟩
    have divided : n * 2 ^ more * 2 ^ (4 * (float.fraction.length - 268)) =
        numberOf 16 (float.whole ++ float.fraction) := by
      refine Nat.eq_of_mul_eq_mul_right (Nat.two_pow_pos a) ?_
      rw [← same, parts, Nat.pow_add, Nat.pow_add, ← Nat.mul_assoc, ← Nat.mul_assoc]
    have rest : numberOf 16 (float.whole ++ float.fraction) %
        2 ^ (4 * (float.fraction.length - 268)) = numberOf 16 (float.fraction.drop 268) := by
      rw [numberOf_eq, Nat.mul_add_mod_self_right, Nat.mod_eq_of_lt has.lost_lt]
    rw [← rest, ← divided, Nat.mul_mod_left]

/-- With a large power the sum is scaled exactly, so what is lost makes it too small. -/
theorem lost_eq_zero_of_lt (has : float.HasUnits n) (power : (k : Int) = float.exponent + 1074)
    (large : -2 < float.exponent)
    (rounded : round false (float.counted * 2 ^ k) unitsOfOne = ofUnits n) :
    numberOf 16 (float.fraction.drop 268) = 0 := by
  obtain ⟨one, places, unit⟩ := unitsOfOne_eq
  obtain ⟨a, b, lack⟩ := has.counted_add_lost power
  obtain ⟨more, parts⟩ : ∃ more, 4 * (268 - float.fraction.length) + 2 + k = more + one :=
    ⟨_, (Nat.sub_add_cancel (by omega)).symm⟩
  have scaled : float.counted * 2 ^ k =
      numberOf 16 (float.whole ++ float.fraction.take 268) * 2 ^ more * unitsOfOne := by
    rw [unit, counted, Nat.mul_assoc, Nat.mul_assoc, ← Nat.pow_add, ← Nat.pow_add, parts]
  have narrow := has.narrow_taken.mul_pow more
  generalize numberOf 16 (float.whole ++ float.fraction.take 268) * 2 ^ more = sum
    at scaled narrow
  rw [scaled, narrow.round_exact unitsOfOne_pos] at rounded
  rw [scaled] at lack
  have atMost : sum ≤ n := by
    refine Nat.le_of_mul_le_mul_right (Nat.le_of_mul_le_mul_right ?_ (Nat.two_pow_pos b))
      unitsOfOne_pos
    omega
  -- Both counts are within the range, so that rounding does not make them the same.
  have equal : sum = n :=
    (ofUnits_inj narrow has.narrow (Nat.lt_of_le_of_lt atMost has.within) has.within).mp rounded
  rw [equal] at lack
  exact (Nat.mul_eq_zero.mp (Nat.add_eq_left.mp lack)).resolve_right (Nat.two_pow_pos a).ne'

theorem isFinite_ofUnits (has : float.HasUnits n) : (ofUnits n).isFinite = true :=
  (has.narrow.round_units has.within).1

theorem eq_zero_iff (has : float.HasUnits n) :
    n = 0 ↔ numberOf 16 (float.whole ++ float.fraction) = 0 := by
  obtain ⟨a, b, _, same⟩ := has.scaled
  constructor
  · rintro rfl
    rw [Nat.zero_mul] at same
    exact (Nat.mul_eq_zero.mp same.symm).resolve_right (Nat.two_pow_pos a).ne'
  · intro zero
    rw [zero, Nat.zero_mul] at same
    exact (Nat.mul_eq_zero.mp same).resolve_right (Nat.two_pow_pos b).ne'

theorem counted_eq_zero (zero : numberOf 16 (float.whole ++ float.fraction) = 0) :
    float.counted = 0 ∧ numberOf 16 (float.fraction.drop 268) = 0 := by
  rw [numberOf_eq, Nat.add_eq_zero_iff] at zero
  have noDigits := (Nat.mul_eq_zero.mp zero.1).resolve_right (Nat.two_pow_pos _).ne'
  exact ⟨by rw [counted, noDigits, Nat.zero_mul], zero.2⟩

/-- Below the range of the powers of two only zeros are computed exactly. -/
theorem mul_zero_eq_iff (has : float.HasUnits n) :
    mul (ofUnits float.counted) (ofUnits 0) = ofUnits n ↔
      numberOf 16 (float.whole ++ float.fraction) = 0 := by
  have none : Narrow 0 := narrow_of_lt (by decide)
  have product (within : float.counted < endOfRange) :
      mul (ofUnits float.counted) (ofUnits 0) = ofUnits 0 :=
    mul_ofUnits_exact has.narrow_counted none within endOfRange_pos none
      (by rw [Nat.mul_zero, Nat.zero_mul])
  rw [← has.eq_zero_iff]
  constructor
  · intro computed
    have finite := has.isFinite_ofUnits
    rw [← computed] at finite
    have within := (within_of_mul has.narrow_counted none finite).1
    rw [product within] at computed
    exact ((ofUnits_inj none has.narrow endOfRange_pos has.within).mp computed).symm
  · intro zero
    have sum := (counted_eq_zero (has.eq_zero_iff.mp zero)).1
    rw [product (sum ▸ endOfRange_pos), zero]

/-- From there on the sum of the digits and the power of two must not leave the range. -/
theorem mul_pow_eq_iff (has : float.HasUnits n) (power : (k : Int) = float.exponent + 1074) :
    mul (ofUnits float.counted) (ofUnits (2 ^ k)) = ofUnits n ↔
      2 ^ k < endOfRange ∧ float.counted < endOfRange ∧
        numberOf 16 (float.fraction.drop 268) = 0 := by
  constructor
  · intro computed
    have finite := has.isFinite_ofUnits
    rw [← computed] at finite
    obtain ⟨within, withinPower⟩ := within_of_mul has.narrow_counted (narrow_pow k) finite
    rw [mul_ofUnits has.narrow_counted (narrow_pow k) within withinPower] at computed
    refine ⟨withinPower, within, ?_⟩
    rcases lt_or_ge (-2) float.exponent with large | most
    · exact has.lost_eq_zero_of_lt power large computed
    · exact has.lost_eq_zero_of_le most
  · rintro ⟨withinPower, within, lost⟩
    obtain ⟨a, b, lack⟩ := has.counted_add_lost power
    rw [lost, Nat.zero_mul, Nat.add_zero] at lack
    exact mul_ofUnits_exact has.narrow_counted (narrow_pow k) within withinPower has.narrow
      (Nat.eq_of_mul_eq_mul_right (Nat.two_pow_pos b) lack)

theorem magnitude_eq_iff (has : float.HasUnits n) :
    float.magnitude = ofUnits n ↔ float.InReach := by
  have zeros : numberOf 16 (float.whole ++ float.fraction) = 0 ↔ _ :=
    numberOf_eq_zero_iff (by decide)
  have lostZeros : numberOf 16 (float.fraction.drop 268) = 0 ↔ _ :=
    numberOf_eq_zero_iff (by decide)
  rw [magnitude, addFraction_wholePart has.small has.narrow_digits, ← counted, InReach, ← zeros,
    ← lostZeros, ← has.counted_lt_iff]
  -- Below the least power the factor is zero, and from there on it is exact or infinite.
  rcases lt_or_ge float.exponent (-1023) with less | atLeast
  · rw [powerOfTwo_of_lt less, has.mul_zero_eq_iff]
    omega
  · obtain ⟨k, power, same⟩ := powerOfTwo_of_le atLeast
    obtain ⟨top, places, range⟩ := endOfRange_eq
    have withinPower : 2 ^ k < endOfRange ↔ float.exponent ≤ 1023 := by
      rw [range, Nat.pow_lt_pow_iff_right (by decide)]
      omega
    rw [same, has.mul_pow_eq_iff power, withinPower]
    refine and_congr_right fun _ => ⟨fun within => .inr ⟨atLeast, within⟩, ?_⟩
    rintro (zero | ⟨_, within⟩)
    · obtain ⟨sum, lost⟩ := counted_eq_zero zero
      exact ⟨sum ▸ endOfRange_pos, lost⟩
    · exact within

end HexFloat.HasUnits

end Exactness

/-- The text of a hexadecimal float is always read as a number. If a finite number has the sign
and the exact value of the float, this is the number that is read if and only if the float is
within reach. -/
theorem hexadecimal_float_is_exact_iff {text : Text} {float : HexFloat} {x : Binary64}
    (written : float.IsText text) (finite : x.isFinite = true)
    (sign : x.negative = float.negative) (exact : x.value = float.value) :
    ∃ y, parseFloat text = .ok (some y) ∧ (y = x ↔ float.InReach) := by
  refine ⟨_, written.parseFloat_eq, ?_⟩
  obtain ⟨_, _, _, _, mantissa, _⟩ := written.pieces
  have units := round_of_units finite
  rw [← (HexFloat.hasUnits mantissa.lt finite sign exact).magnitude_eq_iff]
  cases negative : float.negative with
  | true =>
    rw [sign, negative] at units
    rw [if_pos rfl, neg_eq_iff, ← units, neg_round, units]
    rfl
  | false =>
    rw [sign, negative] at units
    rw [if_neg Bool.false_ne_true, ofUnits, units]

/-- A minus sign, a capital marker, digits on both sides of the point and a sign of the exponent. -/
theorem negative_three_is_exact :
    parseFloat "-0X1.8p+1".toList = .ok (some (ofInt (-3))) := by
  have exponent : ExponentText "p+1".toList 1 :=
    .power (.inl rfl) (digitValues_eq_some_iff.mp rfl) (List.cons_ne_nil 1 []) .plus
  have before : DigitsOf 16 "1".toList [1] := digitValues_eq_some_iff.mp rfl
  have behind : DigitsOf 16 "8".toList [8] := digitValues_eq_some_iff.mp rfl
  have mantissa : MantissaText "1.8".toList [1] [8] := .point before behind
  have written : HexFloat.IsText ⟨true, [1], [8], 1⟩ "-0X1.8p+1".toList :=
    ⟨⟨'X', _, _, .inr rfl, mantissa, exponent, .minus⟩, by decide, by decide⟩
  have units : (ofInt (-3)).signedUnits = -3 * unitsOfOne := by decide +kernel
  have one : (unitsOfOne : ℚ) ≠ 0 := Nat.cast_ne_zero.mpr unitsOfOne_pos.ne'
  have digits : numberOf 16 [1] = 1 ∧ numberOf 16 [8] = 8 := by decide
  have exact : (ofInt (-3)).value = HexFloat.value ⟨true, [1], [8], 1⟩ := by
    rw [Binary64.value, units, HexFloat.value, digits.1, digits.2]
    push_cast
    rw [mul_div_cancel_right₀ _ one]
    norm_num
  obtain ⟨y, read, same⟩ :=
    hexadecimal_float_is_exact_iff written (by decide +kernel) (by decide +kernel) exact
  rw [read, same.mpr (by decide +kernel)]

/-- Two to the power 1024 is infinite, and zero times this factor is no number. Two to the power
of the least positive number is taken for zero. -/
theorem zero_and_least_positive_are_not_exact :
    (∃ (float : HexFloat) (x : Binary64), float.IsText "0x0p1024".toList ∧ x.isFinite = true ∧
      x.negative = float.negative ∧ x.value = float.value ∧
      parseFloat "0x0p1024".toList = .ok (some nan)) ∧
    ∃ (float : HexFloat) (x : Binary64), float.IsText "0x1p-1074".toList ∧ x.isFinite = true ∧
      x.negative = float.negative ∧ x.value = float.value ∧ x ≠ zero false ∧
      parseFloat "0x1p-1074".toList = .ok (some (zero false)) := by
  have largeDigits : DigitsOf 10 "1024".toList [1, 0, 2, 4] := digitValues_eq_some_iff.mp rfl
  have leastDigits : DigitsOf 10 "1074".toList [1, 0, 7, 4] := digitValues_eq_some_iff.mp rfl
  have large : ExponentText "p1024".toList 1024 :=
    .power (.inl rfl) largeDigits (List.cons_ne_nil 1 _) .bare
  have least : ExponentText "p-1074".toList (-1074) :=
    .power (.inl rfl) leastDigits (List.cons_ne_nil 1 _) .minus
  have zeroDigit : MantissaText "0".toList [0] [] := .whole (digitValues_eq_some_iff.mp rfl)
  have oneDigit : MantissaText "1".toList [1] [] := .whole (digitValues_eq_some_iff.mp rfl)
  have digits : numberOf 16 [0] = 0 ∧ numberOf 16 [1] = 1 ∧ numberOf 16 [] = 0 := by decide
  refine ⟨⟨⟨false, [0], [], 1024⟩, zero false, ?_, by decide, rfl, ?_, by decide +kernel⟩,
    ⟨false, [1], [], -1074⟩, ofBits 1, ?_, by decide, by decide, ?_, by decide, by decide +kernel⟩
  · exact ⟨⟨'x', _, _, .inl rfl, zeroDigit, large, .bare⟩, by decide, by decide⟩
  · have units : (zero false).signedUnits = 0 := by decide +kernel
    rw [Binary64.value, units, HexFloat.value, digits.1, digits.2.2, Int.cast_zero, zero_div,
      Nat.cast_zero, zero_div, add_zero, mul_zero, zero_mul]
  · exact ⟨⟨'x', _, _, .inl rfl, oneDigit, least, .bare⟩, by decide, by decide⟩
  · have units : (ofBits 1).signedUnits = 1 := by decide +kernel
    obtain ⟨one, places, unit⟩ := unitsOfOne_eq
    have power : (-1074 : Int) = -(one : Int) := by omega
    rw [Binary64.value, units, HexFloat.value, digits.2.1, digits.2.2, unit, power]
    simp

end Literal

end IPPcode24
