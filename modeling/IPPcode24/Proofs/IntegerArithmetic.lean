import IPPcode24.Proofs.Computations
import Mathlib.Algebra.Order.Group.Unbundled.Int
import Mathlib.Data.Int.ModEq

/-!
# Integer arithmetic against exact integers

Every operation gives what its exact result wraps to, so that sum, difference and product are the
only 64-bit integers congruent to the exact ones. A quotient that drops the fraction is in range
unless the least integer is divided by minus one, and it is the only one that leaves a
remainder which is smaller than the divisor and has the sign of the dividend.
-/

namespace IPPcode24

/-- The integer is a quotient with a remainder that is smaller than the divisor and has the sign
of the dividend. -/
def IsQuotient (dividend divisor quotient : ℤ) : Prop :=
  ∃ remainder, dividend = quotient * divisor + remainder ∧ |remainder| < |divisor| ∧
    (remainder = 0 ∨ remainder.sign = dividend.sign)

theorem isQuotient_iff {a b q : ℤ} (nonzero : b ≠ 0) : IsQuotient a b q ↔ q = a.tdiv b := by
  constructor
  · rintro ⟨r, exact, small, sign⟩
    have bound : |r| < b.natAbs := by rwa [Int.abs_eq_natAbs b] at small
    obtain ⟨low, high⟩ := abs_lt.mp bound
    have sum : r + b * q = a := by rw [exact, Int.add_comm, Int.mul_comm]
    -- the sign of the dividend fixes on which side of zero the remainder is
    rcases Int.le_total 0 a with dividend | dividend
    · have remainder : 0 ≤ r := by
        rcases sign with zero | sign
        · omega
        · exact Int.sign_nonneg_iff.mp (sign ▸ Int.sign_nonneg_iff.mpr dividend)
      exact ((Int.tdiv_tmod_unique dividend nonzero).mpr ⟨sum, remainder, high⟩).1.symm
    · have remainder : r ≤ 0 := by
        rcases sign with zero | sign
        · omega
        · exact Int.sign_nonpos_iff.mp (sign ▸ Int.sign_nonpos_iff.mpr dividend)
      exact ((Int.tdiv_tmod_unique' dividend nonzero).mpr ⟨sum, low, remainder⟩).1.symm
  · rintro rfl
    refine ⟨a.tmod b, (Int.tdiv_mul_add_tmod a b).symm, ?_, ?_⟩
    · rw [Int.abs_eq_natAbs, Int.abs_eq_natAbs, Int.natAbs_tmod, Int.ofNat_lt]
      exact Nat.mod_lt _ (Int.natAbs_pos.mpr nonzero)
    · by_cases divides : b ∣ a
      · exact .inl (Int.tmod_eq_zero_of_dvd divides)
      · right
        rw [Int.sign_tmod, if_neg divides]

/-- Congruence to a number leaves only the integer that the number wraps to. -/
theorem modEq_iff_eq_ofInt {d : Int64} {e : ℤ} :
    d.toInt ≡ e [ZMOD 2 ^ 64] ↔ d = Int64.ofInt e := by
  have lower := d.le_toInt
  have upper := d.toInt_lt
  rw [eq_comm (a := d), Int64.ofInt_eq_iff_bmod_eq_toInt, Int.bmod_def, Int.ModEq]
  constructor
  · intro congruent
    split <;> omega
  · intro wrapped
    split at wrapped <;> omega

namespace Arithmetic

/-- The result that the operation has among all integers. -/
def exactResult : Arithmetic → ℤ → ℤ → ℤ
  | add, left, right => left + right
  | sub, left, right => left - right
  | mul, left, right => left * right
  | idiv, left, right => left.tdiv right

def opcode : Arithmetic → Opcode
  | add => .add
  | sub => .sub
  | mul => .mul
  | idiv => .idiv

def Commutes (operation : Arithmetic) : Prop :=
  ∀ a b, operation.apply a b = operation.apply b a

def Associates (operation : Arithmetic) : Prop :=
  ∀ a b c, (operation.apply a b >>= fun first => operation.apply first c) =
    (operation.apply b c >>= fun second => operation.apply a second)

section Results

variable {operation : Arithmetic} {a b : Int64}

/-- The result wraps around wherever there is one. -/
theorem apply_eq_ofInt (defined : operation = .idiv → b ≠ 0) :
    operation.apply a b = .ok (Int64.ofInt (operation.exactResult a.toInt b.toInt)) := by
  cases operation with
  | add => rw [apply, exactResult, Int64.ofInt_add, Int64.ofInt_toInt, Int64.ofInt_toInt]
  | sub => rw [apply, exactResult, Int64.ofInt_sub, Int64.ofInt_toInt, Int64.ofInt_toInt]
  | mul => rw [apply, exactResult, Int64.ofInt_mul, Int64.ofInt_toInt, Int64.ofInt_toInt]
  | idiv =>
    have wrapped : Int64.ofInt (a.toInt.tdiv b.toInt) = a / b :=
      (Int64.ofInt_eq_iff_bmod_eq_toInt _ _).mpr (Int64.toInt_div a b).symm
    rw [apply, exactResult, if_neg (defined rfl), wrapped]

theorem idiv_eq_error_iff : idiv.apply a b = .error .divisionByZero ↔ b = 0 := by
  constructor
  · intro failed
    by_contra nonzero
    rw [apply, if_neg nonzero] at failed
    cases failed
  · exact fun zero => if_pos zero

/-- Only one quotient is out of range. -/
theorem idiv_eq_ok (nonzero : b ≠ 0) : ∃ q, idiv.apply a b = .ok q ∧
    (a.toInt = -2 ^ 63 ∧ b.toInt = -1 → q.toInt = -2 ^ 63) ∧
    (¬ (a.toInt = -2 ^ 63 ∧ b.toInt = -1) →
      ∀ e, IsQuotient a.toInt b.toInt e ↔ e = q.toInt) := by
  refine ⟨a / b, if_neg nonzero, ?_, fun inRange e => ?_⟩
  · rintro ⟨least, minusOne⟩
    obtain rfl : a = Int64.minValue := Int64.toInt_inj.mp (least.trans Int64.toInt_minValue.symm)
    obtain rfl : b = -1 := Int64.toInt_inj.mp minusOne
    rw [Int64.minValue_div_neg_one, Int64.toInt_minValue]
  · have divisor : b.toInt ≠ 0 := fun zero => nonzero (Int64.toInt_inj.mp zero)
    have quotient : (a / b).toInt = a.toInt.tdiv b.toInt := by
      by_cases least : a = Int64.minValue
      · refine Int64.toInt_div_of_ne_right a b fun minusOne => inRange ?_
        rw [least, minusOne]
        exact ⟨Int64.toInt_minValue, rfl⟩
      · exact Int64.toInt_div_of_ne_left a b least
    rw [isQuotient_iff divisor, quotient]

theorem add_commutes : add.Commutes := fun a b => congrArg Except.ok (Int64.add_comm a b)

theorem mul_commutes : mul.Commutes := fun a b => congrArg Except.ok (Int64.mul_comm a b)

theorem add_associates : add.Associates := fun a b c =>
  congrArg Except.ok (Int64.add_assoc a b c)

theorem mul_associates : mul.Associates := fun a b c =>
  congrArg Except.ok (Int64.mul_assoc a b c)

end Results

end Arithmetic

theorem Machine.Supplies.yields_arithmetic {machine : Machine} {target first second : Operand}
    {left right : Value} {a b : Int64}
    (supplies : machine.Supplies target [first, second] [left, right])
    (leftInt : left.asInt = .ok a) (rightInt : right.asInt = .ok b) (operation : Arithmetic) :
    machine.Yields operation.opcode target [first, second]
      (((operation.apply a b).mapError OperationError.fault).map Value.int) := by
  have computed : (Action.arithmetic operation).outcome [left, right] =
      (orError (((operation.apply a b).mapError OperationError.fault).map Value.int)).map
        Outcome.assign := by
    simp only [Action.outcome, onTwo, leftInt, rightInt, orError_ok, Chain.bind_ok]
    exact assign_of_operation (operation.apply a b) Value.int
  cases operation with
  | add | sub | mul | idiv => exact supplies.yields (by decide) rfl computed

/-- ADD, SUB and MUL give the only 64-bit integer that is congruent to the exact result. IDIV fails
exactly if the divisor is zero, and otherwise gives the only quotient, unless this is one more
than the greatest integer and wraps to the least. Over all integers sums and products commute
and associate, products distribute over sums, and a difference takes back a sum. -/
theorem integer_arithmetic_is_exact (a b : Int64) :
    (∀ operation : Arithmetic, operation ≠ .idiv → ∃ c, operation.apply a b = .ok c ∧
      ∀ d : Int64, d.toInt ≡ operation.exactResult a.toInt b.toInt [ZMOD 2 ^ 64] ↔ d = c) ∧
    (Arithmetic.idiv.apply a b = .error .divisionByZero ↔ b = 0) ∧
    (b ≠ 0 → ∃ q, Arithmetic.idiv.apply a b = .ok q ∧
      (a.toInt = -2 ^ 63 ∧ b.toInt = -1 → q.toInt = -2 ^ 63) ∧
      (¬ (a.toInt = -2 ^ 63 ∧ b.toInt = -1) →
        ∀ e, IsQuotient a.toInt b.toInt e ↔ e = q.toInt)) ∧
    (Arithmetic.add.Commutes ∧ Arithmetic.mul.Commutes) ∧
    (Arithmetic.add.Associates ∧ Arithmetic.mul.Associates) ∧
    (∀ c, (Arithmetic.add.apply a b >>= Arithmetic.mul.apply c) = (do
      let left ← Arithmetic.mul.apply c a
      let right ← Arithmetic.mul.apply c b
      Arithmetic.add.apply left right)) ∧
    (Arithmetic.add.apply a b >>= fun sum => Arithmetic.sub.apply sum b) = .ok a ∧
    ∀ (operation : Arithmetic) (machine : Machine) (target first second : Operand)
      (left right : Value), machine.Supplies target [first, second] [left, right] →
      left.asInt = .ok a → right.asInt = .ok b →
      machine.Yields operation.opcode target [first, second]
        (((operation.apply a b).mapError OperationError.fault).map Value.int) := by
  refine ⟨fun operation division => ?_, Arithmetic.idiv_eq_error_iff, Arithmetic.idiv_eq_ok,
    ⟨Arithmetic.add_commutes, Arithmetic.mul_commutes⟩,
    ⟨Arithmetic.add_associates, Arithmetic.mul_associates⟩, fun c => ?_, ?_, ?_⟩
  · exact ⟨_, Arithmetic.apply_eq_ofInt fun divides => absurd divides division,
      fun _ => modEq_iff_eq_ofInt⟩
  · exact congrArg Except.ok Int64.mul_add
  · exact congrArg Except.ok (Int64.add_sub_cancel a b)
  · exact fun operation machine target first second left right supplies leftInt rightInt =>
      supplies.yields_arithmetic leftInt rightInt operation

def awaitsResult : Machine :=
  ⟨⟨[(['x'], .uninitialized)], none, []⟩, [], 0, 0, ⟨[]⟩, .unbounded⟩

/-- The least integer divided by a float that stands for minus one is the least integer, their sum
is the greatest, and minus three is the quotient of minus seven and two. -/
theorem quotient_of_least_wraps :
    awaitsResult.Supplies ⟨.var, "GF@x".toList⟩
        [⟨.literal .int, "-9223372036854775808".toList⟩, ⟨.literal .float, "-0x1p+0".toList⟩]
        [.int Int64.minValue, .float (Binary64.ofInt (-1))] ∧
      awaitsResult.Yields .idiv ⟨.var, "GF@x".toList⟩
        [⟨.literal .int, "-9223372036854775808".toList⟩, ⟨.literal .float, "-0x1p+0".toList⟩]
        (.ok (.int Int64.minValue)) ∧
      Arithmetic.add.apply Int64.minValue (-1) = .ok Int64.maxValue ∧
      IsQuotient (-7) 2 (-3) := by
  have supplies : awaitsResult.Supplies ⟨.var, "GF@x".toList⟩
      [⟨.literal .int, "-9223372036854775808".toList⟩, ⟨.literal .float, "-0x1p+0".toList⟩]
      [.int Int64.minValue, .float (Binary64.ofInt (-1))] :=
    ⟨⟨rfl, .uninitialized, by decide +kernel⟩, by decide +kernel⟩
  have minusOne : (Value.float (Binary64.ofInt (-1))).asInt = .ok (-1) := by decide +kernel
  obtain ⟨unique, _, quotient, _, _, _, _, instructions⟩ :=
    integer_arithmetic_is_exact Int64.minValue (-1)
  obtain ⟨q, divided, least, _⟩ := quotient (by decide)
  obtain rfl : q = Int64.minValue := Int64.toInt_inj.mp (least (by decide))
  have yields := instructions .idiv _ _ _ _ _ _ supplies rfl minusOne
  rw [divided] at yields
  obtain ⟨sum, added, congruent⟩ := unique .add (by decide)
  obtain rfl : Int64.maxValue = sum := (congruent Int64.maxValue).mp (by decide)
  obtain ⟨three, dropped, _, only⟩ := (integer_arithmetic_is_exact (-7) 2).2.2.1 (by decide)
  obtain rfl : three = -3 := by
    rw [show Arithmetic.idiv.apply (-7) 2 = .ok (-3) by decide] at dropped
    exact (Except.ok.inj dropped).symm
  exact ⟨supplies, yields, added, (only (by decide) (-3)).mpr rfl⟩

end IPPcode24
