import IPPcode24.Proofs.Computations
import IPPcode24.Proofs.HexadecimalFloats
import IPPcode24.Proofs.ValueVerdicts
import Mathlib.Data.Rat.Floor

/-!
# Integer parts of floats

A finite float is turned into the integer part of its exact value, if this is a 64-bit integer,
and it stands for its exact value, if this is a 64-bit integer. The range needs no care at its
lower end: a float below the least 64-bit integer has no fractional part, so that its integer part
is below the range as well. Integers of at most 53 bits are floats, and come back from them.
-/

namespace IPPcode24

/-- The integer part: the fraction is dropped, so that the result is not farther from zero. -/
def truncation (q : ℚ) : ℤ := if 0 ≤ q then ⌊q⌋ else ⌈q⌉

theorem truncation_neg (q : ℚ) : truncation (-q) = -truncation q := by
  unfold truncation
  rcases lt_trichotomy q 0 with negative | rfl | positive
  · rw [if_pos (by linarith), if_neg (by linarith), Int.floor_neg]
  · simp
  · rw [if_neg (by linarith), if_pos (by linarith), Int.ceil_neg]

theorem truncation_intCast (n : ℤ) : truncation n = n := by
  unfold truncation
  split <;> simp

namespace Binary64

/-- The number is finite, and its exact value is the integer. -/
def IsInteger (x : Binary64) (n : Int64) : Prop := x.isFinite = true ∧ x.value = n.toInt

section Parts

variable {x : Binary64} {n : Int64}

theorem value_eq (x : Binary64) :
    x.value = if x.negative then -(x.units / unitsOfOne : ℚ) else (x.units / unitsOfOne : ℚ) := by
  unfold value signedUnits
  split
  · push_cast
    ring
  · push_cast
    rfl

theorem truncated_eq (x : Binary64) : x.truncated = truncation x.value := by
  have magnitude : truncation (x.units / unitsOfOne : ℚ) = (x.units / unitsOfOne : Nat) := by
    have nonnegative : (0 : ℚ) ≤ x.units / unitsOfOne := by positivity
    rw [truncation, if_pos nonnegative, Rat.floor_natCast_div_natCast]
    push_cast
    rfl
  rw [value_eq, truncated]
  split
  · rw [truncation_neg, magnitude]
  · exact magnitude.symm

/-- The units of a number are those of an integer, or the number has less than 53 bits before the
point. -/
theorem units_whole_or_small (x : Binary64) :
    unitsOfOne ∣ x.units ∨ x.units < 0x20000000000000 * unitsOfOne := by
  obtain ⟨one, _, unit⟩ := unitsOfOne_eq
  rw [unit]
  by_cases large : one ≤ x.scale
  · left
    exact (Nat.pow_dvd_pow 2 large).mul_left x.significand
  · right
    have scaled : 2 ^ x.scale ≤ 2 ^ one := Nat.pow_le_pow_right Nat.two_pos (by omega)
    exact Nat.mul_lt_mul_of_lt_of_le x.significand_lt scaled (Nat.two_pow_pos one)

theorem range_iff (x : Binary64) :
    (-(0x8000000000000000 * (unitsOfOne : Int)) ≤ x.signedUnits ∧
        x.signedUnits < 0x8000000000000000 * (unitsOfOne : Int)) ↔
      -2 ^ 63 ≤ x.truncated ∧ x.truncated < 2 ^ 63 := by
  have one := unitsOfOne_pos
  have below : x.units / unitsOfOne < 0x8000000000000000 ↔
      x.units < 0x8000000000000000 * unitsOfOne := Nat.div_lt_iff_lt_mul one
  -- one more than the limit is already too much for a number with a fractional part
  have within : x.units / unitsOfOne ≤ 0x8000000000000000 ↔
      x.units ≤ 0x8000000000000000 * unitsOfOne := by
    rcases x.units_whole_or_small with ⟨whole, same⟩ | small
    · rw [same, Nat.mul_div_cancel_left whole one, Nat.mul_comm unitsOfOne]
      exact (Nat.mul_le_mul_right_iff one).symm
    · have less : x.units / unitsOfOne < 0x20000000000000 := (Nat.div_lt_iff_lt_mul one).mpr small
      constructor <;> omega
  unfold signedUnits truncated
  generalize x.units / unitsOfOne = part at below within ⊢
  split <;> omega

/-- The conversion succeeds exactly for finite numbers with an integer part in range, and gives
the integer part. -/
theorem toInt?_eq_some_iff :
    x.toInt? = some n ↔ x.isFinite = true ∧ truncation x.value = n.toInt := by
  have range := x.range_iff
  have lower := n.le_toInt
  have upper := n.toInt_lt
  rw [← truncated_eq]
  unfold toInt?
  simp only [Bool.and_eq_true, decide_eq_true_eq, and_assoc]
  constructor
  · intro given
    split at given
    · next inside =>
      obtain ⟨low, high⟩ := range.mp inside.2
      refine ⟨inside.1, ?_⟩
      rw [← Option.some.inj given, Int64.toInt_ofInt_of_le low high]
    · cases given
  · rintro ⟨finite, same⟩
    have inside := range.mpr (by omega)
    rw [if_pos ⟨finite, inside⟩, same, Int64.ofInt_toInt]

theorem isWhole_iff : x.isWhole = true ↔ x.isFinite = true ∧ ∃ k : ℤ, x.value = k := by
  have one : (unitsOfOne : ℚ) ≠ 0 := Nat.cast_ne_zero.mpr unitsOfOne_pos.ne'
  have signed : unitsOfOne ∣ x.units ↔ (unitsOfOne : ℤ) ∣ x.signedUnits := by
    unfold signedUnits
    split
    · rw [Int.dvd_neg, Int.natCast_dvd_natCast]
    · rw [Int.natCast_dvd_natCast]
  have divides : unitsOfOne ∣ x.units ↔ ∃ k : ℤ, x.value = k := by
    rw [signed]
    constructor
    · rintro ⟨k, same⟩
      refine ⟨k, ?_⟩
      rw [value, same, div_eq_iff one]
      push_cast
      ring
    · rintro ⟨k, same⟩
      rw [value, div_eq_iff one] at same
      refine ⟨k, ?_⟩
      rw [mul_comm]
      exact_mod_cast same
  rw [isWhole, Bool.and_eq_true, decide_eq_true_eq, ← divides, Nat.dvd_iff_mod_eq_zero]

/-- A float stands for an integer exactly when its value is that integer. -/
theorem integral?_eq_some_iff : x.integral? = some n ↔ x.IsInteger n := by
  unfold integral? IsInteger
  by_cases whole : x.isWhole = true
  · obtain ⟨finite, k, same⟩ := isWhole_iff.mp whole
    rw [if_pos whole, toInt?_eq_some_iff, same, truncation_intCast]
    exact and_congr_right fun _ => Int.cast_inj.symm
  · rw [if_neg whole]
    refine iff_of_false nofun fun stands => ?_
    exact whole (isWhole_iff.mpr ⟨stands.1, n.toInt, stands.2⟩)

theorem toInteger_eq_ok_iff :
    x.toInteger = .ok n ↔ x.isFinite = true ∧ truncation x.value = n.toInt := by
  rw [← toInt?_eq_some_iff, toInteger]
  cases x.toInt? <;> simp

theorem exists_toInteger_iff :
    (∃ n, x.toInteger = .ok n) ↔
      x.isFinite = true ∧ -2 ^ 63 ≤ truncation x.value ∧ truncation x.value ≤ 2 ^ 63 - 1 := by
  constructor
  · rintro ⟨n, given⟩
    obtain ⟨finite, part⟩ := toInteger_eq_ok_iff.mp given
    have lower := n.le_toInt
    have upper := n.toInt_lt
    exact ⟨finite, by omega, by omega⟩
  · rintro ⟨finite, lower, upper⟩
    refine ⟨Int64.ofInt (truncation x.value), toInteger_eq_ok_iff.mpr ⟨finite, ?_⟩⟩
    exact (Int64.toInt_ofInt_of_le lower (by omega)).symm

theorem asInt_float_eq_ok_iff : (Value.float x).asInt = .ok n ↔ x.IsInteger n := by
  rw [← integral?_eq_some_iff, Value.asInt, Chain.mapError_eq_ok, asInteger]
  cases x.integral? <;> simp

/-- An integer of at most 53 bits, or one more than these, is a float. -/
theorem ofInt_of_small {k : ℤ} (small : k.natAbs ≤ 2 ^ 53) :
    (ofInt k).isFinite = true ∧ (ofInt k).value = k := by
  obtain ⟨one, places, unit⟩ := unitsOfOne_eq
  obtain ⟨top, last, range⟩ := endOfRange_eq
  have narrow : Narrow (k.natAbs * unitsOfOne) := by
    have bits : Narrow k.natAbs := by
      by_cases less : k.natAbs < 2 ^ 53
      · exact narrow_of_lt less
      · have power : k.natAbs = 2 ^ 53 := by omega
        exact power ▸ narrow_pow 53
    exact unit ▸ bits.mul_pow one
  have within : k.natAbs * unitsOfOne < endOfRange := by
    calc k.natAbs * unitsOfOne
      _ ≤ 2 ^ 53 * 2 ^ one := by rw [unit]; exact Nat.mul_le_mul_right _ small
      _ = 2 ^ (53 + one) := (Nat.pow_add 2 53 one).symm
      _ < endOfRange := by rw [range]; exact Nat.pow_lt_pow_right (by decide) (by omega)
  obtain ⟨finite, sign, units⟩ : (ofInt k).isFinite = true ∧
      (ofInt k).negative = decide (k < 0) ∧ (ofInt k).units = k.natAbs * unitsOfOne :=
    narrow.round_units within
  refine ⟨finite, ?_⟩
  have nonzero : (unitsOfOne : ℚ) ≠ 0 := Nat.cast_ne_zero.mpr unitsOfOne_pos.ne'
  have magnitude : ((k.natAbs * unitsOfOne : Nat) : ℚ) / unitsOfOne = (k.natAbs : ℤ) := by
    rw [Int.cast_natCast, Nat.cast_mul, mul_div_cancel_right₀ _ nonzero]
  rw [value_eq, sign, units, magnitude]
  by_cases negative : k < 0
  · rw [decide_eq_true negative, if_pos rfl, ← Int.cast_neg, Int.cast_inj]
    omega
  · rw [decide_eq_false negative, if_neg Bool.false_ne_true, Int.cast_inj]
    omega

end Parts

end Binary64

/-! ## Integer checks -/

namespace Action

variable {action : Action} {values : List Value} {position : Nat} {value other : Value}

/-- Where an action needs an integer, it works on what the value is taken for. -/
theorem outcome_set_of_asInt (shape : values.length = action.arity)
    (required : action.requirements[position]? = some .int)
    (given : values[position]? = some value) (same : other.asInt = value.asInt) :
    action.outcome (values.set position other) = action.outcome values := by
  -- the requirement rules out every position at which the action needs no integer
  cases action with
  | arithmetic operation =>
    obtain ⟨left, right, rfl⟩ := List.length_eq_two.mp shape
    rcases position with _ | _ | position
    · obtain rfl := Option.some.inj given
      simp only [List.set_cons_zero, outcome, onTwo, same]
    · obtain rfl := Option.some.inj given
      simp only [List.set_cons_succ, List.set_cons_zero, outcome, onTwo, same]
    · cases required
  | intToChar | exit | intToFloat =>
    obtain ⟨only, rfl⟩ := List.length_eq_one_iff.mp shape
    rcases position with _ | position
    · obtain rfl := Option.some.inj given
      simp only [List.set_cons_zero, outcome, onOne, same]
    · cases required
  | charToInt | getChar =>
    obtain ⟨text, index, rfl⟩ := List.length_eq_two.mp shape
    rcases position with _ | _ | position
    · cases required
    · obtain rfl := Option.some.inj given
      simp only [List.set_cons_succ, List.set_cons_zero, outcome, onTwo, characterOf, same]
    · cases required
  | setChar =>
    obtain ⟨current, index, replacement, rfl⟩ := List.length_eq_three.mp shape
    rcases position with _ | _ | _ | position
    · cases required
    · obtain rfl := Option.some.inj given
      simp only [List.set_cons_succ, List.set_cons_zero, outcome, onThree, same]
    · cases required
    · cases required
  | connective _ | concat => rcases position with _ | _ | position <;> cases required
  | negation | read | length | floatToInt => rcases position with _ | position <;> cases required
  | _ => cases required

/-- An action has no outcome for a value that does not meet what is required of it. -/
theorem outcome_ne_ok {requirement : Requirement} (shape : values.length = action.arity)
    (required : action.requirements[position]? = some requirement)
    (given : values[position]? = some value) (wrong : requirement.verdict value ≠ none)
    (outcome : Outcome) : action.outcome values ≠ .ok outcome := by
  intro succeeded
  have nothing := earliest_eq_none_iff.mp ((predicts_outcome shape).ok outcome succeeded)
  refine wrong (nothing _ (List.mem_append_left _ (List.mem_of_getElem? (i := position) ?_)))
  rw [List.getElem?_zipWith, required, given]

end Action

/-! ## Conversions -/

section Conversions

variable {machine : Machine} {target symbol other : Operand} {n : Int64} {x : Binary64}

theorem Machine.Supplies.yields_int2Float (supplies : machine.Supplies target [symbol] [.int n]) :
    machine.Yields .int2Float target [symbol] (.ok (.float (Binary64.ofInt n.toInt))) :=
  supplies.yields (by decide) rfl rfl

theorem Machine.Supplies.yields_float2Int (supplies : machine.Supplies target [symbol] [.float x]) :
    machine.Yields .float2Int target [symbol]
      ((x.toInteger.mapError OperationError.fault).map Value.int) := by
  refine supplies.yields (by decide) rfl ?_
  simp only [Opcode.action, Action.outcome, onOne, Value.asFloat, orError_ok, Chain.bind_ok]
  exact assign_of_operation x.toInteger Value.int

theorem Machine.Supplies.yields_back (supplies : machine.Supplies target [symbol] [.int n])
    (declares : machine.frames.Declares other)
    (back : (Binary64.ofInt n.toInt).toInteger = .ok n) :
    ∃ next, (∀ labels, machine.execute labels .int2Float [target, symbol] =
        ⟨next, [], .ok .next⟩) ∧
      next.frames.value target = .ok (.float (Binary64.ofInt n.toInt)) ∧
      next.Yields .float2Int other [target] (.ok (.int n)) := by
  obtain ⟨next, executed, held, keeps⟩ :=
    supplies.yields_int2Float.exists_next supplies.declares.isVar nofun
  refine ⟨next, executed, held, ?_⟩
  have supplied : next.Supplies other [target] [.float (Binary64.ofInt n.toInt)] :=
    ⟨keeps other declares, valued_one held⟩
  have yields := supplied.yields_float2Int
  rwa [back] at yields

end Conversions

/-- A float has an integer part in the range of 64-bit integers exactly if the conversion
succeeds, which gives that part. It stands for an integer exactly if its value is that integer;
then every action that needs an integer works on the float as on the integer, and otherwise it
has no outcome. Up to `2 ^ 53`, INT2FLOAT makes a float that stands for the integer and
is turned back into it by FLOAT2INT. -/
theorem floats_become_integers_exactly (x : Binary64) :
    ((∃ n, x.toInteger = .ok n) ↔
      x.isFinite = true ∧ -2 ^ 63 ≤ truncation x.value ∧ truncation x.value ≤ 2 ^ 63 - 1) ∧
    (∀ n, x.toInteger = .ok n → n.toInt = truncation x.value) ∧
    (∀ n, (x.integral? = some n ↔ x.IsInteger n) ∧
      ((Value.float x).asInt = .ok n ↔ x.IsInteger n)) ∧
    (∀ (action : Action) (values : List Value) (position : Nat),
      values.length = action.arity → action.requirements[position]? = some .int →
      values[position]? = some (.float x) →
      (∀ n, x.IsInteger n →
        action.outcome values = action.outcome (values.set position (.int n))) ∧
      ((∀ n, ¬ x.IsInteger n) → ∀ outcome, action.outcome values ≠ .ok outcome)) ∧
    ∀ n : Int64, n.toInt.natAbs ≤ 2 ^ 53 →
      (Binary64.ofInt n.toInt).toInteger = .ok n ∧
      (Value.float (Binary64.ofInt n.toInt)).asInt = .ok n ∧
      ∀ (machine : Machine) (target symbol other : Operand),
        machine.Supplies target [symbol] [.int n] → machine.frames.Declares other →
        ∃ next, (∀ labels, machine.execute labels .int2Float [target, symbol] =
            ⟨next, [], .ok .next⟩) ∧
          next.frames.value target = .ok (.float (Binary64.ofInt n.toInt)) ∧
          next.Yields .float2Int other [target] (.ok (.int n)) := by
  refine ⟨Binary64.exists_toInteger_iff, fun n given => ?_, fun n => ?_, ?_, ?_⟩
  · exact (Binary64.toInteger_eq_ok_iff.mp given).2.symm
  · exact ⟨Binary64.integral?_eq_some_iff, Binary64.asInt_float_eq_ok_iff⟩
  · intro action values position shape required given
    refine ⟨fun n stands => ?_, fun never => ?_⟩
    · have same : (Value.int n).asInt = (Value.float x).asInt :=
        (Binary64.asInt_float_eq_ok_iff.mpr stands).symm
      exact (Action.outcome_set_of_asInt shape required given same).symm
    · refine Action.outcome_ne_ok shape required given ?_
      have none : x.integral? = none :=
        Option.eq_none_iff_forall_ne_some.mpr fun n given =>
          never n (Binary64.integral?_eq_some_iff.mp given)
      simp [Requirement.verdict, none]
  · intro n small
    obtain ⟨finite, exact⟩ := Binary64.ofInt_of_small small
    have back : (Binary64.ofInt n.toInt).toInteger = .ok n := by
      rw [Binary64.toInteger_eq_ok_iff, exact, truncation_intCast]
      exact ⟨finite, rfl⟩
    refine ⟨back, Binary64.asInt_float_eq_ok_iff.mpr ⟨finite, exact⟩, ?_⟩
    exact fun machine target symbol other supplies declares => supplies.yields_back declares back

/-- A machine with a variable for the float and one for what becomes of it. -/
def convertsTwice : Machine :=
  ⟨⟨[(['x'], .uninitialized), (['y'], .nil)], none, []⟩, [], 0, 0, ⟨[]⟩, .unbounded⟩

def leastSmall : Int64 := -9007199254740992

/-- The least integer of this range goes to a float and back, and the float serves as the
dividend of a division. -/
theorem least_small_integer_comes_back :
    convertsTwice.Supplies ⟨.var, "GF@x".toList⟩ [⟨.literal .int, "-9007199254740992".toList⟩]
        [.int leastSmall] ∧
      convertsTwice.frames.Declares ⟨.var, "GF@y".toList⟩ ∧
      (∃ next, (∀ labels, convertsTwice.execute labels .int2Float
            [⟨.var, "GF@x".toList⟩, ⟨.literal .int, "-9007199254740992".toList⟩] =
          ⟨next, [], .ok .next⟩) ∧
        next.Yields .float2Int ⟨.var, "GF@y".toList⟩ [⟨.var, "GF@x".toList⟩]
          (.ok (.int leastSmall))) ∧
      (Action.arithmetic .idiv).outcome [.float (Binary64.ofInt leastSmall.toInt), .int 4096] =
        .ok (.assign (.int (-2199023255552))) := by
  have supplies : convertsTwice.Supplies ⟨.var, "GF@x".toList⟩
      [⟨.literal .int, "-9007199254740992".toList⟩] [.int leastSmall] :=
    ⟨⟨rfl, .uninitialized, by decide +kernel⟩, by decide +kernel⟩
  have declares : convertsTwice.frames.Declares ⟨.var, "GF@y".toList⟩ :=
    ⟨rfl, .nil, by decide +kernel⟩
  obtain ⟨_, _, stands, checks, returns⟩ :=
    floats_become_integers_exactly (Binary64.ofInt leastSmall.toInt)
  obtain ⟨_, asInt, converted⟩ := returns leastSmall (by decide)
  obtain ⟨next, executed, _, yields⟩ := converted convertsTwice _ _ _ supplies declares
  refine ⟨supplies, declares, ⟨next, executed, yields⟩, ?_⟩
  rw [(checks (.arithmetic .idiv) _ 0 rfl rfl rfl).1 leastSmall ((stands leastSmall).2.mp asInt)]
  decide +kernel

end IPPcode24
