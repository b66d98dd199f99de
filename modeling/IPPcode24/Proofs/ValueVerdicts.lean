import IPPcode24.Proofs.Verdicts
import Mathlib.Data.List.Basic

/-!
# Verdicts on values

The verdicts on the kinds of values and on operations predict the attempts to get a value of a
kind and to operate on values. Together they predict what an action makes of its values.
-/

namespace IPPcode24

/-! ## Kinds -/

theorem predicts_asInt (value : Value) :
    Predicts [Requirement.int.verdict value] (orError value.asInt) := by
  cases value with
  | int n => exact (Predicts.of_ok n).skip rfl
  | float x =>
    simp only [Requirement.verdict, Value.asInt, Binary64.asInteger]
    cases x.integral? with
    | none => exact .of_fail _
    | some n => exact (Predicts.of_ok n).skip rfl
  | bool _ | string _ | nil | uninitialized => exact .of_fail _

theorem predicts_asBool (value : Value) :
    Predicts [Requirement.bool.verdict value] (orError value.asBool) := by
  cases value with
  | bool b => exact (Predicts.of_ok b).skip rfl
  | int _ | float _ | string _ | nil | uninitialized => exact .of_fail _

theorem predicts_asText (value : Value) :
    Predicts [Requirement.string.verdict value] (orError value.asText) := by
  cases value with
  | string text => exact (Predicts.of_ok text).skip rfl
  | int _ | float _ | bool _ | nil | uninitialized => exact .of_fail _

theorem predicts_asFloat (value : Value) :
    Predicts [Requirement.float.verdict value] (orError value.asFloat) := by
  cases value with
  | float x => exact (Predicts.of_ok x).skip rfl
  | int _ | string _ | bool _ | nil | uninitialized => exact .of_fail _

theorem predicts_asKind (value : Value) :
    Predicts [Requirement.typeName.verdict value] (orError value.asKind) := by
  cases value with
  | string text =>
    simp only [Requirement.verdict, Value.asKind]
    cases Kind.ofName? text with
    | none => exact .of_fail _
    | some kind => exact (Predicts.of_ok kind).skip rfl
  | int _ | float _ | bool _ | nil | uninitialized => exact .of_fail _

/-! ## Operations -/

section Operations

variable {left right : Value}

theorem predicts_toInteger (x : Binary64) :
    Predicts [if x.toInt?.isSome then none else
        some (.operandValue (.mismatch (.noInteger x)))]
      (orError (x.toInteger.mapError OperationError.fault)) := by
  rw [Binary64.toInteger]
  cases x.toInt? with
  | none => exact .of_fail _
  | some n => exact (Predicts.of_ok n).skip rfl

/-- Values that are neither missing nor nil. -/
theorem predicts_order? {α : Type} (next : Option Ordering → α)
    (present : left ≠ .uninitialized ∧ right ≠ .uninitialized)
    (notNil : left ≠ .nil ∧ right ≠ .nil) (wanted : Relation) :
    Predicts [comparisonVerdict wanted left right]
      (orError (((left.order? right).map next).mapError OperationError.fault)) := by
  obtain ⟨leftPresent, rightPresent⟩ := present
  obtain ⟨leftNotNil, rightNotNil⟩ := notNil
  simp only [comparisonVerdict, leftPresent, rightPresent, leftNotNil, rightNotNil, or_self,
    if_false]
  cases left with
  | uninitialized => exact absurd rfl leftPresent
  | nil => exact absurd rfl leftNotNil
  | int a =>
    cases right with
    | uninitialized => exact absurd rfl rightPresent
    | nil => exact absurd rfl rightNotNil
    | int b => exact (Predicts.of_ok _).skip rfl
    | float x =>
      simp only [Value.order?, Binary64.asInteger]
      cases x.integral? with
      | none => exact .of_fail _
      | some n => exact (Predicts.of_ok _).skip rfl
    | bool _ | string _ => exact .of_fail _
  | float x =>
    cases right with
    | uninitialized => exact absurd rfl rightPresent
    | nil => exact absurd rfl rightNotNil
    | float y => exact (Predicts.of_ok _).skip rfl
    | int b =>
      simp only [Value.order?, Binary64.toInteger]
      cases x.toInt? with
      | none => exact .of_fail _
      | some n => exact (Predicts.of_ok _).skip rfl
    | bool _ | string _ => exact .of_fail _
  | bool a =>
    cases right with
    | uninitialized => exact absurd rfl rightPresent
    | nil => exact absurd rfl rightNotNil
    | bool b => exact (Predicts.of_ok _).skip rfl
    | int _ | float _ | string _ => exact .of_fail _
  | string a =>
    cases right with
    | uninitialized => exact absurd rfl rightPresent
    | nil => exact absurd rfl rightNotNil
    | string b => exact (Predicts.of_ok _).skip rfl
    | int _ | float _ | bool _ => exact .of_fail _

theorem predicts_compares (wanted : Relation) (left right : Value) :
    Predicts [comparisonVerdict wanted left right]
      (orError ((left.compares wanted right).mapError OperationError.fault)) := by
  unfold Value.compares
  by_cases missing : left = .uninitialized ∨ right = .uninitialized
  · rw [if_pos (by simpa using missing)]
    unfold comparisonVerdict
    rw [if_pos missing]
    exact .of_fail _
  rw [if_neg (by simpa using missing)]
  by_cases nil : left = .nil ∨ right = .nil
  · rw [if_pos (by simpa [Value.isNil] using nil)]
    unfold comparisonVerdict
    rw [if_neg missing, if_pos nil]
    cases wanted with
    | lt | gt => exact .of_fail _
    | eq => exact (Predicts.of_ok _).skip rfl
  · rw [if_neg (by simpa [Value.isNil] using nil)]
    exact predicts_order? _ (not_or.mp missing) (not_or.mp nil) wanted

/-- The positions of a text are the integers from zero to below its length. -/
theorem position?_filter (index : Int64) (count : Nat) :
    (Text.position? index).filter (· < count) =
      if 0 ≤ index.toInt ∧ index.toInt < count then some index.toInt.toNat else none := by
  rw [Text.position?]
  by_cases natural : 0 ≤ index.toInt
  · rw [if_pos natural, Option.filter_some]
    by_cases within : index.toInt < count
    · rw [if_pos (decide_eq_true (by omega)), if_pos ⟨natural, within⟩]
    · rw [if_neg (by rw [decide_eq_true_eq]; omega), if_neg (fun both => within both.2)]
  · rw [if_neg natural, if_neg (fun both => natural both.1), Option.filter_none]

theorem predicts_charAt (text : Text) (index : Int64) :
    Predicts [indexVerdict text index]
      (orError ((Text.charAt text index).mapError OperationError.fault)) := by
  have found : (Text.position? index).bind (text[·]?) =
      ((Text.position? index).filter (· < text.length)).bind (text[·]?) := by
    cases Text.position? index with
    | none => rfl
    | some position =>
      rw [Option.filter_some, Option.bind_some]
      by_cases within : position < text.length
      · rw [if_pos (decide_eq_true within), Option.bind_some]
      · rw [if_neg (by simpa using within), List.getElem?_eq_none (Nat.le_of_not_lt within),
          Option.bind_none]
  rw [Text.charAt, found, position?_filter, indexVerdict]
  split
  · next within =>
    have bound : index.toInt.toNat < text.length := by omega
    rw [Option.bind_some, List.getElem?_eq_getElem bound]
    exact (Predicts.of_ok _).skip rfl
  · exact .of_fail _

theorem predicts_setCharAt (text : Text) (index : Int64) (replacement : Text) :
    Predicts [if replacement = [] then some (.character .emptyReplacement)
        else indexVerdict text index]
      (orError ((Text.setCharAt text index replacement).mapError OperationError.fault)) := by
  cases replacement with
  | nil => exact .of_fail _
  | cons c rest =>
    rw [if_neg (List.cons_ne_nil c rest), Text.setCharAt, position?_filter, indexVerdict]
    split
    · exact (Predicts.of_ok _).skip rfl
    · exact .of_fail _

theorem predicts_ofCodePoint (code : Int64) :
    Predicts [if 0 ≤ code.toInt ∧ code.toInt.toNat.isValidChar then none
        else some (.character (.notCodePoint code))]
      (orError ((Text.ofCodePoint code).mapError OperationError.fault)) := by
  rw [Text.ofCodePoint, Text.position?]
  by_cases negative : 0 ≤ code.toInt
  · rw [if_pos negative, Option.filter_some]
    by_cases valid : code.toInt.toNat.isValidChar
    · rw [if_pos (decide_eq_true valid), if_pos ⟨negative, valid⟩]
      exact (Predicts.of_ok _).skip rfl
    · rw [if_neg (mt of_decide_eq_true valid), if_neg (fun both => valid both.2)]
      exact .of_fail _
  · rw [if_neg negative, if_neg (fun both => negative both.1)]
    exact .of_fail _

theorem predicts_exitWith (code : Int64) :
    Predicts [if 0 ≤ code.toInt ∧ code.toInt < 10 then none else some (.exitCode code)]
      (exitWith code) := by
  rw [exitWith]
  split
  · exact (Predicts.of_ok _).skip rfl
  · exact .of_fail _

theorem predicts_integerLength (text : Text) :
    Predicts [if text.length < 0x8000000000000000 then none
        else some (.internal .lengthOutOfRange)] (integerLength text) := by
  rw [integerLength]
  split
  · exact (Predicts.of_ok _).skip rfl
  · exact .of_fail _

end Operations

/-! ## Actions -/

namespace Action

/-- How many values an action works on. -/
def arity : Action → Nat
  | move | intToChar | read | length | typeOf | intToFloat | floatToInt | negation | write
  | exit => 1
  | arithmetic _ | relation _ | connective _ | charToInt | concat | getChar | jumpIf _ => 2
  | setChar => 3
  | createFrame | pushFrame | popFrame | define | call | ret | pass | jump | print
  | inspect => 0

variable {action : Action} {values : List Value} {order : SymbolOrder} {operands : List Operand}

theorem length_arguments (enough : action.signature.length ≤ operands.length) :
    (action.arguments order operands).length = action.arity := by
  cases action with
  | createFrame | pushFrame | popFrame | define | call | ret | pass | jump | print | inspect => rfl
  | write | exit =>
    obtain ⟨a, rest, rfl⟩ := exists_of_one_le enough
    rfl
  | move | intToChar | read | length | typeOf | intToFloat | floatToInt =>
    obtain ⟨a, b, rest, rfl⟩ := exists_of_two_le enough
    rfl
  | negation =>
    obtain ⟨a, b, rest, rfl⟩ := exists_of_two_le enough
    cases order <;> cases rest <;> simp [arguments, positions, arity]
  | charToInt | concat | getChar | jumpIf _ | setChar =>
    obtain ⟨a, b, c, rest, rfl⟩ := exists_of_three_le enough
    rfl
  | arithmetic _ | relation _ | connective _ =>
    obtain ⟨a, b, c, rest, rfl⟩ := exists_of_three_le enough
    cases order <;> rfl

theorem predicts_apply (operation : Arithmetic) {left right : Value} (a : Int64) {b : Int64}
    (given : right.asInt = .ok b) :
    Predicts [(arithmetic operation).operationVerdict [left, right]]
      (orError ((operation.apply a b).mapError OperationError.fault)) := by
  cases operation with
  | add | sub | mul => exact (Predicts.of_ok _).skip rfl
  | idiv =>
    simp only [operationVerdict, given, Except.ok.injEq, Arithmetic.apply]
    split
    · exact .of_fail _
    · exact (Predicts.of_ok _).skip rfl

theorem predicts_characterOf (text index : Value) :
    Predicts [Requirement.string.verdict text, Requirement.int.verdict index,
      getChar.operationVerdict [text, index]] (characterOf text index) := by
  refine .cons (predicts_asText text) fun content hText => ?_
  refine .cons (predicts_asInt index) fun position hIndex => ?_
  simp only [operationVerdict, orError_eq_ok.mp hText, orError_eq_ok.mp hIndex]
  exact predicts_charAt content position

/-- On as many values as it works on, an action fails with the first fault of their kinds, or
else with that of its operation. -/
theorem predicts_outcome (shape : values.length = action.arity) :
    Predicts (List.zipWith Requirement.verdict action.requirements values ++
        [action.operationVerdict values]) (action.outcome values) := by
  cases action with
  | createFrame | pushFrame | popFrame | define | call | ret | pass | jump | print | inspect =>
    exact (Predicts.of_ok _).skip rfl
  | move | typeOf =>
    obtain ⟨value, rfl⟩ := List.length_eq_one_iff.mp shape
    exact (Predicts.of_ok _).skip rfl
  | arithmetic operation =>
    obtain ⟨left, right, rfl⟩ := List.length_eq_two.mp shape
    refine .cons (predicts_asInt left) fun a _ => .cons (predicts_asInt right) fun b given => ?_
    exact (predicts_apply operation a (orError_eq_ok.mp given)).last
  | relation wanted =>
    obtain ⟨left, right, rfl⟩ := List.length_eq_two.mp shape
    exact (predicts_compares wanted left right).last
  | connective operation =>
    obtain ⟨left, right, rfl⟩ := List.length_eq_two.mp shape
    refine .cons (predicts_asBool left) fun a _ => .cons (predicts_asBool right) fun b _ => ?_
    exact (Predicts.of_ok _).skip rfl
  | negation =>
    obtain ⟨value, rfl⟩ := List.length_eq_one_iff.mp shape
    exact .cons (predicts_asBool value) fun b _ => (Predicts.of_ok _).skip rfl
  | intToChar =>
    obtain ⟨value, rfl⟩ := List.length_eq_one_iff.mp shape
    refine .cons (predicts_asInt value) fun code given => ?_
    simp only [operationVerdict, orError_eq_ok.mp given]
    exact (predicts_ofCodePoint code).last
  | charToInt | getChar =>
    obtain ⟨text, index, rfl⟩ := List.length_eq_two.mp shape
    exact (predicts_characterOf text index).last
  | read =>
    obtain ⟨name, rfl⟩ := List.length_eq_one_iff.mp shape
    exact .cons (predicts_asKind name) fun kind _ => (Predicts.of_ok _).skip rfl
  | write =>
    obtain ⟨value, rfl⟩ := List.length_eq_one_iff.mp shape
    simp only [outcome, onOne, operationVerdict]
    split
    · exact .of_fail _
    · exact (Predicts.of_ok _).skip rfl
  | concat =>
    obtain ⟨left, right, rfl⟩ := List.length_eq_two.mp shape
    refine .cons (predicts_asText left) fun a _ => .cons (predicts_asText right) fun b _ => ?_
    exact (Predicts.of_ok _).skip rfl
  | length =>
    obtain ⟨value, rfl⟩ := List.length_eq_one_iff.mp shape
    refine .cons (predicts_asText value) fun text given => ?_
    simp only [operationVerdict, orError_eq_ok.mp given]
    exact (predicts_integerLength text).last
  | setChar =>
    obtain ⟨current, index, replacement, rfl⟩ := List.length_eq_three.mp shape
    refine .cons (predicts_asText current) fun text hText => ?_
    refine .cons (predicts_asInt index) fun position hIndex => ?_
    refine .cons (predicts_asText replacement) fun content hContent => ?_
    simp only [operationVerdict, orError_eq_ok.mp hText, orError_eq_ok.mp hIndex,
      orError_eq_ok.mp hContent]
    exact (predicts_setCharAt text position content).last
  | jumpIf equal =>
    obtain ⟨left, right, rfl⟩ := List.length_eq_two.mp shape
    exact (predicts_compares .eq left right).last
  | exit =>
    obtain ⟨value, rfl⟩ := List.length_eq_one_iff.mp shape
    refine .cons (predicts_asInt value) fun code given => ?_
    simp only [operationVerdict, orError_eq_ok.mp given]
    exact (predicts_exitWith code).last
  | intToFloat =>
    obtain ⟨value, rfl⟩ := List.length_eq_one_iff.mp shape
    exact .cons (predicts_asInt value) fun n _ => (Predicts.of_ok _).skip rfl
  | floatToInt =>
    obtain ⟨value, rfl⟩ := List.length_eq_one_iff.mp shape
    refine .cons (predicts_asFloat value) fun x given => ?_
    simp only [operationVerdict, orError_eq_ok.mp given]
    exact (predicts_toInteger x).last

end Action

end IPPcode24
