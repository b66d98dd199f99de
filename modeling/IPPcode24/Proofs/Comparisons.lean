import IPPcode24.Proofs.Equality
import IPPcode24.Proofs.IntegerParts
import IPPcode24.Proofs.TextOrder

/-!
# Comparisons

The three relations between two values all have an answer or all have none, and of the answers one
is true, unless a float that is not a number is compared with a float. Nil is only equal to nil.
Within integers, truth values and texts the relations are those of a total order; texts are ordered
by their code points.
-/

namespace IPPcode24

namespace Value

/-- Two values without an answer: a float that is to be an integer and is none, or values of
different types. -/
def Incomparable : Value → Value → Prop
  | int _, float x => ∀ n, ¬ x.IsInteger n
  | float x, int _ =>
      ¬ (x.isFinite = true ∧ -2 ^ 63 ≤ truncation x.value ∧ truncation x.value ≤ 2 ^ 63 - 1)
  | left, right => left.kind ≠ right.kind

/-- Two floats of which one is not a number. -/
def Unordered (left right : Value) : Prop :=
  ∃ x y, left = .float x ∧ right = .float y ∧ (x.isNaN = true ∨ y.isNaN = true)

/-- The relations between the values of one constructor are those of a total order. -/
structure Orders {α : Type} (make : α → Value) : Prop where
  total : IsStrictTotalOrder α fun a b => (make a).compares .lt (make b) = .ok true
  converse : ∀ a b, (make a).compares .lt (make b) = (make b).compares .gt (make a)
  equal : ∀ a b, (make a).compares .eq (make b) = .ok true ↔ a = b

end Value

namespace Relation

/-- Of the three relations exactly one holds in an order. -/
theorem existsUnique_holds (order : Ordering) :
    ∃! relation : Relation, relation.holds (some order) = true := by
  cases order with
  | lt => exact ⟨.lt, rfl, fun other holds => by cases other <;> first | rfl | cases holds⟩
  | eq => exact ⟨.eq, rfl, fun other holds => by cases other <;> first | rfl | cases holds⟩
  | gt => exact ⟨.gt, rfl, fun other holds => by cases other <;> first | rfl | cases holds⟩

theorem holds_none (relation : Relation) : relation.holds none = false := by
  cases relation <;> rfl

end Relation

namespace Value

section Pairs

variable {left right : Value}

theorem compares_nil (leftPresent : left ≠ uninitialized) (rightPresent : right ≠ uninitialized)
    (nil : left = .nil ∨ right = .nil) :
    left.compares .eq right = .ok (decide (left = .nil ∧ right = .nil)) ∧
      ∀ relation, relation ≠ .eq →
        left.compares relation right = .error (.mismatch (.unordered left.kind right.kind)) := by
  have present : ¬ (left = uninitialized ∨ right = uninitialized) := by
    rintro (missing | missing)
    · exact leftPresent missing
    · exact rightPresent missing
  constructor
  · simp [compares, present, isNil, nil]
  · intro relation other
    cases relation with
    | eq => exact absurd rfl other
    | lt | gt => simp [compares, present, isNil, nil]

theorem compares_eq_order? (leftPresent : left ≠ uninitialized)
    (rightPresent : right ≠ uninitialized) (leftOther : left ≠ .nil) (rightOther : right ≠ .nil)
    (relation : Relation) :
    left.compares relation right = (left.order? right).map relation.holds := by
  simp [compares, isNil, leftPresent, rightPresent, leftOther, rightOther]

/-- What comes of looking for an order. Whether there is one does not depend on the relation. -/
inductive Ordered (left right : Value) : Except OperationError (Option Ordering) → Prop where
  | never (reason : Mismatch) (incomparable : Incomparable left right) :
      Ordered left right (.error (.mismatch reason))
  | unordered (comparable : ¬ Incomparable left right) (nan : Unordered left right) :
      Ordered left right (.ok none)
  | inOrder (order : Ordering) (comparable : ¬ Incomparable left right)
      (numbers : ¬ Unordered left right) : Ordered left right (.ok (some order))

theorem not_unordered_of_left (other : ∀ x, left ≠ .float x) : ¬ Unordered left right := by
  rintro ⟨x, _, isFloat, _⟩
  exact other x isFloat

theorem not_unordered_of_right (other : ∀ x, right ≠ .float x) : ¬ Unordered left right := by
  rintro ⟨_, x, _, isFloat, _⟩
  exact other x isFloat

theorem ordered_int_float (n : Int64) (x : Binary64) :
    Ordered (int n) (float x) ((int n).order? (float x)) := by
  have numbers : ¬ Unordered (int n) (float x) := not_unordered_of_left nofun
  simp only [order?, Binary64.asInteger]
  cases stands : x.integral? with
  | some m =>
    refine .inOrder _ (fun never => ?_) numbers
    exact never m (Binary64.integral?_eq_some_iff.mp stands)
  | none =>
    refine .never _ fun m isInteger => ?_
    rw [Binary64.integral?_eq_some_iff.mpr isInteger] at stands
    cases stands

theorem ordered_float_int (x : Binary64) (n : Int64) :
    Ordered (float x) (int n) ((float x).order? (int n)) := by
  have numbers : ¬ Unordered (float x) (int n) := not_unordered_of_right nofun
  simp only [order?, Binary64.toInteger]
  cases converted : x.toInt? with
  | some m =>
    refine .inOrder _ (fun never => never ?_) numbers
    exact Binary64.exists_toInteger_iff.mp ⟨m, by rw [Binary64.toInteger, converted]⟩
  | none =>
    refine .never _ fun inRange => ?_
    obtain ⟨m, given⟩ := Binary64.exists_toInteger_iff.mpr inRange
    rw [Binary64.toInteger, converted] at given
    cases given

theorem ordered_float_float (x y : Binary64) :
    Ordered (float x) (float y) ((float x).order? (float y)) := by
  have comparable : ¬ Incomparable (float x) (float y) := fun different => different rfl
  by_cases nan : x.isNaN = true ∨ y.isNaN = true
  · have none : (float x).order? (float y) = .ok none := by simp [order?, Binary64.order?, nan]
    rw [none]
    exact .unordered comparable ⟨x, y, rfl, rfl, nan⟩
  · have some : (float x).order? (float y) = .ok (some (compare x.signedUnits y.signedUnits)) := by
      simp [order?, Binary64.order?, nan]
    rw [some]
    refine .inOrder _ comparable ?_
    rintro ⟨x', y', sameX, sameY, nan'⟩
    rw [← float.inj sameX, ← float.inj sameY] at nan'
    exact nan nan'

theorem ordered_order? (leftPresent : left ≠ uninitialized) (rightPresent : right ≠ uninitialized)
    (leftOther : left ≠ .nil) (rightOther : right ≠ .nil) :
    Ordered left right (left.order? right) := by
  cases left with
  | uninitialized => exact absurd rfl leftPresent
  | nil => exact absurd rfl leftOther
  | int n =>
    cases right with
    | uninitialized => exact absurd rfl rightPresent
    | nil => exact absurd rfl rightOther
    | int m => exact .inOrder _ (fun different => different rfl) (not_unordered_of_left nofun)
    | float x => exact ordered_int_float n x
    | bool _ | string _ => exact .never _ nofun
  | float x =>
    cases right with
    | uninitialized => exact absurd rfl rightPresent
    | nil => exact absurd rfl rightOther
    | float y => exact ordered_float_float x y
    | int n => exact ordered_float_int x n
    | bool _ | string _ => exact .never _ nofun
  | bool p =>
    cases right with
    | uninitialized => exact absurd rfl rightPresent
    | nil => exact absurd rfl rightOther
    | bool q => exact .inOrder _ (fun different => different rfl) (not_unordered_of_left nofun)
    | int _ | float _ | string _ => exact .never _ nofun
  | string s =>
    cases right with
    | uninitialized => exact absurd rfl rightPresent
    | nil => exact absurd rfl rightOther
    | string t => exact .inOrder _ (fun different => different rfl) (not_unordered_of_left nofun)
    | int _ | float _ | bool _ => exact .never _ nofun

/-- The three relations fail together, or succeed together and one of them holds, unless one of
two floats is not a number. -/
theorem compares_uniform (leftPresent : left ≠ uninitialized) (rightPresent : right ≠ uninitialized)
    (leftOther : left ≠ .nil) (rightOther : right ≠ .nil) :
    (Incomparable left right → ∃ reason, ∀ relation,
      left.compares relation right = .error (.mismatch reason)) ∧
    (¬ Incomparable left right → ∃ answer : Relation → Bool,
      (∀ relation, left.compares relation right = .ok (answer relation)) ∧
      (Unordered left right → ∀ relation, answer relation = false) ∧
      (¬ Unordered left right → ∃! relation, answer relation = true)) := by
  have compared := compares_eq_order? leftPresent rightPresent leftOther rightOther
  have ordered := ordered_order? leftPresent rightPresent leftOther rightOther
  generalize left.order? right = result at compared ordered
  cases ordered with
  | never reason incomparable =>
    exact ⟨fun _ => ⟨reason, compared⟩, fun comparable => absurd incomparable comparable⟩
  | unordered comparable nan =>
    refine ⟨fun incomparable => absurd incomparable comparable, fun _ => ⟨_, compared, ?_, ?_⟩⟩
    · exact fun _ => Relation.holds_none
    · exact fun numbers => absurd nan numbers
  | inOrder order comparable numbers =>
    refine ⟨fun incomparable => absurd incomparable comparable, fun _ => ⟨_, compared, ?_, ?_⟩⟩
    · exact fun nan => absurd nan numbers
    · exact fun _ => Relation.existsUnique_holds order

end Pairs

/-! ## Total orders -/

section Keys

variable {α β : Type} [LinearOrder β] {make : α → Value}

/-- Values that compare as their keys do are ordered totally if the keys are. -/
theorem orders_of_key (key : α → β) (order : α → α → Ordering)
    (injective : Function.Injective key)
    (answers : ∀ a b relation,
      (make a).compares relation (make b) = .ok (relation.holds (some (order a b))))
    (ordered : ∀ a b, (order a b).Compares (key a) (key b)) : Orders make := by
  have less (a b : α) : (make a).compares .lt (make b) = .ok true ↔ key a < key b := by
    rw [answers, Except.ok.injEq, ← Ordering.Compares.eq_lt (ordered a b)]
    cases order a b <;> decide
  have greater (a b : α) : (make a).compares .gt (make b) = .ok true ↔ key b < key a := by
    rw [answers, Except.ok.injEq, ← Ordering.Compares.eq_gt (ordered a b)]
    cases order a b <;> decide
  refine ⟨?_, fun a b => ?_, fun a b => ?_⟩
  · let embedding : (fun a b => (make a).compares .lt (make b) = .ok true) ↪r
        ((· < ·) : β → β → Prop) := ⟨⟨key, injective⟩, fun {a b} => (less a b).symm⟩
    exact embedding.isStrictTotalOrder
  · have same := (less a b).trans (greater b a).symm
    rw [answers, answers, Except.ok.injEq, Except.ok.injEq] at same
    rw [answers, answers, Bool.eq_iff_iff.mpr same]
  · rw [answers, Except.ok.injEq, ← injective.eq_iff, ← Ordering.Compares.eq_eq (ordered a b)]
    cases order a b <;> decide

theorem orders_int : Orders int :=
  orders_of_key Int64.toInt (fun a b => compare a.toInt b.toInt)
    (fun _ _ => Int64.toInt_inj.mp) (fun _ _ _ => rfl) fun _ _ => (compare_iff _ _).mp rfl

theorem orders_bool : Orders bool :=
  orders_of_key Bool.toNat (fun a b => compare a.toNat b.toNat)
    (by decide) (fun _ _ _ => rfl) fun _ _ => (compare_iff _ _).mp rfl

theorem orders_string : Orders string :=
  orders_of_key (List.map Char.toNat) Text.order
    (List.map_injective_iff.mpr fun _ _ => Char.toNat_inj.mp) (fun _ _ _ => rfl)
    Text.order_compares

theorem compares_string_lt (s t : Text) :
    (string s).compares .lt (string t) = .ok true ↔ Text.order s t = .lt := by
  have compared : (string s).compares .lt (string t) =
      .ok (Relation.lt.holds (some (Text.order s t))) := rfl
  rw [compared, Except.ok.injEq]
  cases Text.order s t <;> decide

end Keys

end Value

/-- The opcode that asks whether a relation holds. -/
def Relation.opcode : Relation → Opcode
  | lt => .lt
  | gt => .gt
  | eq => .eq

theorem Machine.Supplies.yields_relation {machine : Machine} {target left right : Operand}
    {a b : Value} (supplies : machine.Supplies target [left, right] [a, b]) (relation : Relation) :
    machine.Yields relation.opcode target [left, right]
      (((a.compares relation b).mapError OperationError.fault).map Value.bool) := by
  have computed : (Action.relation relation).outcome [a, b] =
      (orError (((a.compares relation b).mapError OperationError.fault).map Value.bool)).map
        Outcome.assign := by
    simp only [Action.outcome, onTwo]
    exact assign_of_operation (a.compares relation b) Value.bool
  cases relation with
  | lt | gt | eq => exact supplies.yields (by decide) rfl computed

/-- Between two values that are not missing, LT, GT and EQ come to what their comparison does.
Nil is equal to nil alone and has no order. Two other values are incomparable, and then all
relations fail for the same reason, or exactly one of the relations holds, or none because a float
is not a number. Integers, truth values and texts are ordered totally, and texts by
their code points, which is the order of their bytes. -/
theorem comparison_is_consistent_order {a b : Value} (leftPresent : a ≠ .uninitialized)
    (rightPresent : b ≠ .uninitialized) :
    ((a = .nil ∨ b = .nil) →
      a.compares .eq b = .ok (decide (a = .nil ∧ b = .nil)) ∧
      ∀ relation, relation ≠ .eq →
        ∃ reason, a.compares relation b = .error (.mismatch reason)) ∧
    (a ≠ .nil → b ≠ .nil →
      (a.Incomparable b → ∃ reason, ∀ relation,
        a.compares relation b = .error (.mismatch reason)) ∧
      (¬ a.Incomparable b → ∃ answer : Relation → Bool,
        (∀ relation, a.compares relation b = .ok (answer relation)) ∧
        (a.Unordered b → ∀ relation, answer relation = false) ∧
        (¬ a.Unordered b → ∃! relation, answer relation = true))) ∧
    (Value.Orders Value.int ∧ Value.Orders Value.bool ∧ Value.Orders Value.string) ∧
    (∀ s t, a = .string s → b = .string t →
      (a.compares .lt b = .ok true ↔
        List.Lex (· < ·) (s.map Char.toNat) (t.map Char.toNat)) ∧
      (a.compares .lt b = .ok true ↔ List.Lex (· < ·) (Text.utf8 s) (Text.utf8 t))) ∧
    ∀ (relation : Relation) (machine : Machine) (target left right : Operand),
      machine.Supplies target [left, right] [a, b] →
      machine.Yields relation.opcode target [left, right]
        (((a.compares relation b).mapError OperationError.fault).map Value.bool) := by
  refine ⟨fun nil => ?_, fun leftOther rightOther => ?_, ?_, ?_, ?_⟩
  · obtain ⟨equal, others⟩ := Value.compares_nil leftPresent rightPresent nil
    exact ⟨equal, fun relation other => ⟨_, others relation other⟩⟩
  · exact Value.compares_uniform leftPresent rightPresent leftOther rightOther
  · exact ⟨Value.orders_int, Value.orders_bool, Value.orders_string⟩
  · rintro s t rfl rfl
    rw [Value.compares_string_lt]
    exact ⟨Text.order_eq_lt_iff, Text.lex_utf8_iff.symm⟩
  · exact fun relation machine target left right supplies => supplies.yields_relation relation

/-- Two and a half, with the fraction in one bit. -/
def twoAndHalf : Binary64 := .ofBits 0x4004000000000000

/-- No relation between three and two and a half has an answer, and exactly one of those between
two and a half and two holds. -/
theorem fraction_compares_on_the_left :
    (∃ reason, ∀ relation,
      (Value.int 3).compares relation (.float twoAndHalf) = .error (.mismatch reason)) ∧
    ∃ answer : Relation → Bool,
      (∀ relation, (Value.float twoAndHalf).compares relation (.int 2) = .ok (answer relation)) ∧
      (∃! relation, answer relation = true) ∧ answer .eq = true := by
  have fraction : twoAndHalf.integral? = none := by decide +kernel
  have never : (Value.int 3).Incomparable (.float twoAndHalf) := fun n isInteger => by
    rw [Binary64.integral?_eq_some_iff.mpr isInteger] at fraction
    cases fraction
  have converts : ¬ (Value.float twoAndHalf).Incomparable (.int 2) := fun outside =>
    outside (Binary64.exists_toInteger_iff.mp ⟨2, by decide +kernel⟩)
  have right :=
    (comparison_is_consistent_order (a := .int 3) (b := .float twoAndHalf) nofun nofun).2.1
  have left :=
    (comparison_is_consistent_order (a := .float twoAndHalf) (b := .int 2) nofun nofun).2.1
  obtain ⟨answer, compared, _, exactly⟩ := (left nofun nofun).2 converts
  refine ⟨(right nofun nofun).1 never, answer, compared, ?_, ?_⟩
  · exact exactly (Value.not_unordered_of_right nofun)
  · have equal : (Value.float twoAndHalf).compares .eq (.int 2) = .ok true := by decide +kernel
    rw [compared] at equal
    exact Except.ok.inj equal

end IPPcode24
