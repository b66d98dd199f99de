import IPPcode24.Machine.Step
import IPPcode24.Proofs.ExactRounding
import IPPcode24.Proofs.Targets
import IPPcode24.Proofs.Variables

/-!
# Equality

Six instructions ask whether two symbols are equal: two store the answer and four jump
on it. All but EQS compare the symbols in the order in which they are written. The order
makes no difference, unless an integer is compared with a float that has a fractional
part: on the right the float is refused, and on the left it loses its fraction.
-/

namespace IPPcode24

/-! ## Exchanged sides -/

theorem Text.order_swap (left right : Text) : (order left right).swap = order right left := by
  induction left generalizing right with
  | nil => cases right <;> rfl
  | cons a as ih =>
    cases right with
    | nil => rfl
    | cons b bs => rw [order, order, Ordering.swap_then, ih, Nat.compare_swap]

namespace Binary64

theorem order?_swap (x y : Binary64) : (x.order? y).map Ordering.swap = y.order? x := by
  rw [order?, order?, Bool.or_comm]
  split
  · rfl
  · rw [Option.map_some, Int.compare_swap]

/-- The number is finite and has a fractional part. -/
def IsFraction (x : Binary64) : Prop := x.isFinite = true ∧ x.isWhole = false

theorem pow_scale_le_of_isFraction {x : Binary64} (fraction : x.IsFraction) :
    Nat.pow 2 x.scale ≤ unitsOfOne := by
  obtain ⟨finite, notWhole⟩ := fraction
  obtain ⟨one, _, unit⟩ := unitsOfOne_eq
  rw [unit]
  refine Nat.pow_le_pow_right Nat.two_pos (Nat.le_of_not_le fun large => ?_)
  have power : unitsOfOne ∣ Nat.pow 2 x.scale := unit ▸ Nat.pow_dvd_pow 2 large
  have whole : x.units % unitsOfOne = 0 :=
    Nat.mod_eq_zero_of_dvd (Nat.dvd_mul_left_of_dvd power x.significand)
  simp [isWhole, finite, whole] at notWhole

/-- The integer part of a number with a fractional part is in the range of 64-bit
integers. -/
theorem exists_toInt?_of_isFraction {x : Binary64} (fraction : x.IsFraction) :
    ∃ n, x.toInt? = some n := by
  have small : x.units < 0x20000000000000 * unitsOfOne :=
    Nat.mul_lt_mul_of_lt_of_le x.significand_lt (pow_scale_le_of_isFraction fraction)
      unitsOfOne_pos
  have bounds : -(0x8000000000000000 * (unitsOfOne : Int)) ≤ x.signedUnits ∧
      x.signedUnits < 0x8000000000000000 * (unitsOfOne : Int) := by
    rw [signedUnits]
    split <;> constructor <;> omega
  refine ⟨Int64.ofInt x.truncated, ?_⟩
  rw [toInt?, fraction.1]
  simp only [bounds, decide_true, Bool.and_self, if_true]

theorem integral?_of_isFraction {x : Binary64} (fraction : x.IsFraction) : x.integral? = none := by
  simp [integral?, fraction.2]

/-- A number without a fractional part, and one that is not finite, is the integer that it
is truncated to. -/
theorem integral?_eq_toInt? {x : Binary64} (notFraction : ¬ x.IsFraction) :
    x.integral? = x.toInt? := by
  rw [integral?]
  split
  · rfl
  · rename_i notWhole
    have infinite : x.isFinite = false := by
      simpa [IsFraction, notWhole] using notFraction
    rw [toInt?, infinite]
    rfl

end Binary64

theorem Relation.holds_eq_swap (order? : Option Ordering) :
    Relation.eq.holds (order?.map Ordering.swap) = Relation.eq.holds order? := by
  cases order? with
  | none => rfl
  | some order => cases order <;> rfl

theorem Relation.holds_eq_compare (n m : Int64) :
    Relation.eq.holds (some (compare n.toInt m.toInt)) = decide (n = m) := by
  have same : compare n.toInt m.toInt = .eq ↔ n = m := by
    rw [Int.compare_eq_eq, Int64.toInt_inj]
  by_cases equal : n = m
  · rw [same.mpr equal, decide_eq_true equal]
    rfl
  · rw [decide_eq_false equal]
    cases order : compare n.toInt m.toInt with
    | eq => exact absurd (same.mp order) equal
    | lt | gt => rfl

/-- One of two values is an integer, and the other a float with a fractional part. -/
def MixedFraction (a b : Value) : Prop :=
  ∃ n x, x.IsFraction ∧ (a = .int n ∧ b = .float x ∨ a = .float x ∧ b = .int n)

namespace Value

/-- Whether two values are equal, if they compare. -/
def equals? (left right : Value) : Option Bool := (left.compares .eq right).toOption

theorem compares_int (n m : Int64) : (int n).compares .eq (int m) = .ok (decide (n = m)) :=
  congrArg Except.ok (Relation.holds_eq_compare n m)

theorem compares_int_float (n : Int64) (x : Binary64) :
    (int n).compares .eq (float x) = x.asInteger.map fun m => decide (n = m) := by
  change Except.map Relation.eq.holds
    (x.asInteger >>= fun m => .ok (some (compare n.toInt m.toInt))) = _
  cases x.asInteger with
  | error error => rfl
  | ok m => exact congrArg Except.ok (Relation.holds_eq_compare n m)

theorem compares_float_int (n : Int64) (x : Binary64) :
    (float x).compares .eq (int n) = x.toInteger.map fun m => decide (m = n) := by
  change Except.map Relation.eq.holds
    (x.toInteger >>= fun m => .ok (some (compare m.toInt n.toInt))) = _
  cases x.toInteger with
  | error error => rfl
  | ok m => exact congrArg Except.ok (Relation.holds_eq_compare m n)

theorem equals?_int_float (n : Int64) (x : Binary64) :
    (int n).equals? (float x) = x.integral?.map fun m => decide (n = m) := by
  rw [equals?, compares_int_float, Binary64.asInteger]
  cases x.integral? <;> rfl

theorem equals?_float_int (n : Int64) (x : Binary64) :
    (float x).equals? (int n) = x.toInt?.map fun m => decide (m = n) := by
  rw [equals?, compares_float_int, Binary64.toInteger]
  cases x.toInt? <;> rfl

theorem equals?_int_float_comm {n : Int64} {x : Binary64} (notFraction : ¬ x.IsFraction) :
    (int n).equals? (float x) = (float x).equals? (int n) := by
  rw [equals?_int_float, equals?_float_int, Binary64.integral?_eq_toInt? notFraction]
  simp only [eq_comm]

/-- When an integer meets a float with a fractional part, only the float on the left
compares. -/
theorem isSome_equals?_of_mixed {a b : Value} (mixed : MixedFraction a b) :
    (a.equals? b).isSome ≠ (b.equals? a).isSome := by
  obtain ⟨n, x, fraction, sides⟩ := mixed
  obtain ⟨m, truncated⟩ := Binary64.exists_toInt?_of_isFraction fraction
  have right : (int n).equals? (float x) = none := by
    rw [equals?_int_float, Binary64.integral?_of_isFraction fraction]
    rfl
  have left : (float x).equals? (int n) = some (decide (m = n)) := by
    rw [equals?_float_int, truncated]
    rfl
  rcases sides with ⟨rfl, rfl⟩ | ⟨rfl, rfl⟩
  · rw [left, right]
    exact nofun
  · rw [left, right]
    exact nofun

/-- Exchanging the sides changes whether two values are equal only if an integer meets a
float with a fractional part. -/
theorem equals?_comm_iff {a b : Value} : a.equals? b = b.equals? a ↔ ¬ MixedFraction a b := by
  constructor
  · exact fun same mixed => isSome_equals?_of_mixed mixed (congrArg Option.isSome same)
  · intro unmixed
    have ofOrder {left right : Option Ordering} (swapped : left.map Ordering.swap = right) :
        some (Relation.eq.holds left) = some (Relation.eq.holds right) := by
      rw [← swapped, Relation.holds_eq_swap]
    cases a with
    | uninitialized => cases b <;> rfl
    | nil => cases b <;> rfl
    | int n =>
      cases b with
      | int m => exact ofOrder (congrArg some (Int.compare_swap ..))
      | float x =>
        exact equals?_int_float_comm fun fraction => unmixed ⟨n, x, fraction, .inl ⟨rfl, rfl⟩⟩
      | bool _ | string _ | nil | uninitialized => rfl
    | float x =>
      cases b with
      | float y => exact ofOrder (x.order?_swap y)
      | int n =>
        exact (equals?_int_float_comm fun fraction =>
          unmixed ⟨n, x, fraction, .inr ⟨rfl, rfl⟩⟩).symm
      | bool _ | string _ | nil | uninitialized => rfl
    | bool p =>
      cases b with
      | bool q => exact ofOrder (congrArg some (Nat.compare_swap ..))
      | int _ | float _ | string _ | nil | uninitialized => rfl
    | string s =>
      cases b with
      | string t => exact ofOrder (congrArg some (Text.order_swap s t))
      | int _ | float _ | bool _ | nil | uninitialized => rfl

end Value

/-! ## Questions -/

/-- The opcodes that ask whether two symbols are equal. -/
def Opcode.equalities : List Opcode := [.eq, .eqs, .jumpIfEq, .jumpIfEqs, .jumpIfNeq, .jumpIfNeqs]

theorem Opcode.mem_equalities {opcode : Opcode} :
    opcode ∈ equalities ↔ opcode = .eq ∨ opcode = .eqs ∨ opcode = .jumpIfEq ∨
      opcode = .jumpIfEqs ∨ opcode = .jumpIfNeq ∨ opcode = .jumpIfNeqs := by
  simp [equalities]

/-- Two symbols to compare, a variable for the answer, and a label to jump to. -/
structure Question where
  target : Operand
  label : Operand
  left : Operand
  right : Operand

namespace Question

def operands (question : Question) (opcode : Opcode) : List Operand :=
  if opcode = .eq ∨ opcode = .eqs then [question.target, question.left, question.right]
  else [question.label, question.left, question.right]

def asked (question : Question) (machine : Machine) (labels : LabelTable) (opcode : Opcode) :
    Performed :=
  machine.execute labels opcode (question.operands opcode)

/-- The variable is declared, the label exists, and the symbols have values. -/
structure Ready (question : Question) (machine : Machine) (labels : LabelTable)
    (a b : Value) : Prop where
  isVar : question.target.operandClass = .var
  declared : ∃ content, machine.frames.content question.target = .ok content
  isLabel : question.label.operandClass = .label
  resolved : ∃ place, labels.target question.label = .ok place
  left : machine.frames.value question.left = .ok a
  right : machine.frames.value question.right = .ok b

/-- The answer is stored in the variable, and the run goes on. -/
def Stores (question : Question) (machine : Machine) (answer : Bool) (performed : Performed) :
    Prop :=
  ∃ ref frames, Variable.ofSource? question.target.text = some ref ∧
    machine.frames.set ref (.bool answer) = .ok frames ∧
    performed = ⟨{ machine with frames }, [], .ok .next⟩

def Goes (question : Question) (machine : Machine) (labels : LabelTable) (jumps : Bool)
    (performed : Performed) : Prop :=
  ∃ place, labels.resolve? question.label.text = some place ∧
    performed = ⟨machine, [], .ok (if jumps then .jump place else .next)⟩

/-- What is done about an answer depends on the opcode: it is stored, or the run jumps on it
or on its opposite. -/
def Obeys (question : Question) (machine : Machine) (labels : LabelTable) (opcode : Opcode)
    (answer : Bool) (performed : Performed) : Prop :=
  match opcode with
  | .eq | .eqs => question.Stores machine answer performed
  | .jumpIfEq | .jumpIfEqs => question.Goes machine labels answer performed
  | .jumpIfNeq | .jumpIfNeqs => question.Goes machine labels (!answer) performed
  | _ => False

/-- The answer that a machine gives when it is asked with an opcode; it fails without one. -/
def Decides (question : Question) (machine : Machine) (labels : LabelTable) (opcode : Opcode) :
    Option Bool → Prop
  | some answer =>
    question.Obeys machine labels opcode answer (question.asked machine labels opcode)
  | none => ∃ fault, question.asked machine labels opcode = machine.refuse fault

section Answers

variable {question : Question} {machine : Machine} {labels : LabelTable} {opcode : Opcode}
  {a b : Value}

theorem Ready.checked (ready : question.Ready machine labels a b)
    (member : opcode ∈ Opcode.equalities) :
    checkOperands opcode (question.operands opcode) = .ok () := by
  have symbols : Fill [.symbol, .symbol] [question.left, question.right] :=
    fill_cons.mpr ⟨isSymbol_of_value ready.left,
      fill_cons.mpr ⟨isSymbol_of_value ready.right, Fill.nil []⟩⟩
  have stores : Fill [.var, .symbol, .symbol] [question.target, question.left, question.right] :=
    fill_cons.mpr ⟨decide_eq_true ready.isVar, symbols⟩
  have jumps : Fill [.label, .symbol, .symbol] [question.label, question.left, question.right] :=
    fill_cons.mpr ⟨decide_eq_true ready.isLabel, symbols⟩
  rw [checkOperands_eq_ok]
  rcases Opcode.mem_equalities.mp member with rfl | rfl | rfl | rfl | rfl | rfl
  · exact ⟨Nat.le_refl 3, stores⟩
  · exact ⟨Nat.le_refl 3, stores⟩
  all_goals exact ⟨Nat.le_refl 3, jumps⟩

theorem Ready.valuesOfPair_eq (ready : question.Ready machine labels a b) (order : SymbolOrder)
    (first : Operand) :
    valuesOfPair machine.frames order [first, question.left, question.right] =
      .ok (order.arrange a b) := by
  cases order <;>
  simp [IPPcode24.valuesOfPair_eq, SymbolOrder.arrange, ready.left, ready.right]

def answered (left right : Value) : Attempt Bool :=
  orError ((left.compares .eq right).mapError OperationError.fault)

theorem Ready.plan_relation (ready : question.Ready machine labels a b) (order : SymbolOrder) :
    ∃ ref, (Action.relation .eq).plan labels machine.frames order
          [question.target, question.left, question.right] =
        (do let answer ← answered (order.arrange a b).1 (order.arrange a b).2
            return .assign ref (.bool answer)) ∧
      ∀ answer, question.Stores machine answer (machine.perform (.assign ref (.bool answer))) := by
  obtain ⟨content, found⟩ := ready.declared
  rw [Frames.content, if_pos ready.isVar] at found
  obtain ⟨ref, named, found⟩ := Chain.bind_eq_ok.mp found
  refine ⟨ref, ?_, fun answer => ?_⟩
  · simp only [Action.plan, ready.valuesOfPair_eq, assignFirst, operandAt_zero, named,
      Chain.bind_ok]
    rfl
  · have held := Chain.mapError_eq_ok.mp (orError_eq_ok.mp found)
    obtain ⟨frames, stored⟩ := Frames.exists_set_of_get held (.bool answer)
    refine ⟨ref, frames, reference_eq_ok named, stored, ?_⟩
    rw [Machine.perform, stored]
    rfl

theorem Ready.plan_jumpIf (ready : question.Ready machine labels a b) (equal : Bool) :
    ∃ place, (Action.jumpIf equal).plan labels machine.frames .written
          [question.label, question.left, question.right] =
        (do let answer ← answered a b
            return if answer = equal then .jump place else .pass) ∧
      ∀ answer, question.Goes machine labels (if equal then answer else !answer)
        (machine.perform (if answer = equal then .jump place else .pass)) := by
  obtain ⟨place, found⟩ := ready.resolved
  refine ⟨place, ?_, fun answer => ⟨place, target_eq_ok found, ?_⟩⟩
  · simp only [Action.plan, ready.valuesOfPair_eq, operandAt_zero, found, Chain.bind_ok]
    rfl
  · cases equal <;> cases answer <;> rfl

/-- Every one of the opcodes compares its sides and obeys the answer. -/
theorem Ready.exists_plan (ready : question.Ready machine labels a b)
    (member : opcode ∈ Opcode.equalities) :
    ∃ aim : Bool → Effect, opcode.plan labels machine.frames (question.operands opcode) =
        (do let answer ← answered (opcode.symbolOrder.arrange a b).1
              (opcode.symbolOrder.arrange a b).2
            return aim answer) ∧
      ∀ answer, question.Obeys machine labels opcode answer (machine.perform (aim answer)) := by
  rw [Opcode.plan_of_checked (ready.checked member)]
  rcases Opcode.mem_equalities.mp member with rfl | rfl | rfl | rfl | rfl | rfl
  · obtain ⟨ref, planned, stores⟩ := ready.plan_relation .written
    exact ⟨_, planned, stores⟩
  · obtain ⟨ref, planned, stores⟩ := ready.plan_relation .reversed
    exact ⟨_, planned, stores⟩
  · obtain ⟨place, planned, goes⟩ := ready.plan_jumpIf true
    exact ⟨_, planned, goes⟩
  · obtain ⟨place, planned, goes⟩ := ready.plan_jumpIf true
    exact ⟨_, planned, goes⟩
  · obtain ⟨place, planned, goes⟩ := ready.plan_jumpIf false
    exact ⟨_, planned, goes⟩
  · obtain ⟨place, planned, goes⟩ := ready.plan_jumpIf false
    exact ⟨_, planned, goes⟩

theorem Ready.asked_of_error (ready : question.Ready machine labels a b)
    (member : opcode ∈ Opcode.equalities) {error : OperationError}
    (failed : (opcode.symbolOrder.arrange a b).1.compares .eq (opcode.symbolOrder.arrange a b).2 =
      .error error) :
    question.asked machine labels opcode = machine.refuse error.fault := by
  obtain ⟨aim, planned, _⟩ := ready.exists_plan member
  rw [asked, Machine.execute, planned, answered, failed]
  rfl

/-- Every one of the opcodes gives the answer of its sides, the exchanged ones for EQS. -/
theorem Ready.decides (ready : question.Ready machine labels a b)
    (member : opcode ∈ Opcode.equalities) :
    question.Decides machine labels opcode
      ((opcode.symbolOrder.arrange a b).1.equals? (opcode.symbolOrder.arrange a b).2) := by
  rw [Value.equals?]
  cases compared : (opcode.symbolOrder.arrange a b).1.compares .eq
      (opcode.symbolOrder.arrange a b).2 with
  | error error => exact ⟨error.fault, ready.asked_of_error member compared⟩
  | ok answer =>
    obtain ⟨aim, planned, obeys⟩ := ready.exists_plan member
    have done : question.asked machine labels opcode = machine.perform (aim answer) := by
      rw [asked, Machine.execute, planned, answered, compared]
      rfl
    rw [Except.toOption, Decides, done]
    exact obeys answer

theorem Obeys.flow_eq_ok {answer : Bool} {performed : Performed}
    (obeys : question.Obeys machine labels opcode answer performed) :
    ∃ flow, performed.flow = .ok flow := by
  unfold Obeys at obeys
  split at obeys
  case h_1 | h_2 =>
    obtain ⟨ref, frames, _, _, rfl⟩ := obeys
    exact ⟨.next, rfl⟩
  case h_7 => exact obeys.elim
  all_goals
    obtain ⟨place, _, rfl⟩ := obeys
    exact ⟨_, rfl⟩

theorem Decides.isSome_iff {answer? : Option Bool}
    (decides : question.Decides machine labels opcode answer?) :
    answer?.isSome = true ↔ ∃ flow, (question.asked machine labels opcode).flow = .ok flow := by
  cases answer? with
  | some answer => exact ⟨fun _ => Obeys.flow_eq_ok decides, fun _ => rfl⟩
  | none =>
    obtain ⟨fault, refused⟩ := decides
    rw [refused]
    exact ⟨nofun, nofun⟩

theorem symbolOrder_of_mem (member : opcode ∈ Opcode.equalities) (other : opcode ≠ .eqs) :
    opcode.symbolOrder = .written := by
  rcases Opcode.mem_equalities.mp member with rfl | rfl | rfl | rfl | rfl | rfl
  · rfl
  · exact absurd rfl other
  all_goals rfl

end Answers

end Question

/-- On any machine that has values for the symbols, the variable and the label, all opcodes
but EQS give the same answer. EQS gives it too, unless an integer meets a float with a
fractional part. Then the opcodes that have the float on the right fail, and those that have
it on the left compare its integer part. -/
theorem equality_agrees_iff {question : Question} {machine : Machine} {labels : LabelTable}
    {a b : Value} (ready : question.Ready machine labels a b) :
    (∃ answer?, ∀ opcode ∈ Opcode.equalities, opcode ≠ .eqs →
      question.Decides machine labels opcode answer?) ∧
    ((∃ answer?, ∀ opcode ∈ Opcode.equalities, question.Decides machine labels opcode answer?) ↔
      ¬ MixedFraction a b) ∧
    ∀ n x, x.IsFraction → ∃ m, x.toInt? = some m ∧ ∀ opcode ∈ Opcode.equalities,
      (opcode.symbolOrder.arrange a b = (.int n, .float x) →
        question.asked machine labels opcode =
          machine.refuse (.operandValue (.mismatch (.fractional x)))) ∧
      (opcode.symbolOrder.arrange a b = (.float x, .int n) →
        question.Decides machine labels opcode (some (decide (m = n)))) := by
  have written (opcode : Opcode) (member : opcode ∈ Opcode.equalities) (other : opcode ≠ .eqs) :
      question.Decides machine labels opcode (a.equals? b) := by
    have decides := ready.decides member
    rwa [Question.symbolOrder_of_mem member other] at decides
  have reversed : question.Decides machine labels .eqs (b.equals? a) := ready.decides (by decide)
  refine ⟨⟨a.equals? b, written⟩, ⟨?_, fun unmixed => ?_⟩, fun n x fraction => ?_⟩
  · rintro ⟨answer?, decides⟩ mixed
    have eq : (a.equals? b).isSome = answer?.isSome := by
      rw [Bool.eq_iff_iff, (written .eq (by decide) (by decide)).isSome_iff,
        (decides .eq (by decide)).isSome_iff]
    have eqs : (b.equals? a).isSome = answer?.isSome := by
      rw [Bool.eq_iff_iff, reversed.isSome_iff, (decides .eqs (by decide)).isSome_iff]
    exact Value.isSome_equals?_of_mixed mixed (eq.trans eqs.symm)
  · rw [← Value.equals?_comm_iff] at unmixed
    refine ⟨a.equals? b, fun opcode member => ?_⟩
    by_cases isEqs : opcode = .eqs
    · rw [isEqs, unmixed]
      exact reversed
    · exact written opcode member isEqs
  · obtain ⟨m, truncated⟩ := Binary64.exists_toInt?_of_isFraction fraction
    refine ⟨m, truncated, fun opcode member => ⟨fun sides => ?_, fun sides => ?_⟩⟩
    · have failed : (opcode.symbolOrder.arrange a b).1.compares .eq
          (opcode.symbolOrder.arrange a b).2 = .error (.mismatch (.fractional x)) := by
        rw [sides, Value.compares_int_float, Binary64.asInteger,
          Binary64.integral?_of_isFraction fraction]
        rfl
      exact ready.asked_of_error member failed
    · have decides := ready.decides member
      rw [sides, Value.equals?_float_int, truncated] at decides
      exact decides

/-- A machine with a variable to store an answer in and one that holds the float two. -/
def holdsTwo : Machine :=
  ⟨⟨[(['x'], .uninitialized), (['y'], .float (Binary64.ofInt 2))], none, []⟩, [], 0, 0, ⟨[]⟩,
    .unbounded⟩

def singleLabel : LabelTable := [("end".toList, 7)]

def isTwo (symbol : Operand) : Question :=
  ⟨⟨.var, "GF@x".toList⟩, ⟨.label, "end".toList⟩, ⟨.literal .int, ['2']⟩, symbol⟩

/-- A float without a fractional part compares in both orders, and all opcodes agree. -/
theorem whole_float_equality_agrees :
    (isTwo ⟨.var, "GF@y".toList⟩).Ready holdsTwo singleLabel (.int 2)
        (.float (Binary64.ofInt 2)) ∧
      ∃ answer?, ∀ opcode ∈ Opcode.equalities,
        (isTwo ⟨.var, "GF@y".toList⟩).Decides holdsTwo singleLabel opcode answer? := by
  have ready : (isTwo ⟨.var, "GF@y".toList⟩).Ready holdsTwo singleLabel (.int 2)
      (.float (Binary64.ofInt 2)) :=
    ⟨rfl, ⟨.uninitialized, by decide +kernel⟩, rfl, ⟨7, by decide +kernel⟩, by decide +kernel,
      by decide +kernel⟩
  have whole : (Binary64.ofInt 2).isWhole = true := by decide +kernel
  refine ⟨ready, (equality_agrees_iff ready).2.1.mpr ?_⟩
  rintro ⟨n, x, fraction, ⟨_, isFloat⟩ | ⟨isFloat, _⟩⟩
  · rw [Value.float.inj isFloat, fraction.2] at whole
    cases whole
  · cases isFloat

/-- The opcodes do not agree whether the integer two equals two and a half: EQ fails, and
EQS stores an answer. -/
theorem fraction_equality_disagrees :
    (isTwo ⟨.literal .float, "2.5".toList⟩).Ready holdsTwo singleLabel (.int 2)
        (.float (Binary64.ofBits 0x4004000000000000)) ∧
      ¬ ∃ answer?, ∀ opcode ∈ Opcode.equalities,
        (isTwo ⟨.literal .float, "2.5".toList⟩).Decides holdsTwo singleLabel opcode answer? := by
  let question : Question := isTwo ⟨.literal .float, "2.5".toList⟩
  refine ⟨⟨rfl, ⟨.uninitialized, by decide +kernel⟩, rfl, ⟨7, by decide +kernel⟩,
    by decide +kernel, by decide +kernel⟩, ?_⟩
  rintro ⟨answer?, decides⟩
  have fails : (question.asked holdsTwo singleLabel .eq).flow.toBool = false := by decide +kernel
  have stores : (question.asked holdsTwo singleLabel .eqs).flow = .ok .next := by decide +kernel
  have given := (decides .eqs (by decide)).isSome_iff.mpr ⟨_, stores⟩
  obtain ⟨flow, succeeded⟩ := (decides .eq (by decide)).isSome_iff.mp given
  rw [succeeded] at fails
  cases fails

end IPPcode24
