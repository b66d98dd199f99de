import IPPcode24.Proofs.Complaints
import IPPcode24.Proofs.Outcomes

/-!
# Obstacles to a plan

An instruction with a known opcode is kept from having an effect by one of a few
obstacles: too few operands, an operand of a wrong class, a label that does not
exist, an argument that stands for nothing, a complaint of the action about its
values, or a target that names no variable. An operand that the instruction does
not have is never asked for.
-/

namespace IPPcode24

/-! ## Operand classes -/

/-- Every operand that has a slot may fill it. -/
def Fill (slots : List Slot) (operands : List Operand) : Prop :=
  ∀ (index : Nat) (slot : Slot) (operand : Operand), slots[index]? = some slot →
    operands[index]? = some operand → slot.accepts operand.operandClass = true

theorem Fill.nil (operands : List Operand) : Fill [] operands := nofun

theorem fill_cons {slot : Slot} {slots : List Slot} {operand : Operand} {operands : List Operand} :
    Fill (slot :: slots) (operand :: operands) ↔
      slot.accepts operand.operandClass = true ∧ Fill slots operands := by
  constructor
  · exact fun fill => ⟨fill 0 slot operand rfl rfl, fun index => fill (index + 1)⟩
  · rintro ⟨accepted, others⟩ index slot' operand' hslot hoperand
    cases index with
    | zero =>
      cases hslot
      cases hoperand
      exact accepted
    | succ index => exact others index slot' operand' hslot hoperand

theorem checkClass_eq_ok {slot : Slot} {position : Nat} {operandClass : OperandClass} :
    checkClass slot position operandClass = .ok () ↔ slot.accepts operandClass = true := by
  rw [checkClass]
  split <;> simp [*]

theorem checkClass_eq_error {slot : Slot} {position : Nat} {operandClass : OperandClass}
    {fault : Fault} :
    checkClass slot position operandClass = .error fault ↔
      slot.accepts operandClass = false ∧ fault = .operandClass position slot operandClass := by
  rw [checkClass]
  split <;> simp [*, eq_comm]

theorem checkClasses_eq_ok {position : Nat} {slots : List Slot} {operands : List Operand} :
    checkClasses position slots operands = .ok () ↔ Fill slots operands := by
  induction slots generalizing position operands with
  | nil => simp [checkClasses, Fill]
  | cons slot slots ih =>
    cases operands with
    | nil => simp [checkClasses, Fill]
    | cons operand operands =>
      rw [checkClasses, Chain.bind_eq_ok, fill_cons, ← checkClass_eq_ok, ← ih]
      exact ⟨fun ⟨_, accepted, others⟩ => ⟨accepted, others⟩,
        fun ⟨accepted, others⟩ => ⟨(), accepted, others⟩⟩

theorem checkClasses_eq_error {position : Nat} {slots : List Slot} {operands : List Operand}
    {fault : Fault} (failed : checkClasses position slots operands = .error fault) :
    ∃ index slot operand, slots[index]? = some slot ∧ operands[index]? = some operand ∧
      slot.accepts operand.operandClass = false ∧
      fault = .operandClass (position + index) slot operand.operandClass := by
  induction slots generalizing position operands with
  | nil => simp [checkClasses] at failed
  | cons slot slots ih =>
    cases operands with
    | nil => simp [checkClasses] at failed
    | cons operand operands =>
      rw [checkClasses] at failed
      rcases Chain.bind_eq_error.mp failed with refused | ⟨_, _, failed⟩
      · obtain ⟨notAccepted, rfl⟩ := checkClass_eq_error.mp refused
        exact ⟨0, slot, operand, rfl, rfl, notAccepted, rfl⟩
      · obtain ⟨index, slot', operand', hslot, hoperand, refused, rfl⟩ := ih failed
        exact ⟨index + 1, slot', operand', hslot, hoperand, refused, by congr 1; omega⟩

theorem checkOperands_eq_ok {opcode : Opcode} {operands : List Operand} :
    checkOperands opcode operands = .ok () ↔
      opcode.signature.length ≤ operands.length ∧ Fill opcode.signature operands := by
  rw [checkOperands]
  split
  · rename_i few
    simp only [reduceCtorEq, false_iff, not_and]
    omega
  · rename_i notFew
    rw [checkClasses_eq_ok]
    exact ⟨fun accepted => ⟨by omega, accepted⟩, fun accepted => accepted.2⟩

theorem Opcode.plan_of_checked {opcode : Opcode} {operands : List Operand}
    (checked : checkOperands opcode operands = .ok ()) (labels : LabelTable) (frames : Frames) :
    opcode.plan labels frames operands =
      opcode.action.plan labels frames opcode.symbolOrder operands := by
  rw [plan, checked, orError_ok, Chain.bind_ok]

theorem isSymbol_of_accepts {slot : Slot} {operandClass : OperandClass}
    (looked : slot = .var ∨ slot = .symbol) (accepted : slot.accepts operandClass = true) :
    operandClass.isSymbol = true := by
  rcases looked with rfl | rfl
  · simp_all [Slot.accepts, OperandClass.isSymbol]
  · exact accepted

namespace Action

variable {action : Action} {order : SymbolOrder} {operands : List Operand} {operand : Operand}

/-- Every argument has a position that is a symbol slot or a variable slot of the
signature; only READ looks at a type, and only a reversed negation looks past its
signature. -/
theorem slot_of_mem_positions {count position : Nat} (notRead : action ≠ .read)
    (looked : position ∈ action.positions order count) :
    (∃ slot, action.signature[position]? = some slot ∧ (slot = .var ∨ slot = .symbol)) ∨
      (action = .negation ∧ order = .reversed ∧ position = 2) := by
  cases action with
  | read => exact absurd rfl notRead
  | negation =>
    by_cases last : order = .reversed ∧ 2 < count
    · simp_all [positions]
    · simp_all [positions, signature]
  | arithmetic _ | relation _ | connective _ =>
    cases order <;> simp [positions, SymbolOrder.arrange] at looked <;>
      rcases looked with rfl | rfl <;> simp [signature]
  | charToInt | concat | getChar | jumpIf _ =>
    simp [positions] at looked
    rcases looked with rfl | rfl <;> simp [signature]
  | setChar =>
    simp [positions] at looked
    rcases looked with rfl | rfl | rfl <;> simp [signature]
  | _ => simp_all [positions, signature]

theorem mem_of_mem_arguments (argument : operand ∈ action.arguments order operands) :
    operand ∈ operands := by
  obtain ⟨position, _, found⟩ := List.mem_filterMap.mp argument
  exact List.mem_of_getElem? found

/-- The arguments of an action are symbols once the classes are checked. -/
theorem isSymbol_of_mem_arguments (notRead : action ≠ .read)
    (accepted : Fill action.signature operands)
    (required : action.requireSymbol order operands = .ok ())
    (argument : operand ∈ action.arguments order operands) :
    operand.operandClass.isSymbol = true := by
  obtain ⟨position, looked, found⟩ := List.mem_filterMap.mp argument
  rcases slot_of_mem_positions notRead looked with ⟨slot, hslot, looked⟩ | ⟨rfl, rfl, rfl⟩
  · exact isSymbol_of_accepts looked (accepted position slot operand hslot found)
  · obtain ⟨target, second, third, rest, rfl⟩ :=
      exists_of_three_le (List.getElem?_eq_some_iff.mp found).1
    cases found
    exact checkClass_eq_ok.mp (orError_eq_ok.mp required)

/-- What READ works on is the name of a type once the classes are checked. -/
theorem isType_of_mem_arguments (accepted : Fill Action.read.signature operands)
    (argument : operand ∈ Action.read.arguments order operands) :
    operand.operandClass = .type := by
  obtain ⟨position, looked, found⟩ := List.mem_filterMap.mp argument
  obtain rfl : position = 1 := by simpa [positions] using looked
  exact of_decide_eq_true (accepted 1 .type operand rfl found)

end Action

/-! ## Arguments without a value -/

/-- Why an operand does not stand for a value. -/
inductive Unresolved (frames : Frames) (operand : Operand) : Failure Fault → Prop where
  | notVariable (unreadable : Variable.ofSource? operand.text = none)
      (isVar : operand.operandClass = .var) :
      Unresolved frames operand (.error (.operandValue (.notVariable operand.text)))
  | unavailable {ref : Variable} {error : FrameError}
      (readable : Variable.ofSource? operand.text = some ref)
      (refused : frames.get ref = .error error) :
      Unresolved frames operand (.error error.fault)
  | missing (declared : frames.content operand = .ok .uninitialized) :
      Unresolved frames operand (.error .missingValue)
  | notLiteral {kind : Kind} (isLiteral : operand.operandClass = .literal kind)
      (undecoded : Literal.decode kind operand.text = .ok none) :
      Unresolved frames operand (.error (.operandValue (.notLiteral kind operand.text)))
  | crashed {kind : Kind} {crash : Crash} (isLiteral : operand.operandClass = .literal kind)
      (crashed : Literal.decode kind operand.text = .error crash) :
      Unresolved frames operand (.crash crash)
  | noSymbol (other : operand.operandClass.isSymbol = false) :
      Unresolved frames operand (.error (.internal (.literalExpected operand.operandClass)))

section Unresolved

variable {frames : Frames} {operand : Operand} {failure : Failure Fault}

theorem unresolved_of_literal (failed : operand.literal = .error failure)
    (notVar : operand.operandClass ≠ .var) : Unresolved frames operand failure := by
  rw [Operand.literal] at failed
  split at failed
  · rename_i kind isLiteral
    rcases Chain.bind_eq_error.mp failed with failed | ⟨value?, decoded, failed⟩
    · obtain ⟨crash, crashed, rfl⟩ := orCrash_eq_error.mp failed
      exact .crashed isLiteral crashed
    · cases value? with
      | some value => cases failed
      | none =>
        cases failed
        exact .notLiteral isLiteral (orCrash_eq_ok.mp decoded)
  · rename_i notLiteral
    cases failed
    refine .noSymbol ?_
    cases other : operand.operandClass with
    | var => exact absurd other notVar
    | label | type => rfl
    | literal kind => exact absurd other (notLiteral kind)

theorem unresolved_of_content (failed : frames.content operand = .error failure) :
    Unresolved frames operand failure := by
  rw [Frames.content] at failed
  split at failed
  · rename_i isVar
    rw [Operand.reference] at failed
    split at failed
    · rename_i ref readable
      obtain ⟨fault, refusal, rfl⟩ := orError_eq_error.mp failed
      obtain ⟨error, refused, rfl⟩ := Chain.mapError_eq_error.mp refusal
      exact .unavailable readable refused
    · rename_i unreadable
      cases failed
      exact .notVariable unreadable isVar
  · rename_i notVar
    exact unresolved_of_literal failed notVar

theorem unresolved_of_value (failed : frames.value operand = .error failure) :
    Unresolved frames operand failure := by
  rcases Chain.bind_eq_error.mp failed with failed | ⟨value, found, failed⟩
  · exact unresolved_of_content failed
  · cases value with
    | uninitialized =>
      cases failed
      exact .missing found
    | int _ | bool _ | string _ | float _ | nil => cases failed

theorem unresolved_of_lookUp {action : Action}
    (failed : action.lookUp frames operand = .error failure) :
    action ≠ .read ∧ Unresolved frames operand failure := by
  unfold Action.lookUp at failed
  split at failed
  · cases failed
  · exact ⟨nofun, unresolved_of_content failed⟩
  · rename_i notRead _
    exact ⟨notRead, unresolved_of_value failed⟩

end Unresolved

/-! ## Plans that fail -/

/-- What keeps an instruction from having an effect. -/
inductive Obstacle (opcode : Opcode) (labels : LabelTable) (frames : Frames)
    (operands : List Operand) : Failure Fault → Prop where
  | fewOperands (few : operands.length < opcode.signature.length) :
      Obstacle opcode labels frames operands (.error (.operandCount opcode operands.length))
  | wrongClass {index : Nat} {slot : Slot} {operand : Operand}
      (hslot : opcode.signature[index]? = some slot) (hoperand : operands[index]? = some operand)
      (refused : slot.accepts operand.operandClass = false) :
      Obstacle opcode labels frames operands
        (.error (.operandClass index slot operand.operandClass))
  | wrongThird {operand : Operand} (third : operands[2]? = some operand)
      (past : opcode.signature.length ≤ 2) (refused : operand.operandClass.isSymbol = false) :
      Obstacle opcode labels frames operands
        (.error (.operandClass 2 .symbol operand.operandClass))
  | noLabel {operand : Operand} (first : operands[0]? = some operand)
      (unknown : labels.resolve? operand.text = none) :
      Obstacle opcode labels frames operands (.error (.labelUndefined operand.text))
  | unresolved {operand : Operand} {failure : Failure Fault}
      (argument : operand ∈ opcode.action.arguments opcode.symbolOrder operands)
      (symbol : operand.operandClass.isSymbol = true)
      (unresolved : Unresolved frames operand failure) :
      Obstacle opcode labels frames operands failure
  | complaint {values : List Value} {fault : Fault}
      (found : ∀ value ∈ values,
        ∃ operand ∈ opcode.action.arguments opcode.symbolOrder operands,
          opcode.action.lookUp frames operand = .ok value)
      (complaint : Complaint opcode.action values fault) :
      Obstacle opcode labels frames operands (.error fault)
  | noTarget {operand : Operand} (first : operands[0]? = some operand)
      (slot : opcode.signature[0]? = some .var)
      (unreadable : Variable.ofSource? operand.text = none) :
      Obstacle opcode labels frames operands (.error (.operandValue (.notVariable operand.text)))

section Stages

variable {labels : LabelTable} {operands : List Operand} {failure : Failure Fault}

theorem noLabel_of_target {operand : Operand} (failed : labels.target operand = .error failure) :
    labels.resolve? operand.text = none ∧ failure = .error (.labelUndefined operand.text) := by
  rw [LabelTable.target] at failed
  split at failed
  · cases failed
  · cases failed
    exact ⟨‹_›, rfl⟩

theorem noLabel_of_requireLabel {action : Action}
    (failed : action.requireLabel labels operands = .error failure) :
    ∃ operand, operands[0]? = some operand ∧ labels.resolve? operand.text = none ∧
      failure = .error (.labelUndefined operand.text) := by
  cases operands with
  | nil => cases failed
  | cons operand rest =>
    rw [Action.requireLabel] at failed
    split at failed
    · rcases Chain.bind_eq_error.mp failed with missing | ⟨_, _, impossible⟩
      · exact ⟨operand, rfl, noLabel_of_target missing⟩
      · cases impossible
    · cases failed

theorem wrongThird_of_requireSymbol {action : Action} {order : SymbolOrder}
    (failed : action.requireSymbol order operands = .error failure) :
    ∃ operand, operands[2]? = some operand ∧ action = .negation ∧
      operand.operandClass.isSymbol = false ∧
      failure = .error (.operandClass 2 .symbol operand.operandClass) := by
  unfold Action.requireSymbol at failed
  split at failed
  · split at failed
    · obtain ⟨fault, refusal, rfl⟩ := orError_eq_error.mp failed
      obtain ⟨refused, rfl⟩ := checkClass_eq_error.mp refusal
      exact ⟨_, rfl, rfl, refused, rfl⟩
    · cases failed
  · cases failed

/-- Only NOTS looks at the class of a third operand. -/
theorem requireSymbol_of_ne_nots {opcode : Opcode} (other : opcode ≠ .nots) :
    opcode.action.requireSymbol opcode.symbolOrder operands = .ok () := by
  cases opcode with
  | nots => exact absurd rfl other
  | not =>
    simp only [Opcode.action, Action.requireSymbol]
    split <;> rfl
  | _ => rfl

theorem noTarget_of_reference {operand : Operand} (failed : operand.reference = .error failure) :
    Variable.ofSource? operand.text = none ∧
      failure = .error (.operandValue (.notVariable operand.text)) := by
  rw [Operand.reference] at failed
  split at failed
  · cases failed
  · cases failed
    exact ⟨‹_›, rfl⟩

/-- The first operand is there when an outcome needs it. -/
theorem Outcome.exists_first {action : Action} {outcome : Outcome} (own : outcome.Of action)
    (enough : action.signature.length ≤ operands.length) :
    (∃ effect, outcome = .alone effect) ∨ ∃ operand rest, operands = operand :: rest := by
  have slots : (∃ effect, outcome = .alone effect) ∨ 1 ≤ action.signature.length := by
    cases outcome with
    | alone effect => exact Or.inl ⟨effect, rfl⟩
    | assign value =>
      obtain ⟨slots, own⟩ := own
      simp [own]
    | jump =>
      rcases own with rfl | ⟨equal, rfl⟩
      · exact Or.inr (Nat.le_refl 1)
      · exact Or.inr (Nat.le_add_left 1 2)
    | define | read _ | print | call =>
      cases own
      simp [Action.signature]
  rcases slots with alone | one
  · exact Or.inl alone
  · exact Or.inr (exists_of_one_le (Nat.le_trans one enough))

/-- Aiming an outcome never crashes; it fails when the first operand names no variable
or no label. -/
theorem obstacle_of_effect {opcode : Opcode} {frames : Frames} {outcome : Outcome}
    (own : outcome.Of opcode.action)
    (enough : opcode.action.signature.length ≤ operands.length)
    (failed : outcome.effect labels operands = .error failure) :
    ∃ fault, failure = .error fault ∧ Obstacle opcode labels frames operands failure := by
  rcases outcome.exists_first own enough with ⟨effect, rfl⟩ | ⟨first, rest, rfl⟩
  · cases failed
  have targetVariable (slot : opcode.action.signature[0]? = some .var)
      (refused : first.reference = .error failure) :
      ∃ fault, failure = .error fault ∧
        Obstacle opcode labels frames (first :: rest) failure := by
    obtain ⟨unreadable, rfl⟩ := noTarget_of_reference refused
    exact ⟨_, rfl, .noTarget rfl (opcode.signature_eq ▸ slot) unreadable⟩
  have targetLabel (missing : labels.target first = .error failure) :
      ∃ fault, failure = .error fault ∧
        Obstacle opcode labels frames (first :: rest) failure := by
    obtain ⟨unknown, rfl⟩ := noLabel_of_target missing
    exact ⟨_, rfl, .noLabel rfl unknown⟩
  cases outcome with
  | alone effect => cases failed
  | read kind => cases failed
  | print => cases failed
  | define =>
    have slot : opcode.action.signature[0]? = some .var := by
      rw [show opcode.action = .define from own]
      rfl
    simp only [Outcome.effect, operandAt_zero, Chain.bind_ok] at failed
    rcases Chain.bind_eq_error.mp failed with refused | ⟨_, _, impossible⟩
    · exact targetVariable slot refused
    · cases impossible
  | assign value =>
    obtain ⟨slots, slot⟩ := own
    simp only [Outcome.effect, assignFirst, operandAt_zero, Chain.bind_ok] at failed
    rcases Chain.bind_eq_error.mp failed with refused | ⟨_, _, impossible⟩
    · exact targetVariable (by rw [slot]; rfl) refused
    · cases impossible
  | jump | call =>
    simp only [Outcome.effect, operandAt_zero, Chain.bind_ok] at failed
    rcases Chain.bind_eq_error.mp failed with missing | ⟨_, _, impossible⟩
    · exact targetLabel missing
    · cases impossible

end Stages

/-- A plan that fails has met one of the obstacles. In particular it has not asked
for an operand that is not there. -/
theorem obstacle_of_plan {opcode : Opcode} {labels : LabelTable} {frames : Frames}
    {operands : List Operand} {failure : Failure Fault}
    (failed : opcode.plan labels frames operands = .error failure) :
    Obstacle opcode labels frames operands failure := by
  rcases Chain.bind_eq_error.mp failed with failed | ⟨_, checked, failed⟩
  · obtain ⟨fault, refused, rfl⟩ := orError_eq_error.mp failed
    rw [checkOperands] at refused
    split at refused
    · cases refused
      exact .fewOperands ‹_›
    · obtain ⟨index, slot, operand, hslot, hoperand, notAccepted, rfl⟩ :=
        checkClasses_eq_error refused
      rw [Nat.zero_add]
      exact .wrongClass hslot hoperand notAccepted
  obtain ⟨enough, accepted⟩ := checkOperands_eq_ok.mp (orError_eq_ok.mp checked)
  rw [opcode.signature_eq] at enough accepted
  rw [Action.plan_eq_staged enough] at failed
  rcases Chain.bind_eq_error.mp failed with failed | ⟨_, _, failed⟩
  · obtain ⟨operand, first, unknown, rfl⟩ := noLabel_of_requireLabel failed
    exact .noLabel first unknown
  rcases Chain.bind_eq_error.mp failed with failed | ⟨_, symbols, failed⟩
  · obtain ⟨operand, third, negates, refused, rfl⟩ := wrongThird_of_requireSymbol failed
    refine .wrongThird third ?_ refused
    rw [opcode.signature_eq, negates]
    exact Nat.le_refl 2
  rcases Chain.bind_eq_error.mp failed with failed | ⟨values, found, failed⟩
  · obtain ⟨before, operand, after, split, _, failed⟩ := Chain.mapM_eq_error.mp failed
    have argument : operand ∈ opcode.action.arguments opcode.symbolOrder operands := by
      rw [split]
      simp
    obtain ⟨notRead, unresolved⟩ := unresolved_of_lookUp failed
    exact .unresolved argument
      (Action.isSymbol_of_mem_arguments notRead accepted symbols argument) unresolved
  rcases Chain.bind_eq_error.mp failed with failed | ⟨outcome, given, failed⟩
  · obtain ⟨fault, rfl, complaint⟩ := opcode.action.outcome_failsWith values failure failed
    exact .complaint (Chain.mem_of_mapM_eq_ok found) complaint
  · have own := opcode.action.outcome_gives values outcome given
    obtain ⟨_, _, obstacle⟩ := obstacle_of_effect own enough failed
    exact obstacle

end IPPcode24
