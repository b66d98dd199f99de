import IPPcode24.Proofs.Obstacles
import IPPcode24.Proofs.Symbols

/-!
# Targets of plans

A plan that succeeds takes an outcome of its action and aims it at what the first
operand names: a variable, or the place of a label. So a plan can only lead to a
label that the instruction itself names, and only the plans of jumps and calls do.
-/

namespace IPPcode24

/-- The effect that an outcome becomes when it is aimed at the first operand. -/
inductive Aimed (labels : LabelTable) (operands : List Operand) : Outcome → Effect → Prop where
  | alone {effect : Effect} : Aimed labels operands (.alone effect) effect
  | define {operand : Operand} {ref : Variable} (first : operands[0]? = some operand)
      (readable : Variable.ofSource? operand.text = some ref) :
      Aimed labels operands .define (.define ref)
  | assign {operand : Operand} {ref : Variable} {value : Value}
      (first : operands[0]? = some operand)
      (readable : Variable.ofSource? operand.text = some ref) :
      Aimed labels operands (.assign value) (.assign ref value)
  | read {operand : Operand} {kind : Kind} (first : operands[0]? = some operand) :
      Aimed labels operands (.read kind) (.read operand kind)
  | print {operand : Operand} (first : operands[0]? = some operand) :
      Aimed labels operands .print (.print operand)
  | jump {operand : Operand} {place : Nat} (first : operands[0]? = some operand)
      (resolved : labels.resolve? operand.text = some place) :
      Aimed labels operands .jump (.jump place)
  | call {operand : Operand} {place : Nat} (first : operands[0]? = some operand)
      (resolved : labels.resolve? operand.text = some place) :
      Aimed labels operands .call (.call place)

section Effects

variable {labels : LabelTable} {operands : List Operand}

theorem operandAt_eq_ok {position : Nat} {operand : Operand}
    (found : operandAt operands position = .ok operand) : operands[position]? = some operand := by
  rw [operandAt] at found
  split at found
  · rename_i other given
    rw [given, Except.ok.inj found]
  · cases found

theorem target_eq_ok {operand : Operand} {place : Nat}
    (found : labels.target operand = .ok place) : labels.resolve? operand.text = some place := by
  rw [LabelTable.target] at found
  split at found
  · rename_i other resolved
    rw [resolved, Except.ok.inj found]
  · cases found

theorem aimed_of_effect {outcome : Outcome} {effect : Effect}
    (given : outcome.effect labels operands = .ok effect) :
    Aimed labels operands outcome effect := by
  cases outcome with
  | alone effect =>
    cases given
    exact .alone
  | define =>
    obtain ⟨operand, first, given⟩ := Chain.bind_eq_ok.mp given
    obtain ⟨ref, named, given⟩ := Chain.bind_eq_ok.mp given
    cases given
    exact .define (operandAt_eq_ok first) (reference_eq_ok named)
  | assign value =>
    obtain ⟨operand, first, given⟩ := Chain.bind_eq_ok.mp given
    obtain ⟨ref, named, given⟩ := Chain.bind_eq_ok.mp given
    cases given
    exact .assign (operandAt_eq_ok first) (reference_eq_ok named)
  | read kind =>
    obtain ⟨operand, first, given⟩ := Chain.bind_eq_ok.mp given
    cases given
    exact .read (operandAt_eq_ok first)
  | print =>
    obtain ⟨operand, first, given⟩ := Chain.bind_eq_ok.mp given
    cases given
    exact .print (operandAt_eq_ok first)
  | jump =>
    obtain ⟨operand, first, given⟩ := Chain.bind_eq_ok.mp given
    obtain ⟨place, found, given⟩ := Chain.bind_eq_ok.mp given
    cases given
    exact .jump (operandAt_eq_ok first) (target_eq_ok found)
  | call =>
    obtain ⟨operand, first, given⟩ := Chain.bind_eq_ok.mp given
    obtain ⟨place, found, given⟩ := Chain.bind_eq_ok.mp given
    cases given
    exact .call (operandAt_eq_ok first) (target_eq_ok found)

end Effects

section Plans

variable {opcode : Opcode} {labels : LabelTable} {frames : Frames} {operands : List Operand}

/-- What has succeeded when a plan has: every check of the operands, the look-up of
every argument, the action on their values, and the aim at the first operand. -/
theorem staged_of_plan {effect : Effect}
    (planned : opcode.plan labels frames operands = .ok effect) :
    opcode.signature.length ≤ operands.length ∧ Fill opcode.signature operands ∧
      ∃ values outcome,
        (opcode.action.arguments opcode.symbolOrder operands).mapM
          (opcode.action.lookUp frames) = .ok values ∧
        opcode.action.outcome values = .ok outcome ∧
        Aimed labels operands outcome effect := by
  obtain ⟨_, checked, planned⟩ := Chain.bind_eq_ok.mp planned
  obtain ⟨enough, accepted⟩ := checkOperands_eq_ok.mp (orError_eq_ok.mp checked)
  refine ⟨enough, accepted, ?_⟩
  rw [opcode.signature_eq] at enough
  rw [Action.plan_eq_staged enough] at planned
  obtain ⟨_, _, planned⟩ := Chain.bind_eq_ok.mp planned
  obtain ⟨_, _, planned⟩ := Chain.bind_eq_ok.mp planned
  obtain ⟨values, found, planned⟩ := Chain.bind_eq_ok.mp planned
  obtain ⟨outcome, given, aimed⟩ := Chain.bind_eq_ok.mp planned
  exact ⟨values, outcome, found, given, aimed_of_effect aimed⟩

/-- The opcodes that jump. -/
def Opcode.jumps : List Opcode := [.jump, .jumpIfEq, .jumpIfNeq, .jumpIfEqs, .jumpIfNeqs]

theorem target_of_plan_jump {place : Nat}
    (planned : opcode.plan labels frames operands = .ok (.jump place)) :
    opcode ∈ Opcode.jumps ∧
      ∃ operand, operands[0]? = some operand ∧ labels.resolve? operand.text = some place := by
  obtain ⟨_, _, values, outcome, _, given, aimed⟩ := staged_of_plan planned
  have own := opcode.action.outcome_gives values outcome given
  cases aimed with
  | alone => exact own.elim
  | jump first resolved =>
    refine ⟨?_, _, first, resolved⟩
    rcases own with isJump | ⟨equal, isJump⟩
    · cases opcode <;> cases isJump
      decide
    · cases opcode <;> cases isJump <;> decide

theorem target_of_plan_call {place : Nat}
    (planned : opcode.plan labels frames operands = .ok (.call place)) :
    opcode = .call ∧
      ∃ operand, operands[0]? = some operand ∧ labels.resolve? operand.text = some place := by
  obtain ⟨_, _, values, outcome, _, given, aimed⟩ := staged_of_plan planned
  have own := opcode.action.outcome_gives values outcome given
  cases aimed with
  | alone => exact own.elim
  | call first resolved =>
    refine ⟨?_, _, first, resolved⟩
    change opcode.action = .call at own
    cases opcode <;> cases own
    rfl

/-- The opcodes without operands, and the one effect that each of them has. -/
inductive Opcode.Bare : Opcode → Effect → Prop where
  | createFrame : Bare .createFrame .createFrame
  | pushFrame : Bare .pushFrame .pushFrame
  | popFrame : Bare .popFrame .popFrame
  | ret : Bare .ret .ret
  | inspect : Bare .breakpoint .inspect

/-- An opcode without operands always plans its effect, and no other opcode plans it. -/
theorem plan_eq_ok_iff_of_bare {effect : Effect} (bare : opcode.Bare effect) {other : Opcode} :
    other.plan labels frames operands = .ok effect ↔ other = opcode := by
  constructor
  · intro planned
    obtain ⟨_, _, values, outcome, _, given, aimed⟩ := staged_of_plan planned
    have own := other.action.outcome_gives values outcome given
    -- none of these effects comes of what the first operand names
    cases bare <;> cases aimed <;> cases other <;> first | rfl | cases own
  · rintro rfl
    have accepted : checkOperands other operands = .ok () := by
      refine checkOperands_eq_ok.mpr ?_
      cases bare <;> exact ⟨Nat.zero_le _, .nil operands⟩
    rw [Opcode.plan_of_checked accepted]
    cases bare <;> rfl

theorem effect_of_plan_call {effect : Effect}
    (planned : Opcode.call.plan labels frames operands = .ok effect) :
    ∃ place, effect = .call place := by
  obtain ⟨_, _, planned⟩ := Chain.bind_eq_ok.mp planned
  obtain ⟨_, _, planned⟩ := Chain.bind_eq_ok.mp planned
  obtain ⟨place, _, planned⟩ := Chain.bind_eq_ok.mp planned
  cases planned
  exact ⟨place, rfl⟩

end Plans

end IPPcode24
