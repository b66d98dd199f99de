import IPPcode24.Machine.Step
import IPPcode24.Proofs.Obstacles
import IPPcode24.Proofs.Symbols
import IPPcode24.Proofs.Variables
import IPPcode24.Proofs.Writable
import Mathlib.Data.List.Basic

/-!
# Instructions that compute

An instruction that computes takes the values of its symbols in the order in which they are
written, and gives what it makes of them to the variable that its first operand names. If it
makes nothing of them, the run fails and the machine stays as it is. Which value comes of which
values is settled by the action alone.
-/

namespace IPPcode24

/-- The operand names a declared variable. -/
structure Frames.Declares (frames : Frames) (target : Operand) : Prop where
  isVar : target.operandClass = .var
  exists_content : ∃ content, frames.content target = .ok content

/-- The target is declared, and the symbols have the values. -/
structure Machine.Supplies (machine : Machine) (target : Operand) (symbols : List Operand)
    (values : List Value) : Prop where
  declares : machine.frames.Declares target
  valued : symbols.mapM machine.frames.value = .ok values

/-- What an instruction comes to: its target is given the value and the run goes on, or the
run fails with the fault and nothing has changed. -/
def Machine.Yields (machine : Machine) (opcode : Opcode) (target : Operand)
    (symbols : List Operand) : Except Fault Value → Prop
  | .ok value => ∃ ref frames, Variable.ofSource? target.text = some ref ∧
      machine.frames.set ref value = .ok frames ∧
      ∀ labels, machine.execute labels opcode (target :: symbols) =
        ⟨{ machine with frames }, [], .ok .next⟩
  | .error fault =>
      ∀ labels, machine.execute labels opcode (target :: symbols) = machine.refuse fault

/-- The opcodes that compute something from the values of all their symbols, in the order in
which these are written. -/
def Opcode.computing : List Opcode :=
  [.add, .sub, .mul, .idiv, .lt, .gt, .eq, .and, .or, .not, .int2Char, .int2Chars, .stri2Int,
    .stri2Ints, .concat, .strLen, .getChar, .int2Float, .float2Int]

section Computing

variable {machine : Machine} {opcode : Opcode} {target : Operand} {symbols : List Operand}
  {values : List Value} {result : Except Fault Value}

theorem Frames.Declares.exists_get {frames : Frames} (declares : frames.Declares target) :
    ∃ ref content, target.reference = .ok ref ∧ frames.get ref = .ok content := by
  obtain ⟨isVar, content, found⟩ := declares
  rw [Frames.content, if_pos isVar] at found
  obtain ⟨ref, named, found⟩ := Chain.bind_eq_ok.mp found
  exact ⟨ref, content, named, Chain.mapError_eq_ok.mp (orError_eq_ok.mp found)⟩

theorem Frames.content_of_set {frames next : Frames} {ref : Variable} {value : Value}
    (isVar : target.operandClass = .var) (named : Variable.ofSource? target.text = some ref)
    (assigned : frames.set ref value = .ok next) (other : Operand) :
    next.content other = if other = target then .ok value else frames.content other := by
  by_cases otherVar : other.operandClass = .var
  · rw [content, content, if_pos otherVar, if_pos otherVar, Operand.reference]
    cases namedToo : Variable.ofSource? other.text with
    | none =>
      have apart : other ≠ target := by
        rintro rfl
        rw [named] at namedToo
        cases namedToo
      rw [if_neg apart]
      rfl
    | some otherRef =>
      simp only [Chain.bind_ok, get_of_set assigned]
      by_cases same : otherRef = ref
      · have texts : other.text = target.text := by
          rw [Variable.eq_source namedToo, Variable.eq_source named, same]
        have operands : other = target := by
          cases other
          cases target
          rw [Operand.mk.injEq]
          exact ⟨otherVar.trans isVar.symm, texts⟩
        rw [if_pos same, if_pos operands]
        rfl
      · have apart : other ≠ target := by
          rintro rfl
          exact same (Option.some.inj (namedToo.symm.trans named))
        rw [if_neg same, if_neg apart]
  · have apart : other ≠ target := by
      rintro rfl
      exact otherVar isVar
    rw [content, content, if_neg otherVar, if_neg otherVar, if_neg apart]

/-- Only the outcome of the action is left once the operands are checked and the values found. -/
theorem Machine.yields_of_outcome (declares : machine.frames.Declares target)
    (checked : checkOperands opcode (target :: symbols) = .ok ())
    (noLabel : opcode.action.namesLabel = false)
    (noThird : opcode.action.requireSymbol opcode.symbolOrder (target :: symbols) = .ok ())
    (found : (opcode.action.arguments opcode.symbolOrder (target :: symbols)).mapM
      (opcode.action.lookUp machine.frames) = .ok values)
    (computed : opcode.action.outcome values = (orError result).map Outcome.assign) :
    machine.Yields opcode target symbols result := by
  obtain ⟨ref, content, named, held⟩ := declares.exists_get
  have enough := (checkOperands_eq_ok.mp checked).1
  rw [opcode.signature_eq] at enough
  have planned (labels : LabelTable) :
      opcode.plan labels machine.frames (target :: symbols) =
        (orError result).map fun value => .assign ref value := by
    rw [Opcode.plan_of_checked checked, Action.plan_eq_staged enough, Action.staged,
      Action.requireLabel_of_not noLabel, noThird, found]
    simp only [Chain.bind_ok, computed]
    cases result with
    | error fault => rfl
    | ok value =>
      change assignFirst (target :: symbols) value = _
      simp only [assignFirst, operandAt_zero, Chain.bind_ok, named]
      rfl
  cases result with
  | error fault =>
    intro labels
    rw [execute, planned]
    rfl
  | ok value =>
    obtain ⟨frames, stored⟩ := Frames.exists_set_of_get held value
    refine ⟨ref, frames, reference_eq_ok named, stored, fun labels => ?_⟩
    rw [execute, planned]
    change machine.perform (.assign ref value) = _
    rw [perform, stored]
    rfl

section Valued

variable {frames : Frames} {first second : Operand} {value other : Value}

theorem valued_one (found : frames.value first = .ok value) :
    [first].mapM frames.value = .ok [value] := by
  rw [List.mapM_cons, found]
  rfl

theorem valued_two (found : frames.value first = .ok value)
    (foundToo : frames.value second = .ok other) :
    [first, second].mapM frames.value = .ok [value, other] := by
  rw [List.mapM_cons, found, valued_one foundToo]
  rfl

end Valued

theorem fill_replicate_symbol (valued : symbols.mapM machine.frames.value = .ok values) :
    Fill (List.replicate symbols.length .symbol) symbols := by
  induction symbols generalizing values with
  | nil => exact .nil []
  | cons symbol symbols ih =>
    rw [List.mapM_cons] at valued
    obtain ⟨value, found, valued⟩ := Chain.bind_eq_ok.mp valued
    obtain ⟨others, valued, _⟩ := Chain.bind_eq_ok.mp valued
    exact fill_cons.mpr ⟨isSymbol_of_value found, ih valued⟩

theorem Machine.Supplies.checked (supplies : machine.Supplies target symbols values)
    (slots : opcode.signature = .var :: List.replicate symbols.length .symbol) :
    checkOperands opcode (target :: symbols) = .ok () := by
  rw [checkOperands_eq_ok, slots]
  constructor
  · simp
  · exact fill_cons.mpr ⟨decide_eq_true supplies.declares.isVar,
      fill_replicate_symbol supplies.valued⟩

/-- An opcode that computes has no label to go to and looks at its one or two symbols in the order
in which they are written. -/
theorem Opcode.positions_of_computing (member : opcode ∈ computing) :
    opcode.action.namesLabel = false ∧ opcode.symbolOrder = .written ∧
      (opcode.signature.length = 2 ∧ opcode.action.positions .written 2 = [1] ∨
        opcode.signature.length = 3 ∧ opcode.action.positions .written 3 = [1, 2]) := by
  revert member
  cases opcode <;> decide

theorem Opcode.lookUp_of_computing (member : opcode ∈ computing) (frames : Frames) :
    opcode.action.lookUp frames = frames.value := by
  revert member
  cases opcode with
  | read | type => exact fun member => absurd member (by decide)
  | _ => exact fun _ => rfl

theorem Action.requireSymbol_written (action : Action) (operands : List Operand) :
    action.requireSymbol .written operands = .ok () := by
  unfold requireSymbol
  split <;> rfl

theorem Opcode.arguments_of_computing (target : Operand) (member : opcode ∈ computing)
    (slots : opcode.signature = .var :: List.replicate symbols.length .symbol) :
    opcode.action.arguments opcode.symbolOrder (target :: symbols) = symbols := by
  obtain ⟨_, written, few⟩ := positions_of_computing member
  rw [slots, List.length_cons, List.length_replicate] at few
  rw [written, Action.arguments, List.length_cons]
  rcases few with ⟨count, positions⟩ | ⟨count, positions⟩
  · rw [count, positions]
    obtain ⟨a, rfl⟩ := List.length_eq_one_iff.mp (Nat.succ.inj count)
    rfl
  · rw [count, positions]
    obtain ⟨a, b, rfl⟩ := List.length_eq_two.mp (Nat.succ.inj count)
    rfl

theorem Machine.Supplies.yields (supplies : machine.Supplies target symbols values)
    (member : opcode ∈ Opcode.computing)
    (slots : opcode.signature = .var :: List.replicate symbols.length .symbol)
    (computed : opcode.action.outcome values = (orError result).map Outcome.assign) :
    machine.Yields opcode target symbols result := by
  obtain ⟨noLabel, written, _⟩ := Opcode.positions_of_computing member
  have noThird : opcode.action.requireSymbol opcode.symbolOrder (target :: symbols) = .ok () := by
    rw [written, Action.requireSymbol_written]
  refine yields_of_outcome supplies.declares (supplies.checked slots) noLabel noThird ?_ computed
  rw [Opcode.arguments_of_computing target member slots, Opcode.lookUp_of_computing member]
  exact supplies.valued

/-- The outcome of an operation is the assignment of its result. -/
theorem assign_of_operation {α : Type} (result : Except OperationError α) (make : α → Value) :
    (do let made ← orError (result.mapError OperationError.fault)
        return Outcome.assign (make made)) =
      (orError ((result.mapError OperationError.fault).map make)).map Outcome.assign := by
  cases result <;> rfl

/-- SETCHAR looks up the variable that it changes before its symbols. -/
theorem Machine.Supplies.yields_setChar {current : Value}
    (supplies : machine.Supplies target symbols values)
    (two : symbols.length = 2) (held : machine.frames.value target = .ok current)
    (computed : Action.setChar.outcome (current :: values) = (orError result).map Outcome.assign) :
    machine.Yields .setChar target symbols result := by
  obtain ⟨a, b, rfl⟩ := List.length_eq_two.mp two
  refine yields_of_outcome supplies.declares (supplies.checked rfl) rfl rfl ?_ computed
  change (target :: [a, b]).mapM machine.frames.value = _
  rw [List.mapM_cons, held, supplies.valued]
  rfl

theorem Machine.Yields.exists_next {value : Value}
    (yields : machine.Yields opcode target symbols (.ok value))
    (isVar : target.operandClass = .var) (present : value ≠ .uninitialized) :
    ∃ next : Machine,
      (∀ labels, machine.execute labels opcode (target :: symbols) = ⟨next, [], .ok .next⟩) ∧
      next.frames.value target = .ok value ∧
      ∀ other, machine.frames.Declares other → next.frames.Declares other := by
  obtain ⟨ref, frames, named, stored, executed⟩ := yields
  have contents := Frames.content_of_set isVar named stored
  refine ⟨{ machine with frames }, executed, ?_, fun other declares => ⟨declares.isVar, ?_⟩⟩
  · exact value_eq_ok.mpr ⟨by rw [contents, if_pos rfl], present⟩
  · obtain ⟨held, found⟩ := declares.exists_content
    rw [contents, found]
    split
    · exact ⟨value, rfl⟩
    · exact ⟨held, rfl⟩

theorem Machine.Yields.unique {other : Except Fault Value}
    (yields : machine.Yields opcode target symbols result)
    (yieldsToo : machine.Yields opcode target symbols other) : other = result := by
  cases result with
  | error fault =>
    cases other with
    | error faultToo =>
      have flow := congrArg Performed.flow ((yields []).symm.trans (yieldsToo []))
      cases flow
      rfl
    | ok value =>
      obtain ⟨_, _, _, _, executed⟩ := yieldsToo
      cases congrArg Performed.flow ((yields []).symm.trans (executed []))
  | ok value =>
    obtain ⟨ref, frames, named, stored, executed⟩ := yields
    cases other with
    | error fault => cases congrArg Performed.flow ((yieldsToo []).symm.trans (executed []))
    | ok valueToo =>
      obtain ⟨refToo, framesToo, namedToo, storedToo, executedToo⟩ := yieldsToo
      obtain rfl : refToo = ref := Option.some.inj (namedToo.symm.trans named)
      obtain rfl : frames = framesToo :=
        congrArg (·.machine.frames) ((executed []).symm.trans (executedToo []))
      have content := Frames.get_of_set stored refToo
      rw [Frames.get_of_set storedToo, if_pos rfl, if_pos rfl] at content
      rw [Except.ok.inj content]

end Computing

end IPPcode24
