import IPPcode24.Proofs.Crashes
import IPPcode24.Proofs.LockStep
import IPPcode24.Proofs.Programs
import IPPcode24.Proofs.Renaming

/-!
# Alpha-equivalence

A program with other names builds exactly if the program does, and runs in lock step with it.
Only the names in its frames, in its events and in its errors are others.
-/

namespace IPPcode24

/-! ## Renamed runs -/

section Definitions

variable (names : Renaming)

def RunError.renamed (error : RunError) : RunError :=
  { error with fault := error.fault.renamed names }

def Ending.renamed : Ending → Ending
  | failed error => .failed (error.renamed names)
  | ending => ending

def Event.renamed : Event → Event
  | printed place operand => .printed place (operand.renamed names)
  | aborted error steps => .aborted (error.renamed names) steps
  | event => event

def BuildError.renamed : BuildError → BuildError
  | duplicateLabel name place => .duplicateLabel (names.label name) place
  | error => error

def Machine.renamed (machine : Machine) : Machine :=
  { machine with frames := machine.frames.renamed names }

def Performed.renamed (performed : Performed) : Performed where
  machine := performed.machine.renamed names
  events := performed.events.map (Event.renamed names)
  flow := names.attempt id performed.flow

/-- What a machine, an event and an end of a program are under other names. -/
def Renaming.translation : Translation :=
  ⟨Machine.renamed names, Event.renamed names, Ending.renamed names⟩

/-- What is built with other names, or the renamed reason why nothing is. -/
def Renaming.built {α : Type} (carry : α → α) : Except BuildError α → Except BuildError α
  | .ok a => .ok (carry a)
  | .error error => .error (error.renamed names)

end Definitions

variable {names : Renaming}

/-! ## Building -/

namespace LabelTable

theorem declaredName?_renamed (instruction : Instruction) :
    declaredName? (instruction.renamed names) =
      (declaredName? instruction).map names.label := by
  obtain ⟨order, mnemonic, operands⟩ := instruction
  match operands with
  | [] | _ :: _ :: _ => rfl
  | [operand] =>
    simp only [declaredName?, Instruction.renamed, List.map_cons, List.map_nil,
      Operand.operandClass_renamed]
    split
    · rw [Operand.text_renamed_of_label ‹_›]
      rfl
    · rfl

/-- The renamed labels are found at the same places, and refused for the same reasons. -/
theorem scanFrom_renamed (place : Nat) (labels : LabelTable) (instructions : List Instruction) :
    scanFrom place (renamed names labels) (instructions.map (Instruction.renamed names)) =
      names.built (renamed names) (scanFrom place labels instructions) := by
  induction instructions generalizing place labels with
  | nil => rfl
  | cons instruction rest ih =>
    have sameLabel : (instruction.renamed names).isLabel = instruction.isLabel := rfl
    rw [List.map_cons, scanFrom, scanFrom, sameLabel, declaredName?_renamed]
    split
    · cases declaredName? instruction with
      | none => rfl
      | some name =>
        simp only [Option.map_some, resolve?_renamed]
        split
        · rfl
        · have appended : renamed names labels ++ [(names.label name, place)] =
              renamed names (labels ++ [(name, place)]) := by simp [renamed]
          rw [appended]
          exact ih (place + 1) _
    · exact ih (place + 1) labels

end LabelTable

/-- A program with other names builds exactly if the program does. -/
theorem build_renamed (records : List Instruction) :
    Program.build (records.map (Instruction.renamed names)) =
      names.built (Program.renamed names) (Program.build records) := by
  have keys : (records.map (Instruction.renamed names)).map (·.order) = records.map (·.order) := by
    simp [Instruction.renamed]
  have sorted : Program.sorted (records.map (Instruction.renamed names)) =
      (Program.sorted records).map (Instruction.renamed names) :=
    Program.sorted_map fun _ _ _ _ => Iff.rfl
  have scanned : LabelTable.scan ((Program.sorted records).map (Instruction.renamed names)) =
      names.built (LabelTable.renamed names) (LabelTable.scan (Program.sorted records)) :=
    LabelTable.scanFrom_renamed 0 [] (Program.sorted records)
  rw [Program.build, Program.build, keys]
  split
  · rfl
  · simp only [sorted, scanned]
    cases LabelTable.scan (Program.sorted records) <;> rfl

/-! ## Steps -/

section Steps

variable {machine : Machine}

theorem withFrames_renamed (machine : Machine) (result : Except FrameError Frames)
    {events eventsToo : Frames → List Event}
    (told : ∀ frames, eventsToo (frames.renamed names) =
      (events frames).map (Event.renamed names)) :
    (machine.renamed names).withFrames (names.operation (Frames.renamed names) result) eventsToo =
      (machine.withFrames result events).renamed names := by
  cases result with
  | ok frames =>
    simp only [Renaming.operation, Machine.withFrames, told]
    rfl
  | error error => cases error <;> rfl

theorem readInto_renamed {target : Operand} (isVar : target.operandClass = .var)
    (machine : Machine) (kind : Kind) :
    (machine.renamed names).readInto (target.renamed names) kind =
      (machine.readInto target kind).renamed names := by
  have sameInput : (machine.renamed names).input = machine.input := rfl
  simp only [Machine.readInto, sameInput, Operand.reference_renamed isVar]
  cases machine.input.read kind with
  | mk answer input =>
    cases answer with
    | error crash => rfl
    | ok value? =>
      cases target.reference with
      | error failure => rfl
      | ok ref =>
        let read : Machine := { machine with input }
        change (read.renamed names).withFrames
          ((machine.frames.renamed names).set (ref.renamed names) (value?.getD .nil)) _ = _
        rw [Frames.set_renamed]
        exact withFrames_renamed read _ fun _ => rfl

/-- The renamed effect acts on the renamed machine as the effect does on the machine. -/
theorem perform_renamed {effect : Effect}
    (target : ∀ operand kind, effect = .read operand kind → operand.operandClass = .var) :
    (machine.renamed names).perform (effect.renamed names) =
      (machine.perform effect).renamed names := by
  have sameFrames : (machine.renamed names).frames = machine.frames.renamed names := rfl
  cases effect with
  | pass | createFrame | jump _ | call _ | exit _ | print _ => rfl
  | inspect =>
    simp [Effect.renamed, Machine.perform, Performed.renamed, Machine.renamed, Frames.renamed,
      Frame.renamed, Event.renamed, Renaming.attempt]
  | define ref =>
    simp only [Effect.renamed, Machine.perform, sameFrames, Frames.define_renamed]
    exact withFrames_renamed machine _ fun _ => rfl
  | assign ref value =>
    simp only [Effect.renamed, Machine.perform, sameFrames, Frames.set_renamed]
    exact withFrames_renamed machine _ fun _ => rfl
  | pushFrame =>
    simp only [Effect.renamed, Machine.perform, sameFrames, Frames.push_renamed]
    refine withFrames_renamed machine _ fun frames => ?_
    simp [Frames.renamed, Event.renamed, Machine.renamed]
  | popFrame =>
    simp only [Effect.renamed, Machine.perform, sameFrames, Frames.pop_renamed]
    refine withFrames_renamed machine _ fun frames => ?_
    simp [Frames.renamed, Event.renamed, Machine.renamed]
  | read operand kind => exact readInto_renamed (target operand kind rfl) machine kind
  | write text =>
    have sameOutput : (machine.renamed names).output = machine.output := rfl
    simp only [Effect.renamed, perform_write, sameOutput]
    cases (machine.output.write text).1 <;> rfl
  | ret =>
    have sameCalls : (machine.renamed names).calls = machine.calls := rfl
    simp only [Effect.renamed, Machine.perform, sameCalls]
    cases machine.calls <;> rfl

theorem settle_renamed (performed : Performed) :
    (performed.renamed names).settle = performed.settle.translated names.translation := by
  obtain ⟨machine, events, flow⟩ := performed
  cases flow with
  | error failure => cases failure <;> rfl
  | ok flow => cases flow <;> rfl

/-- The renamed machine executes a renamed instruction as the machine does the instruction. -/
theorem execute_renamed (machine : Machine) (labels : LabelTable) (opcode : Opcode)
    (operands : List Operand) :
    (machine.renamed names).execute (LabelTable.renamed names labels) opcode
        (operands.map (Operand.renamed names)) =
      (machine.execute labels opcode operands).renamed names := by
  have plans : opcode.plan (LabelTable.renamed names labels) (machine.renamed names).frames
      (operands.map (Operand.renamed names)) =
        names.attempt (Effect.renamed names) (opcode.plan labels machine.frames operands) :=
    plan_renamed opcode labels machine.frames operands
  rw [Machine.execute, Machine.execute, plans]
  cases planned : opcode.plan labels machine.frames operands with
  | error failure => rfl
  | ok effect =>
    refine perform_renamed ?_
    rintro target kind rfl
    obtain ⟨rfl, checked, first, _⟩ := plan_eq_read_iff.mp planned
    obtain ⟨_, fill⟩ := checkOperands_eq_ok.mp (checked_iff.mp checked).1
    exact of_decide_eq_true (fill 0 .var target rfl first)

/-- A step of the renamed program from the renamed machine is the renamed step. -/
theorem lockStep_renamed (names : Renaming) (program : Program) :
    LockStep names.translation program (program.renamed names) := by
  intro machine
  change (machine.renamed names).step (program.renamed names) = _
  have fetches : (program.renamed names).instructions[(machine.renamed names).pc]? =
      program.instructions[machine.pc]?.map (Instruction.renamed names) := List.getElem?_map
  cases fetched : program.instructions[machine.pc]? with
  | none =>
    rw [Machine.step, Machine.step, fetches, fetched]
    rfl
  | some instruction =>
    rw [fetched, Option.map_some] at fetches
    cases known : instruction.opcode? with
    | none =>
      have unknown : (instruction.renamed names).opcode? = none := known
      simp only [Machine.step, fetches, fetched, known, unknown]
      rfl
    | some opcode =>
      have dispatched : Dispatches program machine instruction opcode := ⟨fetched, known⟩
      have dispatchedToo : Dispatches (program.renamed names) (machine.renamed names)
          (instruction.renamed names) opcode := ⟨fetches, known⟩
      have executes : (machine.renamed names).counted.execute (program.renamed names).labels opcode
            (instruction.renamed names).operands =
          (machine.counted.execute program.labels opcode instruction.operands).renamed names :=
        execute_renamed machine.counted program.labels opcode instruction.operands
      rw [step_of_dispatches dispatched, step_of_dispatches dispatchedToo, executes,
        settle_renamed]
      rfl

end Steps

/-! ## Runs -/

theorem framed_renamed (names : Renaming) (program : Program) :
    names.translation.Framed program (program.renamed names) where
  started := by simp [Renaming.translation, Event.renamed, Program.size, Program.renamed,
    LabelTable.renamed]
  flushed := by
    intro machine reached
    cases reached with
    | failed error => rfl
    | crashed crash => rfl
    | halted halt =>
      change (machine.renamed names).flushed (.halted halt) = _
      have sameOutput : (machine.renamed names).output = machine.output := rfl
      simp only [Machine.flushed, sameOutput]
      cases machine.output.flush.1 <;> rfl
  closed := by
    intro machine reached
    cases reached <;> rfl
  farewell := by
    intro machine ending
    cases ending <;> rfl

/-- Other names make no other program. For every renaming of variables and labels under which
different names stay different, the renamed records build exactly if the records do, and are
refused for the same reason. The renamed program runs in lock step with the program, from the
same start and on every input: after any number of steps it is at the same place, with the same
open calls, input, output, count of steps and values, with the names renamed in its frames and
in its events. It ends in the same way, up to the renamed names in an error. -/
theorem names_do_not_matter (names : Renaming) :
    (∀ records : List Instruction,
      Program.build (records.map (Instruction.renamed names)) =
        names.built (Program.renamed names) (Program.build records)) ∧
    (∀ (input : Input) (output : Output),
      (Machine.start input output).renamed names = .start input output) ∧
    ∀ (program : Program) (machine : Machine) (fuel : Nat),
      (Run.start (machine.renamed names)).continued (program.renamed names) fuel =
        ((Run.start machine).continued program fuel).translated names.translation ∧
      (machine.renamed names).execution? fuel (program.renamed names) =
        (machine.execution? fuel program).map (Execution.translated names.translation) := by
  refine ⟨build_renamed, fun _ _ => rfl, fun program machine fuel => ⟨?_, ?_⟩⟩
  · exact (lockStep_renamed names program).continued fuel (Run.start machine)
  · exact (lockStep_renamed names program).execution? (framed_renamed names program) fuel machine

/-- The same character in front of every name and label. -/
def Renaming.prefixed (front : Char) : Renaming where
  name text := ⟨front :: text, nofun⟩
  label text := front :: text
  name_injective := fun _ _ same => Subtype.ext (List.cons.inj (congrArg Subtype.val same)).2
  label_injective := fun _ _ same => (List.cons.inj same).2

/-- A program that declares a variable in the temporary frame, assigns it in the local one,
jumps over an EXIT, and asks for the type of a variable that is not declared. -/
def movesFrame : Program :=
  ⟨[⟨1, "CREATEFRAME".toList, []⟩, ⟨2, "DEFVAR".toList, [⟨.var, "TF@x".toList⟩]⟩,
    ⟨3, "PUSHFRAME".toList, []⟩,
    ⟨4, "MOVE".toList, [⟨.var, "LF@x".toList⟩, ⟨.literal .int, ['1']⟩]⟩,
    ⟨5, "JUMP".toList, [⟨.label, ['l']⟩]⟩, ⟨6, "EXIT".toList, [⟨.literal .int, ['0']⟩]⟩,
    ⟨7, "LABEL".toList, [⟨.label, ['l']⟩]⟩, ⟨8, "POPFRAME".toList, []⟩,
    ⟨9, "TYPE".toList, [⟨.var, "TF@x".toList⟩, ⟨.var, "TF@y".toList⟩]⟩], [(['l'], 6)]⟩

/-- With other names the program builds too. It finds the variable under its other name in both
frames and the label under its other name, and fails for the other name of the variable that is
not declared. -/
theorem movesFrame_runs_with_other_names :
    let names := Renaming.prefixed '_'
    let first := Machine.start ⟨[]⟩ .unbounded
    Program.build movesFrame.instructions = .ok movesFrame ∧
    Program.build (movesFrame.instructions.map (Instruction.renamed names)) =
      .ok (movesFrame.renamed names) ∧
    ∃ execution other, first.execution? 9 movesFrame = some execution ∧
      first.execution? 9 (movesFrame.renamed names) = some other ∧
      execution.machine.frames.temporary = some [(['x'], .int 1)] ∧
      other.machine.frames.temporary = some [(['_', 'x'], .int 1)] ∧
      other.machine.pc = execution.machine.pc ∧
      execution.ending = .failed ⟨8, .variableUndefined ⟨.tf, ['y']⟩⟩ ∧
      other.ending = .failed ⟨8, .variableUndefined ⟨.tf, ['_', 'y']⟩⟩ := by
  intro names first
  obtain ⟨builds, _, runs⟩ := names_do_not_matter names
  have built : Program.build movesFrame.instructions = .ok movesFrame := by decide +kernel
  have evaluated : (first.execution? 9 movesFrame).map
      (fun execution => (execution.machine.frames.temporary, execution.ending)) =
        some (some [(['x'], .int 1)], .failed ⟨8, .variableUndefined ⟨.tf, ['y']⟩⟩) := by
    decide +kernel
  obtain ⟨execution, executed, outcome⟩ := Option.map_eq_some_iff.mp evaluated
  obtain ⟨temporary, ending⟩ := Prod.mk.inj outcome
  have executedToo : first.execution? 9 (movesFrame.renamed names) =
      some (execution.translated names.translation) := by
    have same := (runs movesFrame first 9).2
    rw [executed] at same
    exact same
  refine ⟨built, ?_, execution, _, executed, executedToo, temporary, ?_, rfl, ending, ?_⟩
  · rw [builds, built]
    rfl
  · change execution.machine.frames.temporary.map (Frame.renamed names) = _
    rw [temporary]
    rfl
  · change execution.ending.renamed names = _
    rw [ending]
    rfl

end IPPcode24
