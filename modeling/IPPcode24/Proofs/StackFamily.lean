import IPPcode24.Proofs.LockStep
import IPPcode24.Proofs.Soundness

/-!
# The stack family

An opcode of the stack family says nothing new. What it does is said without it: by the
opcode without the family's letter, with the two symbols of arithmetic, relations and
connectives exchanged, and with only the last symbol of a negation. A program that is
rewritten so runs as before, step by step. Only the opcodes that its events report are
others.
-/

namespace IPPcode24

/-! ## Rewriting -/

namespace Opcode

/-- The opcode without the letter of the stack family. -/
def plain : Opcode → Opcode
  | adds => add
  | subs => sub
  | muls => mul
  | idivs => idiv
  | lts => lt
  | gts => gt
  | eqs => eq
  | ands => and
  | ors => or
  | nots => not
  | int2Chars => int2Char
  | stri2Ints => stri2Int
  | jumpIfEqs => jumpIfEq
  | jumpIfNeqs => jumpIfNeq
  | opcode => opcode

/-- The operands with which the opcode without the letter does the same. -/
def plainOperands : Opcode → List Operand → List Operand
  | adds, target :: first :: second :: rest
  | subs, target :: first :: second :: rest
  | muls, target :: first :: second :: rest
  | idivs, target :: first :: second :: rest
  | lts, target :: first :: second :: rest
  | gts, target :: first :: second :: rest
  | eqs, target :: first :: second :: rest
  | ands, target :: first :: second :: rest
  | ors, target :: first :: second :: rest => target :: second :: first :: rest
  | nots, target :: _ :: last :: rest => target :: last :: rest
  | _, operands => operands

end Opcode

def Instruction.plain (instruction : Instruction) : Instruction :=
  match instruction.opcode? with
  | some opcode =>
    if opcode.isStack then
      { instruction with
        mnemonic := opcode.plain.mnemonic.toList
        operands := opcode.plainOperands instruction.operands }
    else instruction
  | none => instruction

def Program.plain (program : Program) : Program :=
  ⟨program.instructions.map Instruction.plain, program.labels⟩

/-- The event with the opcode that the rewritten program reports. -/
def Event.plain : Event → Event
  | dispatched place opcode => dispatched place opcode.plain
  | event => event

def Run.plain (run : Run) : Run := { run with log := run.log.map Event.plain }

def Execution.plain (execution : Execution) : Execution :=
  { execution with log := execution.log.map Event.plain }

/-! ## Plans -/

/-- The operands pass the checks of their classes, also a third one of NOTS. -/
structure Opcode.Passes (opcode : Opcode) (operands : List Operand) : Prop where
  checked : checkOperands opcode operands = .ok ()
  symbol : opcode = .nots → ∀ third, operands[2]? = some third →
    third.operandClass.isSymbol = true

/-- The instruction has an opcode, and its operands pass the checks. -/
def Instruction.Passes (instruction : Instruction) : Prop :=
  ∃ opcode, instruction.opcode? = some opcode ∧ opcode.Passes instruction.operands

namespace Opcode

theorem action_plain (opcode : Opcode) : opcode.plain.action = opcode.action := by
  cases opcode <;> rfl

variable {opcode : Opcode} {operands : List Operand}

theorem Passes.checked_plain (passes : opcode.Passes operands) :
    checkOperands opcode.plain (opcode.plainOperands operands) = .ok () := by
  obtain ⟨checked, symbol⟩ := passes
  rw [checkOperands_eq_ok] at checked ⊢
  obtain ⟨enough, fill⟩ := checked
  cases opcode with
  | adds | subs | muls | idivs | lts | gts | eqs | ands | ors =>
    obtain ⟨target, first, second, rest, rfl⟩ := exists_of_three_le enough
    refine ⟨enough, ?_⟩
    obtain ⟨isVar, fill⟩ := fill_cons.mp fill
    obtain ⟨firstSymbol, fill⟩ := fill_cons.mp fill
    obtain ⟨secondSymbol, fill⟩ := fill_cons.mp fill
    have swapped := fill_cons.mpr ⟨secondSymbol, fill_cons.mpr ⟨firstSymbol, Fill.nil rest⟩⟩
    exact fill_cons.mpr ⟨isVar, swapped⟩
  | nots =>
    obtain ⟨target, second, rest, rfl⟩ := exists_of_two_le enough
    cases rest with
    | nil => exact ⟨enough, fill⟩
    | cons last rest =>
      have isVar := (fill_cons.mp fill).1
      have lastSymbol := symbol rfl last rfl
      exact ⟨Nat.le_add_left 2 rest.length,
        fill_cons.mpr ⟨isVar, fill_cons.mpr ⟨lastSymbol, Fill.nil rest⟩⟩⟩
  | _ => exact ⟨enough, fill⟩

theorem Passes.plan_plain (passes : opcode.Passes operands) (labels : LabelTable)
    (frames : Frames) :
    opcode.plain.plan labels frames (opcode.plainOperands operands) =
      opcode.plan labels frames operands := by
  have enough := (checkOperands_eq_ok.mp passes.checked).1
  rw [plan_of_checked passes.checked_plain, plan_of_checked passes.checked, action_plain]
  cases opcode with
  | adds | subs | muls | idivs | lts | gts | eqs | ands | ors =>
    obtain ⟨target, first, second, rest, rfl⟩ := exists_of_three_le enough
    rfl
  | nots =>
    obtain ⟨target, second, rest, rfl⟩ := exists_of_two_le enough
    cases rest with
    | nil => rfl
    | cons last rest =>
      have lastSymbol : checkClass .symbol 2 last.operandClass = .ok () :=
        checkClass_eq_ok.mpr (passes.symbol rfl last rfl)
      have negatesLast : negated .reversed (target :: second :: last :: rest) = .ok last := by
        simp [negated, lastSymbol]
      change Action.negation.plan labels frames .written (target :: last :: rest) =
        Action.negation.plan labels frames .reversed (target :: second :: last :: rest)
      rw [Action.plan, Action.plan, negatesLast]
      rfl
  | _ => rfl

theorem Passes.execute_plain (passes : opcode.Passes operands) (machine : Machine)
    (labels : LabelTable) :
    machine.execute labels opcode.plain (opcode.plainOperands operands) =
      machine.execute labels opcode operands := by
  rw [Machine.execute, passes.plan_plain, Machine.execute]

/-- Outside the family nothing is rewritten. -/
theorem plain_of_not_stack (other : ¬ opcode.isStack = true) :
    opcode.plain = opcode ∧ ∀ operands, opcode.plainOperands operands = operands := by
  cases opcode with
  | adds | subs | muls | idivs | lts | gts | eqs | ands | ors | nots | int2Chars | stri2Ints
  | jumpIfEqs | jumpIfNeqs => exact absurd rfl other
  | _ => exact ⟨rfl, fun _ => rfl⟩

end Opcode

namespace Instruction

variable {instruction : Instruction} {opcode : Opcode}

theorem plain_eq (known : instruction.opcode? = some opcode) :
    instruction.plain =
      if opcode.isStack then
        { instruction with
          mnemonic := opcode.plain.mnemonic.toList
          operands := opcode.plainOperands instruction.operands }
      else instruction := by
  simp only [plain, known]

theorem opcode?_plain (known : instruction.opcode? = some opcode) :
    instruction.plain.opcode? = some opcode.plain := by
  rw [plain_eq known]
  split
  · exact opcode.plain.ofMnemonic?_mnemonic
  · rename_i other
    rw [known, (Opcode.plain_of_not_stack other).1]

theorem operands_plain (known : instruction.opcode? = some opcode) :
    instruction.plain.operands = opcode.plainOperands instruction.operands := by
  rw [plain_eq known]
  split
  · rfl
  · rename_i other
    rw [(Opcode.plain_of_not_stack other).2]

@[simp] theorem order_plain (instruction : Instruction) :
    instruction.plain.order = instruction.order := by
  cases known : instruction.opcode? with
  | none => simp only [plain, known]
  | some opcode =>
    rw [plain_eq known]
    split <;> rfl

/-- A label instruction is not rewritten, and no other one becomes a label instruction. -/
theorem plain_of_isLabel (isLabel : instruction.isLabel = true) :
    instruction.plain = instruction := by
  rw [plain_eq (isLabel_iff.mp isLabel)]
  rfl

theorem isLabel_plain (instruction : Instruction) :
    instruction.plain.isLabel = instruction.isLabel := by
  cases known : instruction.opcode? with
  | none => simp only [plain, known]
  | some opcode =>
    rw [Bool.eq_iff_iff, isLabel_iff, isLabel_iff, opcode?_plain known, known]
    cases opcode <;> decide

/-- Proper instructions pass the checks; NOTS has no third operand then. -/
theorem Proper.passes (proper : instruction.Proper) : instruction.Passes := by
  obtain ⟨opcode, same, fits⟩ := proper
  refine ⟨opcode, ?_, ?_, ?_⟩
  · rw [opcode?, same, opcode.ofMnemonic?_mnemonic]
  · exact checkOperands_eq_ok.mpr ⟨Nat.le_of_eq fits.length_eq.symm, fits.fill⟩
  · rintro rfl third found
    have past := (List.getElem?_eq_some_iff.mp found).1
    rw [fits.length_eq] at past
    exact absurd past (Nat.lt_irrefl 2)

end Instruction

/-! ## Building -/

namespace Program

theorem sorted_map_plain (records : List Instruction) :
    sorted (records.map Instruction.plain) = (sorted records).map Instruction.plain := by
  refine sorted_map fun a _ b _ => ?_
  rw [Instruction.order_plain, Instruction.order_plain]

theorem scan_map_plain (records : List Instruction) :
    LabelTable.scan (records.map Instruction.plain) = LabelTable.scan records :=
  LabelTable.scanFrom_map Instruction.isLabel_plain
    (fun _ isLabel => congrArg LabelTable.declaredName? (Instruction.plain_of_isLabel isLabel))
    0 [] records

theorem build_map_plain (records : List Instruction) :
    build (records.map Instruction.plain) = (build records).map Program.plain := by
  have keys : (records.map Instruction.plain).map (·.order) = records.map (·.order) := by
    simp
  rw [build, build, keys]
  split
  · rfl
  · simp only [sorted_map_plain, scan_map_plain]
    cases LabelTable.scan (sorted records) <;> rfl

end Program

/-! ## Steps and runs -/

section Runs

variable {program : Program}

/-- An effect reports no opcode. -/
theorem perform_events_plain (machine : Machine) (effect : Effect) :
    (machine.perform effect).events.map Event.plain = (machine.perform effect).events := by
  have silent (machine : Machine) (result : Except FrameError Frames) :
      (machine.withFrames result fun _ => []).events = [] := by cases result <;> rfl
  cases effect with
  | pass | createFrame | jump _ | call _ | exit _ | print _ | inspect => rfl
  | define ref | assign ref value => rw [Machine.perform, silent, List.map_nil]
  | pushFrame =>
    simp only [Machine.perform]
    cases machine.frames.push <;> rfl
  | popFrame =>
    simp only [Machine.perform]
    cases machine.frames.pop <;> rfl
  | write text =>
    simp only [Machine.perform]
    split <;> rfl
  | ret =>
    simp only [Machine.perform]
    split <;> rfl
  | read target kind =>
    rw [Machine.perform]
    rcases readInto_cases machine target kind with
      ⟨crash, _, same⟩ | ⟨failure, _, same⟩ | ⟨value, ref, _, same⟩
    · rw [same, List.map_nil]
    · rw [same, List.map_nil]
    · rw [same, silent, List.map_nil]

theorem execute_events_plain (machine : Machine) (labels : LabelTable) (opcode : Opcode)
    (operands : List Operand) :
    (machine.execute labels opcode operands).events.map Event.plain =
      (machine.execute labels opcode operands).events := by
  rw [Machine.execute]
  split
  · exact perform_events_plain machine _
  · rfl

/-- A step of the rewritten program leaves the same machine and ends in the same way. Its
events report the opcodes of the rewritten program. -/
theorem step_plain (passes : ∀ instruction ∈ program.instructions, instruction.Passes)
    (machine : Machine) :
    (machine.step program.plain).machine = (machine.step program).machine ∧
    (machine.step program.plain).ending = (machine.step program).ending ∧
    (machine.step program.plain).events = (machine.step program).events.map Event.plain := by
  simp only [Machine.step, Program.plain, List.getElem?_map]
  cases fetched : program.instructions[machine.pc]? with
  | none => exact ⟨rfl, rfl, rfl⟩
  | some instruction =>
    obtain ⟨opcode, known, passes⟩ := passes instruction (List.mem_of_getElem? fetched)
    simp only [Option.map_some, Instruction.opcode?_plain known, Instruction.operands_plain known,
      known]
    rw [passes.execute_plain]
    refine ⟨rfl, rfl, ?_⟩
    rw [Performed.settle_events, List.map_cons, execute_events_plain]
    rfl

theorem lockStep_plain (passes : ∀ instruction ∈ program.instructions, instruction.Passes) :
    LockStep (.telling Event.plain) program program.plain :=
  LockStep.of_step (step_plain passes)

theorem continued_plain (passes : ∀ instruction ∈ program.instructions, instruction.Passes)
    (fuel : Nat) (run : Run) :
    run.plain.continued program.plain fuel = (run.continued program fuel).plain := by
  have runs := (lockStep_plain passes).continued fuel run
  rw [Run.translated_telling, Run.translated_telling] at runs
  exact runs

theorem framed_plain (program : Program) :
    (Translation.telling Event.plain).Framed program program.plain := by
  constructor
  · have size : program.plain.size = program.size := List.length_map _
    rw [size]
    rfl
  · intro machine reached
    rfl
  · intro machine reached
    rfl
  · intro machine ending
    cases ending <;> rfl

theorem execution?_plain (passes : ∀ instruction ∈ program.instructions, instruction.Passes)
    (fuel : Nat) (machine : Machine) :
    machine.execution? fuel program.plain =
      (machine.execution? fuel program).map Execution.plain :=
  (lockStep_plain passes).execution? (framed_plain program) fuel machine

/-- Assembled programs pass the checks. A program whose instructions do, built or not, runs
on any machine in lock step with its rewriting: after any number of steps the machines are
the same, and the runs have ended in the same way or not at all. The rewritten records build
the rewritten program. -/
theorem plain_program_in_lock_step :
    (∀ (text : Text) (records : List Instruction) (program : Program),
      Source.assemble text = .ok records → Program.build records = .ok program →
        ∀ instruction ∈ program.instructions, instruction.Passes) ∧
    ∀ program : Program, (∀ instruction ∈ program.instructions, instruction.Passes) →
      (∀ records, Program.build records = .ok program →
        Program.build (records.map Instruction.plain) = .ok program.plain) ∧
      ∀ (machine : Machine) (fuel : Nat),
        (Run.start machine).continued program.plain fuel =
          ((Run.start machine).continued program fuel).plain ∧
        machine.execution? fuel program.plain =
          (machine.execution? fuel program).map Execution.plain := by
  refine ⟨?_, fun program passes => ⟨?_, fun machine fuel => ⟨?_, ?_⟩⟩⟩
  · intro text records program assembled built instruction member
    rw [(Program.build_eq_ok built).1, Program.mem_sorted] at member
    exact ((keyed_and_proper_of_assemble assembled).2 instruction member).passes
  · intro records built
    rw [Program.build_map_plain, built]
    rfl
  · exact continued_plain passes fuel (Run.start machine)
  · exact execution?_plain passes fuel machine

end Runs

/-- Records of all three kinds of rewriting: exchanged symbols, a last symbol, and operands
that stay. The last one divides by zero. -/
def stackRecords : List Instruction :=
  [⟨1, "DEFVAR".toList, [⟨.var, "GF@x".toList⟩]⟩,
    ⟨2, "subs".toList, [⟨.var, "GF@x".toList⟩, ⟨.literal .int, ['2']⟩, ⟨.literal .int, ['9']⟩]⟩,
    ⟨3, "Nots".toList, [⟨.var, "GF@x".toList⟩, ⟨.var, "GF@x".toList⟩,
      ⟨.literal .bool, "true".toList⟩]⟩,
    ⟨4, "INT2CHARS".toList, [⟨.var, "GF@x".toList⟩, ⟨.literal .int, "65".toList⟩]⟩,
    ⟨5, "IDIVS".toList, [⟨.var, "GF@x".toList⟩, ⟨.literal .int, ['0']⟩, ⟨.literal .int, ['5']⟩]⟩]

/-- The same records without the stack family. -/
def plainRecords : List Instruction :=
  [⟨1, "DEFVAR".toList, [⟨.var, "GF@x".toList⟩]⟩,
    ⟨2, "SUB".toList, [⟨.var, "GF@x".toList⟩, ⟨.literal .int, ['9']⟩, ⟨.literal .int, ['2']⟩]⟩,
    ⟨3, "NOT".toList, [⟨.var, "GF@x".toList⟩, ⟨.literal .bool, "true".toList⟩]⟩,
    ⟨4, "INT2CHAR".toList, [⟨.var, "GF@x".toList⟩, ⟨.literal .int, "65".toList⟩]⟩,
    ⟨5, "IDIV".toList, [⟨.var, "GF@x".toList⟩, ⟨.literal .int, ['5']⟩, ⟨.literal .int, ['0']⟩]⟩]

/-- Both programs stop at the division, and so does the machine of either. -/
theorem plain_records_divide_by_zero :
    ∃ program execution, Program.build stackRecords = .ok program ∧
      (∀ instruction ∈ program.instructions, instruction.Passes) ∧
      Program.build plainRecords = .ok program.plain ∧
      (Machine.start ⟨[]⟩ .unbounded).execution? 9 program = some execution ∧
      execution.ending = .failed ⟨4, .divisionByZero⟩ ∧
      execution.machine.frames = ⟨[(['x'], .string ['A'])], none, []⟩ ∧
      (Machine.start ⟨[]⟩ .unbounded).execution? 9 program.plain = some execution.plain := by
  let program : Program := ⟨stackRecords, []⟩
  have built : Program.build stackRecords = .ok program := by decide +kernel
  have rewritten : stackRecords.map Instruction.plain = plainRecords := by decide +kernel
  have passes : ∀ instruction ∈ program.instructions, instruction.Passes := by
    intro instruction member
    have cases : instruction ∈ stackRecords := member
    simp only [stackRecords, List.mem_cons, List.not_mem_nil, or_false] at cases
    rcases cases with rfl | rfl | rfl | rfl | rfl
    · exact ⟨.defVar, by decide, by decide, nofun⟩
    · exact ⟨.subs, by decide, by decide, nofun⟩
    · refine ⟨.nots, by decide, by decide, fun _ third found => ?_⟩
      cases found
      rfl
    · exact ⟨.int2Chars, by decide, by decide, nofun⟩
    · exact ⟨.idivs, by decide, by decide, nofun⟩
  obtain ⟨builds, lockStep⟩ := plain_program_in_lock_step.2 program passes
  have rebuilt := builds stackRecords built
  rw [rewritten] at rebuilt
  obtain ⟨execution, executed⟩ : ∃ execution,
      (Machine.start ⟨[]⟩ .unbounded).execution? 9 program = some execution :=
    Option.isSome_iff_exists.mp (by decide +kernel)
  have left : ((Machine.start ⟨[]⟩ .unbounded).execution? 9 program).map
      (fun execution => (execution.ending, execution.machine.frames)) =
        some (.failed ⟨4, .divisionByZero⟩, ⟨[(['x'], .string ['A'])], none, []⟩) := by
    decide +kernel
  have again := (lockStep (Machine.start ⟨[]⟩ .unbounded) 9).2
  rw [executed] at again left
  obtain ⟨ending, frames⟩ := Prod.mk.inj (Option.some.inj left)
  exact ⟨program, execution, built, passes, rebuilt, executed, ending, frames, again⟩

end IPPcode24
