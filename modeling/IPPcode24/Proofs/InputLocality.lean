import IPPcode24.Proofs.Restarts
import IPPcode24.Proofs.Rewiring

/-!
# Lines that a run takes

Only a READ looks at the input. It takes one line, whatever the type and whether or not the
line fits it, and a READ of nil takes none. So a run is decided by the lines that it takes:
another input with the same lines in front is read by the same run, and what stands behind
these lines is left as it is.
-/

namespace IPPcode24

/-! ## Lines -/

/-- The first lines of the other input are read as those of the input: as the same texts, and
without a text where a line is missing or is not UTF-8. -/
def Input.SameLines (count : Nat) (input other : Input) : Prop :=
  ∀ index < count, (other.afterLines index).nextLine.1 = (input.afterLines index).nextLine.1

/-- The type of the value that the instruction asks the input for, if it is a READ whose
operands pass the checks. -/
def Instruction.wanted? (instruction : Instruction) : Option Kind :=
  if instruction.opcode? = some .read ∧ checkOperands .read instruction.operands = .ok () then
    instruction.operands[1]?.bind fun type => Kind.ofName? type.text
  else none

/-- How many lines a request for a value of a type takes. -/
def Kind.lines (kind : Kind) : Nat := if kind = .nil then 0 else 1

/-- How many lines the instruction at a place takes. -/
def Program.linesAt (program : Program) (place : Nat) : Nat :=
  match program.instructions[place]?.bind Instruction.wanted? with
  | some kind => kind.lines
  | none => 0

/-- How many lines a run takes in so many more steps. -/
def Run.linesTaken (program : Program) : Nat → Run → Nat
  | 0, _ => 0
  | fuel + 1, run =>
    match run.ending with
    | some _ => 0
    | none => program.linesAt run.machine.pc + linesTaken program fuel (run.advance program)

def Rewiring.reading (input : Input) : Rewiring := ⟨fun _ => input, id⟩

/-! ## Other inputs -/

section Inputs

variable {input other : Input}

theorem Input.afterLines_add (first count : Nat) (input : Input) :
    input.afterLines (first + count) = (input.afterLines first).afterLines count := by
  induction first generalizing input with
  | zero => rw [Nat.zero_add, afterLines]
  | succ first ih => rw [Nat.succ_add, afterLines, afterLines, ih]

theorem Input.SameLines.front {first count : Nat} (alike : input.SameLines (first + count) other) :
    input.SameLines first other :=
  fun index before => alike index (Nat.lt_of_lt_of_le before (Nat.le_add_right first count))

theorem Input.SameLines.back {first count : Nat} (alike : input.SameLines (first + count) other) :
    (input.afterLines first).SameLines count (other.afterLines first) := by
  intro index before
  rw [← Input.afterLines_add, ← Input.afterLines_add]
  exact alike (first + index) (Nat.add_lt_add_left before first)

theorem Input.read_alike {kind : Kind} (alike : input.SameLines kind.lines other) :
    (other.read kind).1 = (input.read kind).1 := by
  by_cases none : kind = .nil
  · subst none
    rfl
  · have next : other.nextLine.1 = input.nextLine.1 := by
      refine alike 0 ?_
      rw [Kind.lines, if_neg none]
      exact Nat.zero_lt_one
    rw [Input.read_fst none, Input.read_fst none, next]

theorem Input.rest_of_read (kind : Kind) (input : Input) :
    (input.read kind).2 = input.afterLines kind.lines := by
  rw [Input.read_snd, Kind.lines]
  split <;> rfl

end Inputs

/-! ## Steps -/

def Effect.lines : Effect → Nat
  | read _ kind => kind.lines
  | _ => 0

section Steps

variable {program : Program} {machine : Machine} {input : Input}

/-- An effect does the same on another input with the same line in front, and takes the line
from it. -/
theorem perform_reading {effect : Effect} (alike : machine.input.SameLines effect.lines input) :
    (machine.rewired (.reading input)).perform effect =
      (machine.perform effect).rewired (.reading (input.afterLines effect.lines)) := by
  cases effect with
  | read target kind =>
    have later : (Rewiring.reading input).output machine.output =
        (Rewiring.reading (input.afterLines kind.lines)).output machine.output := rfl
    refine readInto_rewired ?_ later target
    exact Prod.ext (Input.read_alike alike) (Input.rest_of_read kind input)
  | write text =>
    have sameOutput : (machine.rewired (.reading input)).output = machine.output := rfl
    simp only [perform_write, sameOutput]
    cases (machine.output.write text).1 <;> rfl
  | _ => exact perform_rewired trivial

theorem wanted?_eq_some_iff {instruction : Instruction} {opcode : Opcode} {kind : Kind}
    (dispatched : Dispatches program machine instruction opcode) :
    instruction.wanted? = some kind ↔
      ∃ target, opcode.plan program.labels machine.frames instruction.operands =
        .ok (.read target kind) := by
  have known := dispatched.known
  constructor
  · intro wanted
    rw [Instruction.wanted?] at wanted
    split at wanted
    · rename_i reads
      obtain ⟨isRead, accepted⟩ := reads
      obtain rfl : opcode = .read := Option.some.inj (known.symm.trans isRead)
      obtain ⟨type, second, named⟩ := Option.bind_eq_some_iff.mp wanted
      obtain ⟨enough, fill⟩ := checkOperands_eq_ok.mp accepted
      obtain ⟨target, rest, present⟩ := exists_of_one_le (Nat.le_of_succ_le enough)
      have first : instruction.operands[0]? = some target := by rw [present]; rfl
      exact ⟨target, plan_eq_read_iff.mpr
        ⟨rfl, ⟨enough, fill, nofun, nofun⟩, first, type, second, named⟩⟩
    · cases wanted
  · rintro ⟨target, planned⟩
    obtain ⟨rfl, checked, _, type, second, named⟩ := plan_eq_read_iff.mp planned
    rw [Instruction.wanted?, if_pos ⟨known, (checked_iff.mp checked).1⟩, second]
    exact named

theorem linesAt_of_plans {effect : Effect} (plans : Plans program machine effect) :
    program.linesAt machine.pc = effect.lines := by
  obtain ⟨instruction, opcode, dispatched, planned⟩ := plans
  rw [Program.linesAt, dispatched.fetched, Option.bind_some]
  cases wanted : instruction.wanted? with
  | some kind =>
    obtain ⟨target, plannedToo⟩ := (wanted?_eq_some_iff dispatched).mp wanted
    rw [planned] at plannedToo
    cases plannedToo
    rfl
  | none =>
    cases effect with
    | read target kind =>
      rw [(wanted?_eq_some_iff dispatched).mpr ⟨target, planned⟩] at wanted
      cases wanted
    | _ => rfl

theorem linesAt_of_planless (planless : ∀ effect, ¬ Plans program machine effect) :
    program.linesAt machine.pc = 0 := by
  cases wanted : program.instructions[machine.pc]?.bind Instruction.wanted? with
  | none => rw [Program.linesAt, wanted]
  | some kind =>
    obtain ⟨instruction, fetched, wanted⟩ := Option.bind_eq_some_iff.mp wanted
    have known : instruction.opcode? = some .read := by
      rw [Instruction.wanted?] at wanted
      split at wanted
      · rename_i reads
        exact reads.1
      · cases wanted
    have dispatched : Dispatches program machine instruction .read := ⟨fetched, known⟩
    obtain ⟨target, planned⟩ := (wanted?_eq_some_iff dispatched).mp wanted
    exact absurd ((plans_iff dispatched).mpr planned) (planless _)

/-- A step does the same on another input with the same line in front, if it takes one. It
takes that line from the input and looks at nothing behind it. -/
theorem step_reading (alike : machine.input.SameLines (program.linesAt machine.pc) input) :
    (machine.rewired (.reading input)).step program =
      (machine.step program).rewired
        (.reading (input.afterLines (program.linesAt machine.pc))) := by
  refine step_rewired ?_ ?_
  · intro effect plans
    rw [linesAt_of_plans plans] at alike ⊢
    have counted : machine.counted.input.SameLines effect.lines input := alike
    exact perform_reading counted
  · intro planless
    rw [linesAt_of_planless planless]
    rfl

end Steps

/-! ## Runs -/

section Runs

variable {program : Program}

theorem input_of_step (program : Program) (machine : Machine) :
    (machine.step program).machine.input =
      machine.input.afterLines (program.linesAt machine.pc) := by
  have itself : (machine.rewired (.reading machine.input)).step program = _ :=
    step_reading fun _ _ => rfl
  exact congrArg (fun stepped : Stepped => stepped.machine.input) itself

theorem continued_reading (fuel : Nat) (run : Run) {input : Input}
    (alike : run.machine.input.SameLines (run.linesTaken program fuel) input) :
    (run.rewired (.reading input)).continued program fuel =
      (run.continued program fuel).rewired
        (.reading (input.afterLines (run.linesTaken program fuel))) := by
  -- the induction moves both runs one step on, past the line that the step takes
  induction fuel generalizing run input with
  | zero => rfl
  | succ fuel ih =>
    have sameEnding : (run.rewired (.reading input)).ending = run.ending := rfl
    rw [Run.linesTaken] at alike ⊢
    rw [Run.continued, Run.continued, sameEnding]
    cases ended : run.ending with
    | some reached => rfl
    | none =>
      rw [ended] at alike
      have rest : (run.advance program).machine.input.SameLines
          ((run.advance program).linesTaken program fuel)
          (input.afterLines (program.linesAt run.machine.pc)) := by
        rw [Run.advance_of_going ended, input_of_step]
        rw [Run.advance_of_going ended] at alike
        exact alike.back
      simp only [advance_rewired ended (step_reading alike.front), Input.afterLines_add]
      exact ih (run.advance program) rest

theorem execution?_reading {first : Machine} {fuel : Nat} {input : Input}
    (alike : first.input.SameLines ((Run.start first).linesTaken program fuel) input) :
    (first.rewired (.reading input)).execution? fuel program =
      (first.execution? fuel program).map (Execution.rewired
        (.reading (input.afterLines ((Run.start first).linesTaken program fuel)))) := by
  have runs : (Run.start (first.rewired (.reading input))).continued program fuel = _ :=
    continued_reading fuel (Run.start first) alike
  rw [Machine.execution?, Machine.execution?, runs]
  generalize (Run.start first).continued program fuel = run
  obtain ⟨last, log, ending⟩ := run
  cases ending with
  | none => rfl
  | some reached => cases reached <;> rfl

end Runs

/-- A step takes the lines that its instruction takes, and a step that takes none does not
depend on the input. When an execution has come to its end, it does the same on every input
that has the same lines in front as it has taken: it ends in the same way after as many steps,
at the same place, with the same events, frames, open calls and output, and leaves of either
input what stands behind these lines. -/
theorem run_decided_by_its_lines (program : Program) :
    (∀ (machine : Machine) (input : Input),
      (machine.step program).machine.input =
        machine.input.afterLines (program.linesAt machine.pc) ∧
      (program.linesAt machine.pc = 0 →
        (machine.rewired (.reading input)).step program =
          (machine.step program).rewired (.reading input))) ∧
    ∀ (first : Machine) (other : Input) (fuel : Nat) (execution : Execution),
      first.execution? fuel program = some execution →
      first.input.SameLines ((Run.start first).linesTaken program fuel) other →
        execution.machine.input =
          first.input.afterLines ((Run.start first).linesTaken program fuel) ∧
        (first.rewired (.reading other)).execution? fuel program = some (execution.rewired
          (.reading (other.afterLines ((Run.start first).linesTaken program fuel)))) := by
  refine ⟨fun machine input => ⟨input_of_step program machine, ?_⟩, ?_⟩
  · intro none
    have alike : machine.input.SameLines (program.linesAt machine.pc) input := by
      rw [none]
      exact nofun
    have steps := step_reading alike
    rw [none] at steps
    exact steps
  · intro first other fuel execution executed alike
    have itself : (first.rewired (.reading first.input)).execution? fuel program = _ :=
      execution?_reading fun _ _ => rfl
    have executes := execution?_reading alike
    rw [executed, Option.map_some] at executes
    have same : first.rewired (.reading first.input) = first := rfl
    rw [same, executed, Option.map_some] at itself
    have left := congrArg Execution.machine (Option.some.inj itself)
    exact ⟨congrArg Machine.input left, executes⟩

def readsTwoLines : Program :=
  ⟨[⟨1, "DEFVAR".toList, [⟨.var, "GF@x".toList⟩]⟩,
    ⟨2, "READ".toList, [⟨.var, "GF@x".toList⟩, ⟨.type, "int".toList⟩]⟩,
    ⟨3, "READ".toList, [⟨.var, "GF@x".toList⟩, ⟨.type, "nil".toList⟩]⟩,
    ⟨4, "READ".toList, [⟨.var, "GF@x".toList⟩, ⟨.type, "string".toList⟩]⟩,
    ⟨5, "WRITE".toList, [⟨.var, "GF@x".toList⟩]⟩], []⟩

/-- The program writes the second of the two lines that it takes, with either line ending, and
leaves a third line that the other input does not have. -/
theorem two_lines_are_taken :
    ∃ execution other,
      (Machine.start ⟨Text.utf8 "7\r\nab\r\nc".toList⟩ .unbounded).execution? 9 readsTwoLines =
        some execution ∧
      (Machine.start ⟨Text.utf8 "7\nab".toList⟩ .unbounded).execution? 9 readsTwoLines =
        some other ∧
      readsTwoLines.linesAt 2 = 0 ∧ other.ending = .halted .completed ∧
      other.machine.output.text = "ab".toList ∧ other.log = execution.log ∧
      execution.machine.input = ⟨Text.utf8 ['c']⟩ ∧ other.machine.input = ⟨[]⟩ := by
  let first : Machine := .start ⟨Text.utf8 "7\r\nab\r\nc".toList⟩ .unbounded
  let input : Input := ⟨Text.utf8 "7\nab".toList⟩
  obtain ⟨execution, executed⟩ : ∃ execution, first.execution? 9 readsTwoLines = some execution :=
    Option.isSome_iff_exists.mp (by decide +kernel)
  have taken : (Run.start first).linesTaken readsTwoLines 9 = 2 := by decide +kernel
  have alike : first.input.SameLines ((Run.start first).linesTaken readsTwoLines 9) input := by
    rw [taken]
    unfold Input.SameLines
    decide +kernel
  have left : (first.execution? 9 readsTwoLines).map
      (fun execution => (execution.ending, execution.machine.output.text)) =
        some (.halted .completed, "ab".toList) := by decide +kernel
  rw [executed] at left
  obtain ⟨ending, written⟩ := Prod.mk.inj (Option.some.inj left)
  obtain ⟨rest, executes⟩ :=
    (run_decided_by_its_lines readsTwoLines).2 first input 9 execution executed alike
  rw [taken] at rest executes
  refine ⟨execution, _, executed, executes, by decide +kernel, ending, written, rfl, ?_, ?_⟩
  · rw [rest]
    decide +kernel
  · change input.afterLines 2 = ⟨[]⟩
    decide +kernel

end IPPcode24
