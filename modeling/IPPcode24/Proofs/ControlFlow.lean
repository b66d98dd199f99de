import IPPcode24.Proofs.Endings
import IPPcode24.Proofs.Programs
import IPPcode24.Proofs.Reachable
import IPPcode24.Proofs.Targets

/-!
# Control flow

The instructions of a program are not checked before they are executed, so an
invariant is carried along: the program counter never passes the end of the program,
and every return address follows a CALL. A step that goes on goes to the next
instruction, to a label that the instruction names, or back to the latest return
address. This holds from a fresh machine on, in any number of executions.
-/

namespace IPPcode24

/-- The instruction at a place declares the label with a name. -/
def LabelAt (program : Program) (name : Text) (place : Nat) : Prop :=
  ∃ instruction, program.instructions[place]? = some instruction ∧
    instruction.opcode? = some .label ∧ LabelTable.declaredName? instruction = some name

/-- A place to return to is the one after a CALL. -/
def FollowsCall (program : Program) (place : Nat) : Prop :=
  ∃ caller instruction, place = caller + 1 ∧
    program.instructions[caller]? = some instruction ∧ instruction.opcode? = some .call

/-- The control of a machine is within its program. -/
structure InControl (program : Program) (machine : Machine) : Prop where
  within : machine.pc ≤ program.size
  returns : ∀ place ∈ machine.calls, FollowsCall program place

/-- Where the control of a machine can be after a step: the place of the next
instruction, and the return addresses. -/
inductive Moved (program : Program) (machine : Machine) : Nat → CallStack → Prop where
  | stays (ended : (machine.step program).ending ≠ none) :
      Moved program machine machine.pc machine.calls
  | next {instruction : Instruction} {opcode : Opcode}
      (dispatched : Dispatches program machine instruction opcode) :
      Moved program machine (machine.pc + 1) machine.calls
  | jump {instruction : Instruction} {opcode : Opcode} {operand : Operand} {place : Nat}
      (dispatched : Dispatches program machine instruction opcode)
      (jumps : opcode ∈ Opcode.jumps) (first : instruction.operands[0]? = some operand)
      (label : LabelAt program operand.text place) :
      Moved program machine place machine.calls
  | call {instruction : Instruction} {operand : Operand} {place : Nat}
      (dispatched : Dispatches program machine instruction .call)
      (first : instruction.operands[0]? = some operand)
      (label : LabelAt program operand.text place) :
      Moved program machine place ((machine.pc + 1) :: machine.calls)
  | ret {instruction : Instruction} {place : Nat} {calls : CallStack}
      (dispatched : Dispatches program machine instruction .ret)
      (top : machine.calls = place :: calls) : Moved program machine place calls

section Steps

variable {records : List Instruction} {program : Program} {machine : Machine}

theorem moved_of_performed {instruction : Instruction} {opcode : Opcode} {effect : Effect}
    {flow : Flow} (built : Program.build records = .ok program)
    (dispatched : Dispatches program machine instruction opcode)
    (planned : opcode.plan program.labels machine.frames instruction.operands = .ok effect)
    (performed : (machine.counted.perform effect).flow = .ok flow)
    (ended : (machine.step program).ending =
      (flow.settle (machine.counted.perform effect).machine).2) :
    Moved program machine (flow.settle (machine.counted.perform effect).machine).1.pc
      (flow.settle (machine.counted.perform effect).machine).1.calls := by
  have moves := moves_of_perform performed
  generalize calls : (machine.counted.perform effect).machine.calls = after at moves
  cases moves with
  | next =>
    change Moved program machine ((machine.counted.perform effect).machine.pc + 1)
      (machine.counted.perform effect).machine.calls
    rw [perform_pc, calls]
    exact .next dispatched
  | jump =>
    obtain ⟨jumps, operand, first, resolved⟩ := target_of_plan_jump planned
    exact .jump dispatched jumps first (Program.label_of_resolve? built resolved)
  | call =>
    obtain ⟨rfl, operand, first, resolved⟩ := target_of_plan_call planned
    exact .call dispatched first (Program.label_of_resolve? built resolved)
  | ret top =>
    obtain rfl := (plan_eq_ok_iff_of_bare .ret).mp planned
    change Moved program machine _ (machine.counted.perform .ret).machine.calls
    rw [calls]
    exact .ret dispatched top
  | exit =>
    refine .stays ?_
    rw [ended]
    exact nofun

theorem moved_of_step (built : Program.build records = .ok program) (machine : Machine) :
    Moved program machine (machine.step program).machine.pc
      (machine.step program).machine.calls := by
  have transition := transition_of_step program machine
  generalize hnext : (machine.step program).machine = next at transition
  generalize hended : (machine.step program).ending = ended at transition
  cases transition with
  | completed past =>
    exact .stays (by rw [hended]; exact nofun)
  | unknown fetched unknown =>
    exact .stays (by rw [hended]; exact nofun)
  | planless dispatched failed =>
    exact .stays (by rw [hended]; exact nofun)
  | refused dispatched planned refused =>
    rw [perform_pc, perform_calls_of_refused refused]
    exact .stays (by rw [hended]; exact nofun)
  | performed dispatched planned performed =>
    exact moved_of_performed built dispatched planned performed hended

theorem lt_size_of_getElem? {place : Nat} {instruction : Instruction}
    (found : program.instructions[place]? = some instruction) : place < program.size :=
  (List.getElem?_eq_some_iff.mp found).1

theorem FollowsCall.le_size {place : Nat} (follows : FollowsCall program place) :
    place ≤ program.size := by
  obtain ⟨caller, instruction, rfl, found, _⟩ := follows
  exact lt_size_of_getElem? found

/-- A step keeps the control within the program. -/
theorem InControl.step (built : Program.build records = .ok program)
    (control : InControl program machine) : InControl program (machine.step program).machine := by
  have moved := moved_of_step built machine
  generalize hpc : (machine.step program).machine.pc = pc at moved
  generalize hcalls : (machine.step program).machine.calls = calls at moved
  suffices kept : pc ≤ program.size ∧ ∀ place ∈ calls, FollowsCall program place from
    ⟨hpc ▸ kept.1, hcalls ▸ kept.2⟩
  cases moved with
  | stays ended => exact ⟨control.within, control.returns⟩
  | next dispatched => exact ⟨lt_size_of_getElem? dispatched.fetched, control.returns⟩
  | jump dispatched jumps first label =>
    obtain ⟨target, found, _⟩ := label
    exact ⟨Nat.le_of_lt (lt_size_of_getElem? found), control.returns⟩
  | call dispatched first label =>
    obtain ⟨target, found, _⟩ := label
    refine ⟨Nat.le_of_lt (lt_size_of_getElem? found), fun place member => ?_⟩
    rcases List.mem_cons.mp member with rfl | member
    · exact ⟨machine.pc, _, rfl, dispatched.fetched, dispatched.known⟩
    · exact control.returns place member
  | ret dispatched top =>
    -- a return address can be anything unless it follows a CALL, which puts it within
    have follows := control.returns
    rw [top] at follows
    exact ⟨(follows _ List.mem_cons_self).le_size,
      fun place member => follows place (List.mem_cons_of_mem _ member)⟩

theorem InControl.next (built : Program.build records = .ok program)
    (control : InControl program machine) : InControl program (machine.next program) := by
  have kept := control.step built
  exact ⟨next_pc ▸ kept.within, next_calls ▸ kept.returns⟩

end Steps

theorem no_absentOperand {program : Program} (machine : Machine) :
    (machine.step program).ending ≠ some (.crashed .absentOperand) := by
  intro ended
  rcases ending_of_step ended with ⟨halt, impossible⟩ | ⟨failure, same, failing⟩
  · cases impossible
  · rw [Failure.ending_eq_crashed same.symm] at failing
    cases failing.crash_eq

theorem no_internal {program : Program} {machine : Machine} (short : ShortTexts program machine)
    (place : Nat) (fault : InternalFault) :
    (machine.step program).ending ≠ some (.failed ⟨place, .internal fault⟩) := by
  intro ended
  rcases ending_of_step ended with ⟨halt, impossible⟩ | ⟨failure, same, failing⟩
  · cases impossible
  · rw [Failure.ending_eq_failed same.symm] at failing
    exact not_failing_internal short fault failing

/-- From a fresh machine on, whatever the instructions, the input and the number of
executions: the control stays within the program, every step moves it in one of the
listed ways, no step asks for an operand that is not there, and none fails with an
internal fault while the texts are short. The same is true of how an execution that
starts there ends. -/
theorem control_of_reachable {records : List Instruction} {program : Program}
    (built : Program.build records = .ok program) {input : Input} {output : Output}
    {machine : Machine} (reached : Reachable program (Machine.start input output) machine) :
    InControl program machine ∧
      Moved program machine (machine.step program).machine.pc
        (machine.step program).machine.calls ∧
      (machine.step program).ending ≠ some (.crashed .absentOperand) ∧
      (ShortTexts program machine → ∀ (place : Nat) (fault : InternalFault),
        (machine.step program).ending ≠ some (.failed ⟨place, .internal fault⟩)) ∧
      ∀ (fuel : Nat) (execution : Execution),
        machine.execution? fuel program = some execution →
          InControl program execution.machine ∧ execution.ending ≠ .crashed .absentOperand ∧
          ((∀ passed, Passes program machine passed → ShortTexts program passed) →
            ∀ (place : Nat) (fault : InternalFault),
              execution.ending ≠ .failed ⟨place, .internal fault⟩) := by
  have controlled {other : Machine}
      (reached : Reachable program (Machine.start input output) other) :
      InControl program other := by
    -- of the listed facts only this one depends on how the machine was reached
    refine reached.invariant ?_ (InControl.next built)
    exact ⟨Nat.zero_le _, fun place member => absurd member List.not_mem_nil⟩
  refine ⟨controlled reached, moved_of_step built machine, no_absentOperand machine,
    fun short => no_internal short, ?_⟩
  intro fuel execution executed
  obtain ⟨last, passed, same, ending, ended, flushed⟩ := exists_passes_of_execution executed
  refine ⟨?_, ?_, ?_⟩
  · rw [same]
    exact controlled (reached.trans passed.reachable).step
  · rw [flushed]
    rcases flushed_cases (last.step program).machine ending with unchanged | ⟨error, failed⟩
    · rw [unchanged]
      rintro rfl
      exact no_absentOperand last ended
    · rw [failed]
      exact nofun
  · intro short place fault
    rw [flushed]
    rcases flushed_cases (last.step program).machine ending with unchanged | ⟨error, failed⟩
    · rw [unchanged]
      rintro rfl
      exact no_internal (short last passed) place fault ended
    · rw [failed]
      exact nofun

def callAndReturn : List Instruction :=
  [⟨8, "Label".toList, [⟨.label, "sub".toList⟩]⟩, ⟨9, "RETURN".toList, []⟩,
    ⟨5, "call".toList, [⟨.label, "sub".toList⟩]⟩, ⟨7, "EXIT".toList, [⟨.literal .int, ['3']⟩]⟩]

/-- Inside the subroutine the place after the CALL is open, and RETURN goes there. -/
theorem control_inside_subroutine :
    ∃ program machine, Program.build callAndReturn = .ok program ∧
      Reachable program (Machine.start ⟨[]⟩ .unbounded) machine ∧
      machine.pc = 3 ∧ machine.calls = [1] ∧ InControl program machine ∧
      Moved program machine (machine.step program).machine.pc [] := by
  let program : Program := ⟨Program.sorted callAndReturn, [("sub".toList, 2)]⟩
  have built : Program.build callAndReturn = .ok program := by decide +kernel
  have reached : Reachable program (Machine.start ⟨[]⟩ .unbounded) _ := .step (.step .start)
  obtain ⟨control, moved, _⟩ := control_of_reachable built reached
  exact ⟨program, _, built, reached, by decide +kernel, by decide +kernel, control, moved⟩

end IPPcode24
