import IPPcode24.Machine.Run
import IPPcode24.Proofs.Obstacles

/-!
# Steps

A step comes to one of four things: there is no instruction left, the instruction
has no known opcode, it has no plan, or its planned effect acts on the machine.
Everything that later theorems say about one step is read off this case
distinction and off the two lists of what an effect does to the open calls and of
how it can be refused.
-/

namespace IPPcode24

/-- The next instruction of a machine, and its opcode. -/
structure Dispatches (program : Program) (machine : Machine) (instruction : Instruction)
    (opcode : Opcode) : Prop where
  fetched : program.instructions[machine.pc]? = some instruction
  known : instruction.opcode? = some opcode

theorem Dispatches.unique {program : Program} {machine : Machine}
    {instruction other : Instruction} {opcode otherOpcode : Opcode}
    (dispatched : Dispatches program machine instruction opcode)
    (dispatchedToo : Dispatches program machine other otherOpcode) :
    other = instruction ∧ otherOpcode = opcode := by
  obtain rfl : other = instruction :=
    Option.some.inj (dispatchedToo.fetched.symm.trans dispatched.fetched)
  exact ⟨rfl, Option.some.inj (dispatchedToo.known.symm.trans dispatched.known)⟩

/-- The machine that has counted its next instruction. -/
def Machine.counted (machine : Machine) : Machine := { machine with steps := machine.steps + 1 }

/-- How a run ends when the instruction at a place fails. -/
def Failure.ending (place : Nat) : Failure Fault → Ending
  | error fault => .failed ⟨place, fault⟩
  | crash reason => .crashed reason

/-- The machine after an effect that told where the run goes, and the end of the run
if it goes nowhere. -/
def Flow.settle (machine : Machine) : Flow → Machine × Option Ending
  | next => ({ machine with pc := machine.pc + 1 }, none)
  | jump place => ({ machine with pc := place }, none)
  | exit code => (machine, some (.halted (.exit code)))

/-- What a step can come to: the machine after it, and the end of the run if the step
ended it. -/
inductive Transition (program : Program) (machine : Machine) : Machine → Option Ending → Prop where
  | completed (past : program.instructions[machine.pc]? = none) :
      Transition program machine machine (some (.halted .completed))
  | unknown {instruction : Instruction}
      (fetched : program.instructions[machine.pc]? = some instruction)
      (unknown : instruction.opcode? = none) :
      Transition program machine machine
        (some (.failed ⟨machine.pc, .unknownOpcode instruction.mnemonic⟩))
  | planless {instruction : Instruction} {opcode : Opcode} {failure : Failure Fault}
      (dispatched : Dispatches program machine instruction opcode)
      (failed : opcode.plan program.labels machine.frames instruction.operands =
        .error failure) :
      Transition program machine machine.counted (some (failure.ending machine.pc))
  | refused {instruction : Instruction} {opcode : Opcode} {effect : Effect}
      {failure : Failure Fault} (dispatched : Dispatches program machine instruction opcode)
      (planned : opcode.plan program.labels machine.frames instruction.operands = .ok effect)
      (refused : (machine.counted.perform effect).flow = .error failure) :
      Transition program machine (machine.counted.perform effect).machine
        (some (failure.ending machine.pc))
  | performed {instruction : Instruction} {opcode : Opcode} {effect : Effect} {flow : Flow}
      (dispatched : Dispatches program machine instruction opcode)
      (planned : opcode.plan program.labels machine.frames instruction.operands = .ok effect)
      (performed : (machine.counted.perform effect).flow = .ok flow) :
      Transition program machine
        (flow.settle (machine.counted.perform effect).machine).1
        (flow.settle (machine.counted.perform effect).machine).2

theorem Performed.settle_of_error {performed : Performed} {failure : Failure Fault}
    (refused : performed.flow = .error failure) :
    performed.settle.machine = performed.machine ∧
      performed.settle.ending = some (failure.ending performed.machine.pc) := by
  rw [Performed.settle]
  cases failure with
  | error fault => simp [refused, Failure.ending]
  | crash reason => simp [refused, Failure.ending]

theorem Performed.settle_of_ok {performed : Performed} {flow : Flow}
    (succeeded : performed.flow = .ok flow) :
    performed.settle.machine = (flow.settle performed.machine).1 ∧
      performed.settle.ending = (flow.settle performed.machine).2 := by
  rw [Performed.settle]
  cases flow with
  | next | jump place | exit code => simp [succeeded, Flow.settle]

theorem Performed.settle_events (performed : Performed) :
    performed.settle.events = performed.events := by
  rw [settle]
  split <;> rfl

/-- How an effect that succeeds moves the control: where the run goes, and which calls
are open then. -/
inductive Moves (machine : Machine) : Effect → Flow → CallStack → Prop where
  | next {effect : Effect} : Moves machine effect .next machine.calls
  | jump {place : Nat} : Moves machine (.jump place) (.jump place) machine.calls
  | call {place : Nat} :
      Moves machine (.call place) (.jump place) ((machine.pc + 1) :: machine.calls)
  | ret {place : Nat} {calls : CallStack} (top : machine.calls = place :: calls) :
      Moves machine .ret (.jump place) calls
  | exit {code : Fin 10} : Moves machine (.exit code) (.exit code) machine.calls

/-- How an effect is refused. -/
inductive Refusal (machine : Machine) : Effect → Failure Fault → Prop where
  | define {ref : Variable} {error : FrameError}
      (refused : machine.frames.define ref = .error error) :
      Refusal machine (.define ref) (.error error.fault)
  | assign {ref : Variable} {value : Value} {error : FrameError}
      (refused : machine.frames.set ref value = .error error) :
      Refusal machine (.assign ref value) (.error error.fault)
  | push {error : FrameError} (refused : machine.frames.push = .error error) :
      Refusal machine .pushFrame (.error error.fault)
  | pop {error : FrameError} (refused : machine.frames.pop = .error error) :
      Refusal machine .popFrame (.error error.fault)
  | write {text : Text} {error : OutputError}
      (refused : (machine.output.write text).1 = .error error) :
      Refusal machine (.write text) (.error (.output error))
  | ret (empty : machine.calls = []) : Refusal machine .ret (.error .emptyCallStack)
  | readCrash {target : Operand} {kind : Kind} {crash : Crash}
      (crashed : (machine.input.read kind).1 = .error crash) :
      Refusal machine (.read target kind) (.crash crash)
  | readTarget {target : Operand} {kind : Kind}
      (unreadable : Variable.ofSource? target.text = none) :
      Refusal machine (.read target kind) (.error (.operandValue (.notVariable target.text)))
  | readSet {target : Operand} {kind : Kind} {ref : Variable} {value : Value}
      {error : FrameError} (refused : machine.frames.set ref value = .error error) :
      Refusal machine (.read target kind) (.error error.fault)

section Perform

variable {machine : Machine}

theorem withFrames_machine (machine : Machine) (result : Except FrameError Frames)
    (events : Frames → List Event) :
    ∃ frames, (machine.withFrames result events).machine = { machine with frames } := by
  cases result with
  | ok frames => exact ⟨frames, rfl⟩
  | error error => exact ⟨machine.frames, rfl⟩

theorem withFrames_flow {result : Except FrameError Frames} {events : Frames → List Event}
    {flow : Flow} (succeeded : (machine.withFrames result events).flow = .ok flow) :
    flow = .next := by
  cases result with
  | ok frames => exact (Except.ok.inj succeeded).symm
  | error error => cases succeeded

theorem withFrames_refused {result : Except FrameError Frames} {events : Frames → List Event}
    {failure : Failure Fault} (refused : (machine.withFrames result events).flow = .error failure) :
    ∃ error, result = .error error ∧ failure = .error error.fault := by
  cases result with
  | ok frames => cases refused
  | error error => exact ⟨error, rfl, (Except.error.inj refused).symm⟩

/-- A read crashes with its line, fails on its target, or assigns what it has read. -/
theorem readInto_cases (machine : Machine) (target : Operand) (kind : Kind) :
    (∃ crash, (machine.input.read kind).1 = .error crash ∧
      machine.readInto target kind =
        ⟨{ machine with input := (machine.input.read kind).2 }, [], .error (.crash crash)⟩) ∨
    (∃ failure, target.reference = .error failure ∧
      machine.readInto target kind =
        ⟨{ machine with input := (machine.input.read kind).2 }, [], .error failure⟩) ∨
    ∃ value ref, target.reference = .ok ref ∧
      machine.readInto target kind =
        Machine.withFrames { machine with input := (machine.input.read kind).2 }
          (machine.frames.set ref value) fun _ => [] := by
  cases given : machine.input.read kind with
  | mk answer input =>
    cases answer with
    | error crash => exact Or.inl ⟨crash, rfl, by simp [Machine.readInto, given]⟩
    | ok value? =>
      refine Or.inr ?_
      cases named : target.reference with
      | error failure => exact Or.inl ⟨failure, rfl, by simp [Machine.readInto, given, named]⟩
      | ok ref =>
        exact Or.inr ⟨value?.getD .nil, ref, rfl, by simp [Machine.readInto, given, named]⟩

/-- A read changes the frames and the input, and nothing else. -/
theorem readInto_machine (machine : Machine) (target : Operand) (kind : Kind) :
    ∃ frames input, (machine.readInto target kind).machine = { machine with frames, input } := by
  rcases readInto_cases machine target kind with
    ⟨crash, _, same⟩ | ⟨failure, _, same⟩ | ⟨value, ref, _, same⟩
  · exact ⟨machine.frames, _, by rw [same]⟩
  · exact ⟨machine.frames, _, by rw [same]⟩
  · rw [same]
    obtain ⟨frames, same⟩ := withFrames_machine
      { machine with input := (machine.input.read kind).2 } _ _
    exact ⟨frames, _, same⟩

theorem readInto_flow {target : Operand} {kind : Kind} {flow : Flow}
    (succeeded : (machine.readInto target kind).flow = .ok flow) : flow = .next := by
  rcases readInto_cases machine target kind with
    ⟨crash, _, same⟩ | ⟨failure, _, same⟩ | ⟨value, ref, _, same⟩
  · rw [same] at succeeded
    cases succeeded
  · rw [same] at succeeded
    cases succeeded
  · rw [same] at succeeded
    exact withFrames_flow succeeded

/-- A text goes to the sink, which takes it or makes the effect fail. -/
theorem perform_write (machine : Machine) (text : Text) :
    machine.perform (.write text) =
      ⟨{ machine with output := (machine.output.write text).2 }, [],
        match (machine.output.write text).1 with
        | .ok () => .ok .next
        | .error error => fail (.output error)⟩ := by
  rw [Machine.perform]
  split
  · rename_i taken
    rw [taken]
  · rename_i refused
    rw [refused]
    rfl

/-- An effect changes the frames, the open calls, the input and the output, and nothing
else. -/
theorem perform_machine (machine : Machine) (effect : Effect) :
    ∃ frames calls input output,
      (machine.perform effect).machine = { machine with frames, calls, input, output } := by
  cases effect with
  | pass | jump _ | call _ | exit _ | print _ | inspect => exact ⟨_, _, _, _, rfl⟩
  | define ref | assign ref value | createFrame | pushFrame | popFrame =>
    obtain ⟨frames, same⟩ := withFrames_machine machine _ _
    exact ⟨frames, machine.calls, machine.input, machine.output, same⟩
  | read target kind =>
    obtain ⟨frames, input, same⟩ := readInto_machine machine target kind
    exact ⟨frames, machine.calls, input, machine.output, same⟩
  | write text =>
    rw [perform_write]
    exact ⟨_, _, _, _, rfl⟩
  | ret =>
    simp only [Machine.perform]
    split <;> exact ⟨_, _, _, _, rfl⟩

theorem perform_pc (effect : Effect) : (machine.perform effect).machine.pc = machine.pc := by
  obtain ⟨frames, calls, input, output, same⟩ := perform_machine machine effect
  rw [same]

theorem perform_calls {effect : Effect} (notCall : ∀ place, effect ≠ .call place)
    (notRet : effect ≠ .ret) : (machine.perform effect).machine.calls = machine.calls := by
  cases effect with
  | pass | jump _ | exit _ | print _ | inspect => rfl
  | call place => exact absurd rfl (notCall place)
  | ret => exact absurd rfl notRet
  | define ref | assign ref value | createFrame | pushFrame | popFrame =>
    obtain ⟨frames, same⟩ := withFrames_machine machine _ _
    rw [Machine.perform, same]
  | read target kind =>
    obtain ⟨frames, input, same⟩ := readInto_machine machine target kind
    rw [Machine.perform, same]
  | write text => rw [perform_write]

theorem moves_next {effect : Effect} (notCall : ∀ place, effect ≠ .call place)
    (notRet : effect ≠ .ret) :
    Moves machine effect .next (machine.perform effect).machine.calls := by
  rw [perform_calls notCall notRet]
  exact .next

theorem moves_of_perform {effect : Effect} {flow : Flow}
    (succeeded : (machine.perform effect).flow = .ok flow) :
    Moves machine effect flow (machine.perform effect).machine.calls := by
  cases effect with
  | pass | print _ | inspect =>
    cases succeeded
    exact .next
  | jump place =>
    cases succeeded
    exact .jump
  | call place =>
    cases succeeded
    exact .call
  | exit code =>
    cases succeeded
    exact .exit
  | define ref | assign ref value | createFrame | pushFrame | popFrame =>
    rw [withFrames_flow succeeded]
    exact moves_next nofun nofun
  | read target kind =>
    rw [readInto_flow succeeded]
    exact moves_next nofun nofun
  | write text =>
    have stays : flow = .next := by
      rw [perform_write] at succeeded
      dsimp only at succeeded
      split at succeeded
      · exact (Except.ok.inj succeeded).symm
      · cases succeeded
    rw [stays]
    exact moves_next nofun nofun
  | ret =>
    cases calls : machine.calls with
    | nil =>
      simp only [Machine.perform, CallStack.pop?, calls] at succeeded
      cases succeeded
    | cons place rest =>
      simp only [Machine.perform, CallStack.pop?, calls] at succeeded ⊢
      cases succeeded
      exact .ret calls

theorem refusal_of_perform {effect : Effect} {failure : Failure Fault}
    (refused : (machine.perform effect).flow = .error failure) :
    Refusal machine effect failure := by
  cases effect with
  | pass | print _ | inspect | jump _ | call _ | exit _ | createFrame => cases refused
  | define ref =>
    obtain ⟨error, refusal, rfl⟩ := withFrames_refused refused
    exact .define refusal
  | assign ref value =>
    obtain ⟨error, refusal, rfl⟩ := withFrames_refused refused
    exact .assign refusal
  | pushFrame =>
    obtain ⟨error, refusal, rfl⟩ := withFrames_refused refused
    exact .push refusal
  | popFrame =>
    obtain ⟨error, refusal, rfl⟩ := withFrames_refused refused
    exact .pop refusal
  | read target kind =>
    rw [Machine.perform] at refused
    rcases readInto_cases machine target kind with
      ⟨crash, crashed, same⟩ | ⟨other, unnamed, same⟩ | ⟨value, ref, named, same⟩
    · rw [same] at refused
      cases refused
      exact .readCrash crashed
    · rw [same] at refused
      cases refused
      obtain ⟨unreadable, rfl⟩ := noTarget_of_reference unnamed
      exact .readTarget unreadable
    · rw [same] at refused
      obtain ⟨error, refusal, rfl⟩ := withFrames_refused refused
      exact .readSet refusal
  | write text =>
    rw [perform_write] at refused
    dsimp only at refused
    split at refused
    · cases refused
    · cases refused
      exact .write ‹_›
  | ret =>
    cases calls : machine.calls with
    | nil =>
      simp only [Machine.perform, CallStack.pop?, calls] at refused
      cases refused
      exact .ret calls
    | cons place rest =>
      simp only [Machine.perform, CallStack.pop?, calls] at refused
      cases refused

/-- Refused effects leave the open calls alone. -/
theorem perform_calls_of_refused {effect : Effect} {failure : Failure Fault}
    (refused : (machine.perform effect).flow = .error failure) :
    (machine.perform effect).machine.calls = machine.calls := by
  cases refusal_of_perform refused with
  | ret empty => simp only [Machine.perform, CallStack.pop?, empty, Machine.refuse]
  | _ => exact perform_calls nofun nofun

end Perform

/-- Every step is one of the listed transitions. -/
theorem transition_of_step (program : Program) (machine : Machine) :
    Transition program machine (machine.step program).machine (machine.step program).ending := by
  rw [Machine.step]
  split
  · exact .completed ‹_›
  · rename_i instruction fetched
    split
    · exact .unknown fetched ‹_›
    · rename_i opcode known
      have dispatched : Dispatches program machine instruction opcode := ⟨fetched, known⟩
      change Transition program machine
        (machine.counted.execute program.labels opcode instruction.operands).settle.machine
        (machine.counted.execute program.labels opcode instruction.operands).settle.ending
      cases planned : opcode.plan program.labels machine.frames instruction.operands with
      | error failure =>
        let failed : Performed := ⟨machine.counted, [], .error failure⟩
        have executed : machine.counted.execute program.labels opcode instruction.operands =
            failed := by
          simp only [Machine.execute, Machine.counted, planned, failed]
        have refused : failed.flow = .error failure := rfl
        obtain ⟨same, ended⟩ := Performed.settle_of_error refused
        rw [executed, same, ended]
        exact .planless dispatched planned
      | ok effect =>
        have executed : machine.counted.execute program.labels opcode instruction.operands =
            machine.counted.perform effect := by
          simp only [Machine.execute, Machine.counted, planned]
        rw [executed]
        cases performed : (machine.counted.perform effect).flow with
        | error failure =>
          obtain ⟨same, ended⟩ := Performed.settle_of_error performed
          rw [same, ended, perform_pc]
          exact .refused dispatched planned performed
        | ok flow =>
          obtain ⟨same, ended⟩ := Performed.settle_of_ok performed
          rw [same, ended]
          exact .performed dispatched planned performed

section Endings

variable {program : Program} {machine : Machine}

theorem step_of_dispatches {instruction : Instruction} {opcode : Opcode}
    (dispatched : Dispatches program machine instruction opcode) :
    machine.step program =
      let stepped := (machine.counted.execute program.labels opcode instruction.operands).settle
      { stepped with events := .dispatched machine.pc opcode :: stepped.events } := by
  simp only [Machine.step, dispatched.fetched, dispatched.known]
  rfl

theorem ending_of_dispatches {instruction : Instruction} {opcode : Opcode}
    (dispatched : Dispatches program machine instruction opcode) :
    (machine.step program).ending =
      (machine.counted.execute program.labels opcode instruction.operands).settle.ending := by
  rw [step_of_dispatches dispatched]

/-- An instruction that is executed to an effect ends its run as the effect does. -/
theorem ending_of_planned {instruction : Instruction} {opcode : Opcode} {effect : Effect}
    (dispatched : Dispatches program machine instruction opcode)
    (planned : opcode.plan program.labels machine.frames instruction.operands = .ok effect) :
    (machine.step program).ending = (machine.counted.perform effect).settle.ending := by
  rw [ending_of_dispatches dispatched]
  simp only [Machine.execute, Machine.counted, planned]

end Endings

theorem Failure.ending_eq_crashed {failure : Failure Fault} {place : Nat} {crash : Crash}
    (same : failure.ending place = .crashed crash) : failure = .crash crash := by
  cases failure with
  | error fault => cases same
  | crash reason =>
    cases same
    rfl

theorem Failure.ending_eq_failed {failure : Failure Fault} {place other : Nat} {fault : Fault}
    (same : failure.ending place = .failed ⟨other, fault⟩) : failure = .error fault := by
  cases failure with
  | error fault =>
    cases same
    rfl
  | crash reason => cases same

/-- Why the next instruction of a machine fails. -/
inductive Failing (program : Program) (machine : Machine) : Failure Fault → Prop where
  | unknown {instruction : Instruction}
      (fetched : program.instructions[machine.pc]? = some instruction)
      (unknown : instruction.opcode? = none) :
      Failing program machine (.error (.unknownOpcode instruction.mnemonic))
  | planless {instruction : Instruction} {opcode : Opcode} {failure : Failure Fault}
      (dispatched : Dispatches program machine instruction opcode)
      (failed : opcode.plan program.labels machine.frames instruction.operands =
        .error failure) : Failing program machine failure
  | refused {instruction : Instruction} {opcode : Opcode} {effect : Effect}
      {failure : Failure Fault} (dispatched : Dispatches program machine instruction opcode)
      (planned : opcode.plan program.labels machine.frames instruction.operands = .ok effect)
      (refusal : Refusal machine.counted effect failure) : Failing program machine failure

theorem ending_of_step {program : Program} {machine : Machine} {ending : Ending}
    (ended : (machine.step program).ending = some ending) :
    (∃ halt, ending = .halted halt) ∨
      ∃ failure, ending = failure.ending machine.pc ∧ Failing program machine failure := by
  have transition := transition_of_step program machine
  generalize (machine.step program).machine = next at transition
  generalize (machine.step program).ending = reached at transition ended
  cases transition with
  | completed past =>
    cases ended
    exact Or.inl ⟨_, rfl⟩
  | unknown fetched unknown =>
    cases ended
    exact Or.inr ⟨_, rfl, .unknown fetched unknown⟩
  | planless dispatched failed =>
    cases ended
    exact Or.inr ⟨_, rfl, .planless dispatched failed⟩
  | refused dispatched planned refused =>
    cases ended
    exact Or.inr ⟨_, rfl, .refused dispatched planned (refusal_of_perform refused)⟩
  | @performed _ _ _ flow _ _ _ =>
    cases flow with
    | next | jump place => cases ended
    | exit code =>
      cases ended
      exact Or.inl ⟨_, rfl⟩

end IPPcode24
