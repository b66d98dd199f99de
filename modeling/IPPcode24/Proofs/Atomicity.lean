import IPPcode24.Proofs.Crashes
import IPPcode24.Proofs.InputLines
import IPPcode24.Proofs.Sinks

/-!
# Steps that end a run

All checks of an instruction come before its effect, and an effect that is refused
changes nothing but the input it has read and the sink it has written to. So a step that
ends its run leaves the frames, the open calls and the place as they were. It counts an
instruction whose opcode is known. Unless it crashes, it takes at most one line from
the input, and then it is a READ that cannot assign what it has read. The output is as it
was, unless a WRITE is refused by a sink that has kept a part of the text.
-/

namespace IPPcode24

/-! ## Lines of input -/

namespace Input

/-- The rest is what follows at most one line of the input. -/
def PastLine (input rest : Input) : Prop :=
  ∃ line, input.bytes = line ++ rest.bytes ∧ 10 ∉ line.dropLast

theorem splitLine_append (bytes : List UInt8) :
    bytes = (splitLine bytes).1 ++ (splitLine bytes).2 ∧ 10 ∉ (splitLine bytes).1.dropLast := by
  induction bytes with
  | nil => exact ⟨rfl, List.not_mem_nil⟩
  | cons byte rest ih =>
    obtain ⟨same, single⟩ := ih
    by_cases ends : byte = 10
    · simp [splitLine, ends]
    · simp only [splitLine, if_neg ends]
      refine ⟨congrArg (byte :: ·) same, ?_⟩
      cases found : (splitLine rest).1 with
      | nil => exact List.not_mem_nil
      | cons next line =>
        rw [found] at single
        exact fun member => (List.mem_cons.mp member).elim (Ne.symm ends) single

theorem pastLine_nextLine (input : Input) : input.PastLine input.nextLine.2 := by
  rw [nextLine_snd]
  exact ⟨_, splitLine_append input.bytes⟩

end Input

/-! ## Assignments that are refused -/

def Frames.stored (frames : Frames) (target : Operand) (value : Value) : Attempt Frames := do
  let ref ← target.reference
  orError ((frames.set ref value).mapError FrameError.fault)

/-- Nothing can be assigned to what the operand names, for this reason. -/
def Frames.Refuses (frames : Frames) (target : Operand) (fault : Fault) : Prop :=
  ∀ value, frames.stored target value = .error (.error fault)

theorem set_eq_error_of_set {frames : Frames} {ref : Variable} {value : Value} {error : FrameError}
    (refused : frames.set ref value = .error error) (other : Value) :
    frames.set ref other = .error error := by
  simp only [Frames.set] at refused ⊢
  split at refused
  · exact refused
  · split at refused
    · cases refused
    · rename_i undeclared
      rw [if_neg undeclared]
      exact refused

theorem refuses_of_stored {frames : Frames} {target : Operand} {value : Value} {fault : Fault}
    (refused : frames.stored target value = .error (.error fault)) :
    frames.Refuses target fault := by
  intro other
  rcases Chain.bind_eq_error.mp refused with unnamed | ⟨ref, named, refused⟩
  · rw [Frames.stored, unnamed, Chain.bind_error]
  · obtain ⟨_, refusal, same⟩ := orError_eq_error.mp refused
    obtain ⟨error, undeclared, rfl⟩ := Chain.mapError_eq_error.mp refusal
    rw [Frames.stored, named, Chain.bind_ok, set_eq_error_of_set undeclared other, same]
    rfl

section Reads

variable {machine : Machine} {target : Operand} {kind : Kind}

theorem readInto_of_ok {value? : Option Value} (given : (machine.input.read kind).1 = .ok value?) :
    machine.readInto target kind =
      match machine.frames.stored target (value?.getD .nil) with
      | .ok frames => ⟨{ machine with frames, input := (machine.input.read kind).2 }, [], .ok .next⟩
      | .error failure =>
        ⟨{ machine with input := (machine.input.read kind).2 }, [], .error failure⟩ := by
  simp only [Machine.readInto, given, Frames.stored]
  cases target.reference with
  | error failure => rfl
  | ok ref =>
    simp only [Machine.withFrames, Chain.bind_ok]
    cases machine.frames.set ref (value?.getD .nil) <;> rfl

theorem refuses_of_readInto {fault : Fault}
    (refused : (machine.readInto target kind).flow = .error (.error fault)) :
    machine.frames.Refuses target fault := by
  cases given : (machine.input.read kind).1 with
  | error crash =>
    simp only [Machine.readInto, given] at refused
    cases refused
  | ok value? =>
    rw [readInto_of_ok given] at refused
    split at refused
    · cases refused
    · rename_i failure notStored
      cases refused
      exact refuses_of_stored notStored

end Reads

/-! ## Effects that are refused -/

/-- An effect that is refused changes nothing but the input that it has read or the sink that
has refused it. -/
theorem machine_of_refused {machine : Machine} {effect : Effect} {failure : Failure Fault}
    (refused : (machine.perform effect).flow = .error failure) :
    (machine.perform effect).machine = machine ∨
      (∃ target kind, effect = .read target kind ∧
        (machine.perform effect).machine =
          { machine with input := (machine.input.read kind).2 }) ∨
      ∃ text error, effect = .write text ∧ (machine.output.write text).1 = .error error ∧
        failure = .error (.output error) ∧
        (machine.perform effect).machine =
          { machine with output := (machine.output.write text).2 } := by
  cases effect with
  | pass | jump _ | call _ | exit _ | print _ | inspect | createFrame => cases refused
  | define ref | assign ref value | pushFrame | popFrame =>
    obtain ⟨error, same, _⟩ := withFrames_refused refused
    refine Or.inl ?_
    rw [Machine.perform, same]
    rfl
  | write text =>
    cases refusal_of_perform refused with
    | @write _ error refusal =>
      refine Or.inr (Or.inr ⟨text, error, rfl, refusal, rfl, ?_⟩)
      rw [perform_write]
  | ret =>
    cases refusal_of_perform refused with
    | ret empty =>
      refine Or.inl ?_
      simp only [Machine.perform, CallStack.pop?, empty, Machine.refuse]
  | read target kind =>
    refine Or.inr (Or.inl ⟨target, kind, rfl, ?_⟩)
    rw [Machine.perform] at refused ⊢
    cases given : (machine.input.read kind).1 with
    | error crash => simp only [Machine.readInto, given]
    | ok value? =>
      rw [readInto_of_ok given] at refused ⊢
      split at refused
      · cases refused
      · rfl

/-! ## Steps -/

def Program.opcodeAt? (program : Program) (place : Nat) : Option Opcode :=
  program.instructions[place]?.bind Instruction.opcode?

/-- How many instructions the step at a place counts. -/
def Program.countAt (program : Program) (place : Nat) : Nat :=
  if (program.opcodeAt? place).isSome then 1 else 0

/-- The next instruction is a READ that takes a line and cannot assign what it has read. -/
inductive ReadsInVain (program : Program) (machine : Machine) (fault : Fault) : Prop where
  | intro {instruction : Instruction} {target type : Operand} {kind : Kind}
      (dispatched : Dispatches program machine instruction .read)
      (first : instruction.operands[0]? = some target)
      (second : instruction.operands[1]? = some type)
      (named : Kind.ofName? type.text = some kind) (takes : kind ≠ .nil)
      (refuses : machine.frames.Refuses target fault) : ReadsInVain program machine fault

/-- The next instruction is a WRITE whose text is refused, which leaves this output. -/
inductive WritesInVain (program : Program) (machine : Machine) (error : OutputError) :
    Output → Prop where
  | intro {instruction : Instruction} {text : Text}
      (dispatched : Dispatches program machine instruction .write)
      (planned : Opcode.write.plan program.labels machine.frames instruction.operands =
        .ok (.write text))
      (refused : (machine.output.write text).1 = .error error) :
      WritesInVain program machine error (machine.output.write text).2

section Steps

variable {program : Program} {machine : Machine}

theorem WritesInVain.text_eq {error : OutputError} {output : Output}
    (vain : WritesInVain program machine error output) (keeps : machine.output.sink.KeepsNothing) :
    output.text = machine.output.text := by
  cases vain with
  | intro _ _ refused => exact Output.text_write_of_refused keeps refused

theorem Dispatches.countAt_eq {instruction : Instruction} {opcode : Opcode}
    (dispatched : Dispatches program machine instruction opcode) :
    program.countAt machine.pc = 1 := by
  simp [Program.countAt, Program.opcodeAt?, dispatched.fetched, dispatched.known]

/-- What a step that ends its run like this makes of the input: it is as it was, or a READ has
taken a line of it, in vain unless it crashes. -/
inductive InputAtEnd (program : Program) (machine : Machine) (ending : Ending) : Input → Prop where
  | same : InputAtEnd program machine ending machine.input
  | crashed {crash : Crash} (crashes : ending = .crashed crash) :
      InputAtEnd program machine ending machine.input.nextLine.2
  | read {fault : Fault} (fails : ending = .failed ⟨machine.pc, fault⟩)
      (vain : ReadsInVain program machine fault) :
      InputAtEnd program machine ending machine.input.nextLine.2

/-- What a step that ends its run like this makes of the output: it is as it was, or a WRITE is
refused. -/
inductive OutputAtEnd (program : Program) (machine : Machine) (ending : Ending) :
    Output → Prop where
  | same : OutputAtEnd program machine ending machine.output
  | written {output : Output} {error : OutputError}
      (fails : ending = .failed ⟨machine.pc, .output error⟩)
      (vain : WritesInVain program machine error output) :
      OutputAtEnd program machine ending output

theorem inputAtEnd_of_refused {instruction : Instruction} {opcode : Opcode} {target : Operand}
    {kind : Kind} {failure : Failure Fault}
    (dispatched : Dispatches program machine instruction opcode)
    (planned : opcode.plan program.labels machine.frames instruction.operands =
      .ok (.read target kind))
    (refused : (machine.counted.perform (.read target kind)).flow = .error failure) :
    InputAtEnd program machine (failure.ending machine.pc) (machine.input.read kind).2 := by
  rw [Input.read_snd]
  split
  · exact .same
  · rename_i takes
    cases failure with
    | crash crash => exact .crashed rfl
    | error fault =>
      obtain ⟨rfl, _, first, type, second, named⟩ := plan_eq_read_iff.mp planned
      have refuses : machine.counted.frames.Refuses target fault := refuses_of_readInto refused
      exact .read rfl (.intro dispatched first second named takes refuses)

theorem OutputAtEnd.text_eq {ending : Ending} {output : Output}
    (left : OutputAtEnd program machine ending output)
    (keeps : machine.output.sink.KeepsNothing) : output.text = machine.output.text := by
  cases left with
  | same => rfl
  | written _ vain => exact vain.text_eq keeps

/-- A step that ends its run changes nothing but the count of steps, the input and the
output. -/
theorem machine_of_ended {ending : Ending} (ended : (machine.step program).ending = some ending) :
    ∃ input output, (machine.step program).machine =
        { machine with steps := machine.steps + program.countAt machine.pc, input, output } ∧
      InputAtEnd program machine ending input ∧ OutputAtEnd program machine ending output := by
  have transition := transition_of_step program machine
  generalize (machine.step program).machine = next at transition
  rw [ended] at transition
  generalize same : some ending = reached at transition
  cases transition with
  | completed past =>
    refine ⟨_, _, ?_, .same, .same⟩
    simp [Program.countAt, Program.opcodeAt?, past]
  | unknown fetched unknown =>
    refine ⟨_, _, ?_, .same, .same⟩
    simp [Program.countAt, Program.opcodeAt?, fetched, unknown]
  | planless dispatched failed =>
    refine ⟨_, _, ?_, .same, .same⟩
    rw [dispatched.countAt_eq]
    rfl
  | @performed _ _ _ flow dispatched planned performed =>
    cases flow with
    | next | jump place => cases same
    | exit code =>
      cases moves_of_perform performed with
      | exit =>
        refine ⟨_, _, ?_, .same, .same⟩
        rw [dispatched.countAt_eq]
        rfl
  | refused dispatched planned refused =>
    rw [dispatched.countAt_eq, Option.some.inj same]
    rcases machine_of_refused refused with
      unchanged | ⟨target, kind, rfl, unchanged⟩ | ⟨text, error, rfl, refusal, rfl, unchanged⟩
    · exact ⟨_, _, unchanged, .same, .same⟩
    · exact ⟨_, _, unchanged, inputAtEnd_of_refused dispatched planned refused, .same⟩
    · obtain rfl := opcode_of_plan_write planned
      exact ⟨_, _, unchanged, .same, .written rfl (.intro dispatched planned refusal)⟩

/-- A step that fails leaves the frames, the open calls and the place as they were. The output
is the same too, unless a WRITE is refused, and then a sink that keeps nothing of what it refuses
is left with the same text. The input is the same, unless the instruction is a READ of a type
other than nil whose variable refuses every value, and then at most one line of it is gone. The
count of steps goes up by one, and stays the same when the opcode is unknown. -/
theorem failed_step_atomic {error : RunError}
    (failed : (machine.step program).ending = some (.failed error)) :
    (machine.step program).machine.frames = machine.frames ∧
    (machine.step program).machine.calls = machine.calls ∧
    (machine.step program).machine.pc = machine.pc ∧
    (machine.output.sink.KeepsNothing →
      (machine.step program).machine.output.text = machine.output.text) ∧
    ((machine.step program).machine.output = machine.output ∨
      ∃ reason, error.fault = .output reason ∧
        WritesInVain program machine reason (machine.step program).machine.output) ∧
    ((machine.step program).machine.input = machine.input ∨
      ReadsInVain program machine error.fault ∧
        machine.input.PastLine (machine.step program).machine.input) ∧
    (machine.step program).machine.steps = machine.steps + program.countAt machine.pc := by
  obtain ⟨input, output, same, moved, left⟩ := machine_of_ended failed
  rw [same]
  refine ⟨rfl, rfl, rfl, fun keeps => left.text_eq keeps, ?_, ?_, rfl⟩
  · cases left with
    | same => exact Or.inl rfl
    | @written _ reason fails vain =>
      cases fails
      exact Or.inr ⟨reason, rfl, vain⟩
  · cases moved with
    | same => exact Or.inl rfl
    | crashed crashes => cases crashes
    | read fails vain =>
      cases fails
      exact Or.inr ⟨vain, machine.input.pastLine_nextLine⟩

end Steps

/-- A machine inside a subroutine that has a temporary frame but no local one. -/
def inSubroutine : Machine :=
  ⟨⟨[(['g'], .int 1)], some [(['t'], .nil)], []⟩, [2], 0, 7, ⟨Text.utf8 "5\n6\n".toList⟩,
    ⟨.bounded 7 ⟨"sink full"⟩ none, [.taken "written".toList]⟩⟩

/-- A program that reads a number into a local variable. -/
def readsLocal : Program :=
  ⟨[⟨1, "read".toList, [⟨.var, "LF@x".toList⟩, ⟨.type, "int".toList⟩]⟩], []⟩

/-- Its read fails on that machine, and only the first line of the input and the count of
steps are not as before. -/
theorem read_without_local_frame :
    ∃ stepped : Stepped, inSubroutine.step readsLocal = stepped ∧
      stepped.ending = some (.failed ⟨0, .frameUndefined .lf⟩) ∧
      stepped.machine.frames = inSubroutine.frames ∧ stepped.machine.calls = [2] ∧
      stepped.machine.pc = 0 ∧ inSubroutine.output.sink.KeepsNothing ∧
      stepped.machine.output.text = inSubroutine.output.text ∧
      stepped.machine.output = inSubroutine.output ∧
      stepped.machine.input ≠ inSubroutine.input ∧
      inSubroutine.input.PastLine stepped.machine.input ∧ stepped.machine.steps = 8 := by
  have failed : (inSubroutine.step readsLocal).ending =
      some (.failed ⟨0, .frameUndefined .lf⟩) := by decide +kernel
  have moved : (inSubroutine.step readsLocal).machine.input ≠ inSubroutine.input := by
    decide +kernel
  have keeps : inSubroutine.output.sink.KeepsNothing := Sink.keepsNothing_bounded
  obtain ⟨frames, calls, pc, text, output, input, _⟩ := failed_step_atomic failed
  rcases output with output | ⟨_, impossible, _⟩
  · rcases input with unmoved | ⟨_, past⟩
    · exact absurd unmoved moved
    · exact ⟨_, rfl, failed, frames, calls, pc, keeps, text keeps, output, moved, past,
        by decide +kernel⟩
  · cases impossible

end IPPcode24
