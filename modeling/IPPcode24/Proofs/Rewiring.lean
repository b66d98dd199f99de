import IPPcode24.Proofs.Reachable

/-!
# Machines on other ends

A machine can be given another input and another sink. It is then still at the same place, with
the same frames, open calls and count of steps, so it plans the same effect as before. Only an
effect that reads or writes can come to something else. Where it does not, the step is the same,
up to the ends of the machine.
-/

namespace IPPcode24

/-- What the input and the sink of a machine are replaced by. -/
structure Rewiring where
  input : Input → Input
  output : Output → Output

/-- The next instruction of the machine plans the effect. -/
def Plans (program : Program) (machine : Machine) (effect : Effect) : Prop :=
  ∃ instruction opcode, Dispatches program machine instruction opcode ∧
    opcode.plan program.labels machine.frames instruction.operands = .ok effect

/-- The effect neither reads nor writes. -/
def Effect.Quiet : Effect → Prop
  | read _ _ | write _ => False
  | _ => True

section Definitions

variable (wires : Rewiring)

def Machine.rewired (machine : Machine) : Machine :=
  { machine with input := wires.input machine.input, output := wires.output machine.output }

def Performed.rewired (performed : Performed) : Performed :=
  { performed with machine := performed.machine.rewired wires }

def Stepped.rewired (stepped : Stepped) : Stepped :=
  { stepped with machine := stepped.machine.rewired wires }

def Run.rewired (run : Run) : Run := { run with machine := run.machine.rewired wires }

def Execution.rewired (execution : Execution) : Execution :=
  { execution with machine := execution.machine.rewired wires }

end Definitions

section Effects

variable {wires later : Rewiring} {machine : Machine}

theorem withFrames_rewired (machine : Machine) (result : Except FrameError Frames)
    (events : Frames → List Event) :
    (machine.rewired wires).withFrames result events =
      (machine.withFrames result events).rewired wires := by
  cases result <;> rfl

/-- An effect that neither reads nor writes does not look at the ends of the machine. -/
theorem perform_rewired {effect : Effect} (quiet : effect.Quiet) :
    (machine.rewired wires).perform effect = (machine.perform effect).rewired wires := by
  cases effect with
  | pass | createFrame | jump _ | call _ | exit _ | print _ | inspect => rfl
  | define _ | assign _ _ | pushFrame | popFrame => exact withFrames_rewired machine _ _
  | read target kind => exact quiet.elim
  | write text => exact quiet.elim
  | ret =>
    have sameCalls : (machine.rewired wires).calls = machine.calls := rfl
    simp only [Machine.perform, sameCalls]
    cases machine.calls <;> rfl

/-- A read does the same on an input that gives the same value. -/
theorem readInto_rewired {kind : Kind}
    (given : (wires.input machine.input).read kind =
      ((machine.input.read kind).1, later.input (machine.input.read kind).2))
    (sink : wires.output machine.output = later.output machine.output) (target : Operand) :
    (machine.rewired wires).readInto target kind =
      (machine.readInto target kind).rewired later := by
  simp only [Machine.readInto, Machine.rewired, given, sink]
  cases (machine.input.read kind).1 with
  | error crash => rfl
  | ok value? =>
    cases target.reference with
    | error failure => rfl
    | ok ref =>
      let read : Machine := { machine with input := (machine.input.read kind).2 }
      exact withFrames_rewired read _ _

end Effects

section Plans

variable {program : Program} {machine : Machine} {instruction : Instruction} {opcode : Opcode}

/-- The effects that an instruction with a known opcode plans, of which there is at most one. -/
theorem plans_iff (dispatched : Dispatches program machine instruction opcode) {effect : Effect} :
    Plans program machine effect ↔
      opcode.plan program.labels machine.frames instruction.operands = .ok effect := by
  constructor
  · rintro ⟨other, otherOpcode, dispatchedToo, planned⟩
    obtain ⟨rfl, rfl⟩ := dispatched.unique dispatchedToo
    exact planned
  · intro planned
    exact ⟨instruction, opcode, dispatched, planned⟩

/-- A step lets the effect that is planned act on the machine. -/
theorem step_of_plans {effect : Effect} (plans : Plans program machine effect) :
    (machine.step program).machine = (machine.counted.perform effect).settle.machine ∧
      (machine.step program).ending = (machine.counted.perform effect).settle.ending := by
  obtain ⟨instruction, opcode, dispatched, planned⟩ := plans
  have executed : machine.counted.execute program.labels opcode instruction.operands =
      machine.counted.perform effect := by
    simp only [Machine.execute, Machine.counted, planned]
  rw [step_of_dispatches dispatched, executed]
  exact ⟨rfl, rfl⟩

/-- The plan does not look at the ends of the machine. -/
theorem Plans.rewired {effect : Effect} (plans : Plans program machine effect)
    (wires : Rewiring) : Plans program (machine.rewired wires) effect := by
  obtain ⟨instruction, opcode, ⟨fetched, known⟩, planned⟩ := plans
  exact ⟨instruction, opcode, ⟨fetched, known⟩, planned⟩

theorem not_plans_of_absent (absent : program.instructions[machine.pc]? = none)
    (effect : Effect) : ¬ Plans program machine effect := by
  rintro ⟨instruction, opcode, dispatched, _⟩
  rw [dispatched.fetched] at absent
  cases absent

theorem not_plans_of_unknown (fetched : program.instructions[machine.pc]? = some instruction)
    (unknown : instruction.opcode? = none) (effect : Effect) :
    ¬ Plans program machine effect := by
  rintro ⟨other, opcode, dispatched, _⟩
  obtain rfl : instruction = other := Option.some.inj (fetched.symm.trans dispatched.fetched)
  rw [dispatched.known] at unknown
  cases unknown

end Plans

section Steps

variable {wires later : Rewiring} {program : Program} {machine : Machine}

theorem settle_rewired (performed : Performed) :
    (performed.rewired wires).settle = performed.settle.rewired wires := by
  obtain ⟨machine, events, flow⟩ := performed
  cases flow with
  | error failure => cases failure <;> rfl
  | ok flow => cases flow <;> rfl

/-- A step does the same on other ends if the effect that it plans does. -/
theorem step_rewired
    (performs : ∀ effect, Plans program machine effect →
      (machine.counted.rewired wires).perform effect =
        (machine.counted.perform effect).rewired later)
    (waits : (∀ effect, ¬ Plans program machine effect) →
      machine.rewired wires = machine.rewired later) :
    (machine.rewired wires).step program = (machine.step program).rewired later := by
  have samePlace : (machine.rewired wires).pc = machine.pc := rfl
  -- where nothing is planned, the machine stays, and so must its ends
  cases fetched : program.instructions[machine.pc]? with
  | none =>
    rw [Machine.step, Machine.step, samePlace, fetched, waits (not_plans_of_absent fetched)]
    rfl
  | some instruction =>
    cases known : instruction.opcode? with
    | none =>
      have same := waits (not_plans_of_unknown fetched known)
      simp only [Machine.step, samePlace, fetched, known]
      rw [same]
      rfl
    | some opcode =>
      have dispatched : Dispatches program machine instruction opcode := ⟨fetched, known⟩
      have dispatchedToo : Dispatches program (machine.rewired wires) instruction opcode :=
        ⟨fetched, known⟩
      have executes : (machine.rewired wires).counted.execute program.labels opcode
            instruction.operands =
          (machine.counted.execute program.labels opcode instruction.operands).rewired later := by
        have sameFrames : (machine.rewired wires).counted.frames = machine.frames := rfl
        have framesToo : machine.counted.frames = machine.frames := rfl
        rw [Machine.execute, Machine.execute, sameFrames, framesToo]
        cases planned : opcode.plan program.labels machine.frames instruction.operands with
        | ok effect => exact performs effect ((plans_iff dispatched).mpr planned)
        | error failure =>
          have same := waits fun effect plans => by
            rw [plans_iff dispatched, planned] at plans
            cases plans
          exact congrArg (fun waiting : Machine => Performed.mk waiting.counted [] _) same
      rw [step_of_dispatches dispatched, step_of_dispatches dispatchedToo, executes,
        settle_rewired]
      rfl

theorem advance_rewired {run : Run} (going : run.ending = none)
    (steps : (run.machine.rewired wires).step program =
      (run.machine.step program).rewired later) :
    (run.rewired wires).advance program = (run.advance program).rewired later := by
  have goingToo : (run.rewired wires).ending = none := going
  have sameMachine : (run.rewired wires).machine = run.machine.rewired wires := rfl
  rw [Run.advance_of_going going, Run.advance_of_going goingToo, sameMachine, steps]
  rfl

end Steps

end IPPcode24
