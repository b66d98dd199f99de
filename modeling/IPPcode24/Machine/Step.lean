import IPPcode24.Machine.Plan
import IPPcode24.Machine.State

/-!
# Steps

A step looks up the instruction at the program counter, plans it, and lets its
effect act on the machine. An effect can still fail, on a frame, a call stack, a
variable or a sink, and then it changes nothing but the input it has read and what the
sink remembers.
-/

namespace IPPcode24

/-- Where a run goes after an instruction. -/
inductive Flow where
  | next
  | jump (place : Nat)
  | exit (code : Fin 10)
deriving DecidableEq

/-- What an effect made of the machine, what it told, and where the run goes. -/
structure Performed where
  machine : Machine
  events : List Event
  flow : Attempt Flow

namespace Machine

/-- A failed effect, which told nothing. -/
def refuse (machine : Machine) (fault : Fault) : Performed := ⟨machine, [], fail fault⟩

/-- The machine with other frames, if there are any. -/
def withFrames (machine : Machine) (result : Except FrameError Frames)
    (events : Frames → List Event) : Performed :=
  match result with
  | .ok frames => ⟨{ machine with frames }, events frames, .ok .next⟩
  | .error error => machine.refuse error.fault

/-- Reads a value of a type into the variable that an operand names. Input without
a value gives nil. -/
def readInto (machine : Machine) (target : Operand) (kind : Kind) : Performed :=
  let (result, input) := machine.input.read kind
  let machine := { machine with input }
  match result with
  | .error crash => ⟨machine, [], .error (.crash crash)⟩
  | .ok value? =>
    match target.reference with
    | .error failure => ⟨machine, [], .error failure⟩
    | .ok ref => machine.withFrames (machine.frames.set ref (value?.getD .nil)) fun _ => []

def perform (machine : Machine) : Effect → Performed
  | .pass => ⟨machine, [], .ok .next⟩
  | .define ref => machine.withFrames (machine.frames.define ref) fun _ => []
  | .assign ref value => machine.withFrames (machine.frames.set ref value) fun _ => []
  | .read target kind => machine.readInto target kind
  | .write text =>
    match machine.output.write text with
    | (.ok (), output) => ⟨{ machine with output }, [], .ok .next⟩
    | (.error error, output) => { machine with output }.refuse (.output error)
  | .createFrame =>
    machine.withFrames (.ok machine.frames.create) fun _ => [.frameCreated machine.pc]
  | .pushFrame =>
    machine.withFrames machine.frames.push fun frames =>
      [.framePushed machine.pc frames.locals.length]
  | .popFrame =>
    machine.withFrames machine.frames.pop fun frames =>
      [.framePopped machine.pc frames.locals.length]
  | .jump place => ⟨machine, [], .ok (.jump place)⟩
  | .call place =>
    let calls := machine.calls.push (machine.pc + 1)
    ⟨{ machine with calls }, [.called machine.pc place calls.depth], .ok (.jump place)⟩
  | .ret =>
    match machine.calls.pop? with
    | some (place, calls) =>
      ⟨{ machine with calls }, [.returned machine.pc place calls.depth], .ok (.jump place)⟩
    | none => machine.refuse .emptyCallStack
  | .exit code => ⟨machine, [], .ok (.exit code)⟩
  | .print operand => ⟨machine, [.printed machine.pc operand], .ok .next⟩
  | .inspect =>
    let frames := machine.frames
    ⟨machine, [.inspected machine.pc machine.steps frames.globals.length
      frames.temporary.isSome frames.locals.length machine.calls.depth], .ok .next⟩

end Machine

/-- A machine after a step, what the step told, and the end of the run if the step
ended it. -/
structure Stepped where
  machine : Machine
  events : List Event
  ending : Option Ending

/-- The machine moved to where its run goes, or the end of the run. -/
def Performed.settle (performed : Performed) : Stepped :=
  let machine := performed.machine
  let events := performed.events
  match performed.flow with
  | .ok .next => ⟨{ machine with pc := machine.pc + 1 }, events, none⟩
  | .ok (.jump place) => ⟨{ machine with pc := place }, events, none⟩
  | .ok (.exit code) => ⟨machine, events, some (.halted (.exit code))⟩
  | .error (.error fault) => ⟨machine, events, some (.failed ⟨machine.pc, fault⟩)⟩
  | .error (.crash crash) => ⟨machine, events, some (.crashed crash)⟩

namespace Machine

def execute (machine : Machine) (labels : LabelTable) (opcode : Opcode)
    (operands : List Operand) : Performed :=
  match opcode.plan labels machine.frames operands with
  | .ok effect => machine.perform effect
  | .error failure => ⟨machine, [], .error failure⟩

/-- One step of a program. The run is completed when no instruction is left. An
instruction counts as soon as its opcode is known. -/
def step (program : Program) (machine : Machine) : Stepped :=
  match program.instructions[machine.pc]? with
  | none => ⟨machine, [], some (.halted .completed)⟩
  | some instruction =>
    match instruction.opcode? with
    | none =>
      ⟨machine, [], some (.failed ⟨machine.pc, .unknownOpcode instruction.mnemonic⟩)⟩
    | some opcode =>
      let counted := { machine with steps := machine.steps + 1 }
      let stepped := (counted.execute program.labels opcode instruction.operands).settle
      { stepped with events := .dispatched machine.pc opcode :: stepped.events }

end Machine

end IPPcode24
