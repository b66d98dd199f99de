import IPPcode24.Machine.Step

/-!
# Runs

A run repeats steps until one of them ends it. It may never end, so it is given a
number of steps after which it pauses; a paused run can be continued. An execution
adds the flush of the output and the events of its start and its end. Records that
are no program are not run.
-/

namespace IPPcode24

/-- A machine in the course of a run, the events so far with the latest first, and
the end of the run once it is reached. -/
structure Run where
  machine : Machine
  log : List Event
  ending : Option Ending

namespace Run

def start (machine : Machine) : Run := ⟨machine, [], none⟩

/-- The run after one more step, unless it has ended. -/
def advance (program : Program) (run : Run) : Run :=
  match run.ending with
  | some _ => run
  | none =>
    let stepped := run.machine.step program
    ⟨stepped.machine, stepped.events.reverse ++ run.log, stepped.ending⟩

/-- The run after so many more steps, or at its end. -/
def continued (program : Program) : Nat → Run → Run
  | 0, run => run
  | fuel + 1, run =>
    match run.ending with
    | some _ => run
    | none => continued program fuel (run.advance program)

end Run

/-- More steps than any run can make in practice. -/
def unlimited : Nat := 0x4000000000000000

/-- A machine after an execution, how the execution ended, and its events in
order. -/
structure Execution where
  machine : Machine
  ending : Ending
  log : List Event

namespace Machine

/-- The end of an execution: a run that halted has failed after all when the
output does not flush. -/
def flushed (machine : Machine) : Ending → Ending
  | .halted halt =>
    match machine.output.flush.1 with
    | .ok () => .halted halt
    | .error error => .failed ⟨machine.pc, .output error⟩
  | ending => ending

/-- The machine after the flush at the end of an execution; a crash is not followed by one. -/
def closed (machine : Machine) : Ending → Machine
  | .crashed _ => machine
  | _ => { machine with output := machine.output.flush.2 }

/-- The event that reports the end of an execution; a crash is not reported. -/
def farewell (machine : Machine) : Ending → List Event
  | .halted halt => [.finished halt.code machine.steps]
  | .failed error => [.aborted error machine.steps]
  | .crashed _ => []

/-- Runs the program from the present state to the end of the run, if that takes
at most so many steps. -/
def execution? (fuel : Nat) (program : Program) (machine : Machine) : Option Execution :=
  let run := (Run.start machine).continued program fuel
  run.ending.map fun reached =>
    let ending := run.machine.flushed reached
    let last := run.machine.closed reached
    let started := Event.started program.size program.labels.length
    ⟨last, ending, started :: (run.log.reverse ++ last.farewell ending)⟩

end Machine

/-- Builds the program of a list of instructions and executes it on a fresh machine. -/
def runRecords (fuel : Nat) (records : List Instruction) (input : Input) (output : Output) :
    Except BuildError (Option Execution) :=
  (Program.build records).map fun program =>
    (Machine.start input output).execution? fuel program

end IPPcode24
