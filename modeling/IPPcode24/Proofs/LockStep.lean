import IPPcode24.Machine.Run

/-!
# Lock step

Two programs run in lock step when a step of the one is a step of the other seen through a
translation of machines, events and endings. Then so is a run of any number of steps, and so
is an execution.
-/

namespace IPPcode24

/-- What the machines, events and endings of one program are for another one. -/
structure Translation where
  machine : Machine → Machine
  event : Event → Event
  ending : Ending → Ending

section Translated

variable (translation : Translation)

def Stepped.translated (stepped : Stepped) : Stepped where
  machine := translation.machine stepped.machine
  events := stepped.events.map translation.event
  ending := stepped.ending.map translation.ending

def Run.translated (run : Run) : Run where
  machine := translation.machine run.machine
  log := run.log.map translation.event
  ending := run.ending.map translation.ending

def Execution.translated (execution : Execution) : Execution where
  machine := translation.machine execution.machine
  ending := translation.ending execution.ending
  log := execution.log.map translation.event

end Translated

/-- A step of the other program from the translated machine is the translated step. -/
def LockStep (translation : Translation) (program other : Program) : Prop :=
  ∀ machine : Machine,
    (translation.machine machine).step other = (machine.step program).translated translation

/-- An execution starts and ends with the translated events, and a translated end is flushed
as the end is. -/
structure Translation.Framed (translation : Translation) (program other : Program) : Prop where
  started : Event.started other.size other.labels.length =
    translation.event (.started program.size program.labels.length)
  flushed : ∀ (machine : Machine) (reached : Ending),
    (translation.machine machine).flushed (translation.ending reached) =
      translation.ending (machine.flushed reached)
  closed : ∀ (machine : Machine) (reached : Ending),
    (translation.machine machine).closed (translation.ending reached) =
      translation.machine (machine.closed reached)
  farewell : ∀ (machine : Machine) (ending : Ending),
    (translation.machine machine).farewell (translation.ending ending) =
      (machine.farewell ending).map translation.event

namespace LockStep

variable {translation : Translation} {program other : Program}

theorem advance (lock : LockStep translation program other) (run : Run) :
    (run.translated translation).advance other = (run.advance program).translated translation := by
  cases ended : run.ending with
  | some ending => simp [Run.advance, Run.translated, ended]
  | none =>
    have steps := lock run.machine
    simp [Run.advance, Run.translated, ended, steps, Stepped.translated]

theorem continued (lock : LockStep translation program other) (fuel : Nat) (run : Run) :
    (run.translated translation).continued other fuel =
      (run.continued program fuel).translated translation := by
  induction fuel generalizing run with
  | zero => rfl
  | succ fuel ih =>
    have sameEnding : (run.translated translation).ending =
        run.ending.map translation.ending := rfl
    rw [Run.continued, Run.continued, sameEnding]
    cases run.ending with
    | some ending => rfl
    | none =>
      simp only [Option.map_none, lock.advance]
      exact ih (run.advance program)

theorem execution? (lock : LockStep translation program other)
    (framed : translation.Framed program other) (fuel : Nat) (machine : Machine) :
    (translation.machine machine).execution? fuel other =
      (machine.execution? fuel program).map (Execution.translated translation) := by
  have runs : (Run.start (translation.machine machine)).continued other fuel =
      ((Run.start machine).continued program fuel).translated translation :=
    lock.continued fuel (Run.start machine)
  simp only [Machine.execution?, runs, framed.started]
  generalize (Run.start machine).continued program fuel = run
  obtain ⟨last, log, ending⟩ := run
  cases ending with
  | none => rfl
  | some reached =>
    simp [Run.translated, Execution.translated, framed.flushed, framed.closed, framed.farewell]

end LockStep

/-! ## Machines that stay the same -/

/-- The machines and endings stay as they are, and the events are told in another way. -/
def Translation.telling (event : Event → Event) : Translation := ⟨id, event, id⟩

section Telling

variable {event : Event → Event} {program other : Program}

theorem Run.translated_telling (run : Run) :
    run.translated (.telling event) = { run with log := run.log.map event } := by
  simp [Run.translated, Translation.telling]

theorem LockStep.of_step
    (steps : ∀ machine : Machine,
      (machine.step other).machine = (machine.step program).machine ∧
      (machine.step other).ending = (machine.step program).ending ∧
      (machine.step other).events = (machine.step program).events.map event) :
    LockStep (.telling event) program other := by
  intro machine
  obtain ⟨sameMachine, sameEnding, events⟩ := steps machine
  have parts (stepped : Stepped) :
      stepped = ⟨stepped.machine, stepped.events, stepped.ending⟩ := rfl
  change machine.step other = _
  rw [parts (machine.step other), sameMachine, sameEnding, events]
  simp [Stepped.translated, Translation.telling]

end Telling

end IPPcode24
