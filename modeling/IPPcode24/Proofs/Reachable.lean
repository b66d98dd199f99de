import IPPcode24.Proofs.Steps

/-!
# Reachable machines

A machine is reachable when some number of steps leads to it, also across the ends
of runs, since a machine that has stopped can be executed again. The output is flushed
where a run ends. Within one run no step but the last ends it. What every step preserves
holds of every reachable machine, and an execution ends as the step at a machine that its
run passes does.
-/

namespace IPPcode24

/-- The machine that the next step starts from. The end of a run flushes the output, and the
next step begins another run. -/
def Machine.next (program : Program) (machine : Machine) : Machine :=
  match (machine.step program).ending with
  | none => (machine.step program).machine
  | some reached => (machine.step program).machine.closed reached

section Next

variable {program : Program} {machine : Machine} {reached : Ending}

theorem next_of_going (runs : (machine.step program).ending = none) :
    machine.next program = (machine.step program).machine := by rw [Machine.next, runs]

theorem next_of_ended (ended : (machine.step program).ending = some reached) :
    machine.next program = (machine.step program).machine.closed reached := by
  rw [Machine.next, ended]

theorem closed_eq (machine : Machine) (reached : Ending) :
    ∃ output, machine.closed reached = { machine with output } := by
  cases reached <;> exact ⟨_, rfl⟩

theorem next_eq (program : Program) (machine : Machine) :
    ∃ output, machine.next program = { (machine.step program).machine with output } := by
  rw [Machine.next]
  split
  · exact ⟨_, rfl⟩
  · exact closed_eq _ _

theorem next_frames : (machine.next program).frames = (machine.step program).machine.frames := by
  obtain ⟨output, same⟩ := next_eq program machine
  rw [same]

theorem next_calls : (machine.next program).calls = (machine.step program).machine.calls := by
  obtain ⟨output, same⟩ := next_eq program machine
  rw [same]

theorem next_pc : (machine.next program).pc = (machine.step program).machine.pc := by
  obtain ⟨output, same⟩ := next_eq program machine
  rw [same]

end Next

/-- The machines that the steps of a program lead to, in any number of executions. -/
inductive Reachable (program : Program) (first : Machine) : Machine → Prop where
  | start : Reachable program first first
  | step {machine : Machine} (earlier : Reachable program first machine) :
      Reachable program first (machine.next program)

/-- The machines that a single run passes from a first one on. -/
inductive Passes (program : Program) (first : Machine) : Machine → Prop where
  | start : Passes program first first
  | step {machine : Machine} (earlier : Passes program first machine)
      (runs : (machine.step program).ending = none) :
      Passes program first (machine.step program).machine

theorem Passes.reachable {program : Program} {first machine : Machine}
    (passed : Passes program first machine) : Reachable program first machine := by
  induction passed with
  | start => exact .start
  | step _ runs ih =>
    rw [← next_of_going runs]
    exact .step ih

theorem Reachable.trans {program : Program} {first middle last : Machine}
    (before : Reachable program first middle) (after : Reachable program middle last) :
    Reachable program first last := by
  induction after with
  | start => exact before
  | step _ ih => exact .step ih

/-- What holds at first and is preserved by every step holds of every reachable
machine. -/
theorem Reachable.invariant {program : Program} {first machine : Machine}
    {property : Machine → Prop} (initially : property first)
    (preserved : ∀ {earlier : Machine}, property earlier → property (earlier.next program))
    (reached : Reachable program first machine) : property machine := by
  induction reached with
  | start => exact initially
  | step _ ih => exact preserved ih

/-- What holds at first and is preserved by every step that goes on holds of every machine that
a run passes. -/
theorem Passes.invariant {program : Program} {first machine : Machine}
    {property : Machine → Prop} (initially : property first)
    (preserved : ∀ {earlier : Machine}, property earlier → (earlier.step program).ending = none →
      property (earlier.step program).machine)
    (passed : Passes program first machine) : property machine := by
  induction passed with
  | start => exact initially
  | step _ runs ih => exact preserved ih runs

section Executions

variable {program other : Program} {first : Machine}

theorem Run.advance_of_going {run : Run} (going : run.ending = none) :
    run.advance program = ⟨(run.machine.step program).machine,
      (run.machine.step program).events.reverse ++ run.log,
      (run.machine.step program).ending⟩ := by
  simp only [Run.advance, going]

theorem Run.continued_of_ended {run : Run} {reached : Ending} (ended : run.ending = some reached)
    (fuel : Nat) : run.continued program fuel = run := by
  cases fuel with
  | zero => rfl
  | succ fuel => rw [Run.continued, ended]

/-- Running on keeps a run at a machine that it passes, or at the end that the step
from such a machine has. -/
theorem continued_passes (fuel : Nat) (run : Run) (going : run.ending = none)
    (passed : Passes program first run.machine) :
    ((run.continued program fuel).ending = none ∧
      Passes program first (run.continued program fuel).machine) ∨
    ∃ last, Passes program first last ∧
      (last.step program).ending = (run.continued program fuel).ending ∧
      (last.step program).machine = (run.continued program fuel).machine := by
  -- the induction moves the run one step on, so it is over every run that still goes on
  induction fuel generalizing run with
  | zero => exact Or.inl ⟨going, passed⟩
  | succ fuel ih =>
    have advanced : run.advance program = _ := Run.advance_of_going going
    rw [Run.continued, going]
    cases ended : (run.machine.step program).ending with
    | none =>
      rw [ended] at advanced
      refine ih (run.advance program) (congrArg Run.ending advanced) ?_
      rw [advanced]
      exact .step passed ended
    | some ending =>
      rw [ended] at advanced
      have stays : (run.advance program).continued program fuel = run.advance program :=
        Run.continued_of_ended (congrArg Run.ending advanced) fuel
      refine Or.inr ⟨run.machine, passed, ?_, ?_⟩
      · rw [stays, advanced, ended]
      · rw [stays, advanced]

theorem continued_succ (fuel : Nat) (run : Run) :
    run.continued program (fuel + 1) = (run.continued program fuel).advance program := by
  induction fuel generalizing run with
  | zero =>
    cases ended : run.ending with
    | none => simp only [Run.continued, ended]
    | some ending => simp only [Run.continued, Run.advance, ended]
  | succ fuel ih =>
    cases ended : run.ending with
    | none =>
      have runs (fuel : Nat) : run.continued program (fuel + 1) =
          (run.advance program).continued program fuel := by rw [Run.continued, ended]
      rw [runs, runs, ih]
    | some ending =>
      rw [Run.continued_of_ended ended, Run.continued_of_ended ended, Run.advance, ended]

theorem exists_continued_of_passes {machine : Machine} (passed : Passes program first machine) :
    ∃ fuel, ((Run.start first).continued program fuel).ending = none ∧
      ((Run.start first).continued program fuel).machine = machine := by
  induction passed with
  | start => exact ⟨0, rfl, rfl⟩
  | step _ runs ih =>
    obtain ⟨fuel, going, same⟩ := ih
    refine ⟨fuel + 1, ?_⟩
    rw [continued_succ, Run.advance_of_going going, same]
    exact ⟨runs, rfl⟩

/-- An execution ends as the step at some machine that its run passes does. -/
theorem exists_passes_of_execution {fuel : Nat} {execution : Execution}
    (executed : first.execution? fuel program = some execution) :
    ∃ last, Passes program first last ∧ execution.machine = last.next program ∧
      ∃ reached, (last.step program).ending = some reached ∧
        execution.ending = (last.step program).machine.flushed reached := by
  obtain ⟨reached, ended, rfl⟩ := Option.map_eq_some_iff.mp executed
  rcases continued_passes fuel (Run.start first) rfl .start with
    ⟨going, _⟩ | ⟨last, passed, sameEnding, sameMachine⟩
  · rw [going] at ended
    cases ended
  · have ended := sameEnding.trans ended
    refine ⟨last, passed, ?_, reached, ended, ?_⟩
    · rw [next_of_ended ended, sameMachine]
    · rw [sameMachine]

/-- A run that can end is executed to its end by some number of steps. -/
theorem exists_execution_of_passes {last : Machine} {reached : Ending}
    (passed : Passes program first last) (ended : (last.step program).ending = some reached) :
    ∃ fuel execution, first.execution? fuel program = some execution ∧
      execution.machine = last.next program ∧
      execution.ending = (last.step program).machine.flushed reached := by
  obtain ⟨fuel, going, same⟩ := exists_continued_of_passes passed
  have stepped : ((Run.start first).continued program (fuel + 1)).ending = some reached ∧
      ((Run.start first).continued program (fuel + 1)).machine = (last.step program).machine := by
    rw [continued_succ, Run.advance_of_going going, same]
    exact ⟨ended, rfl⟩
  refine ⟨fuel + 1, _, Option.map_eq_some_iff.mpr ⟨reached, stepped.1, rfl⟩, ?_, ?_⟩
  · rw [next_of_ended ended, ← stepped.2]
  · rw [← stepped.2]

theorem execution?_mono {fuel more : Nat} {execution : Execution} (enough : fuel ≤ more)
    (executed : first.execution? fuel program = some execution) :
    first.execution? more program = some execution := by
  induction enough with
  | refl => exact executed
  | @step more _ ih =>
    obtain ⟨reached, ended, _⟩ := Option.map_eq_some_iff.mp ih
    have stays : (Run.start first).continued program (more + 1) =
        (Run.start first).continued program more := by
      rw [continued_succ, Run.advance, ended]
    rw [← ih, Machine.execution?, stays, Machine.execution?]

/-- A run has a single end, however many steps it is given. -/
theorem execution?_unique {fuel fuelToo : Nat} {execution other : Execution}
    (executed : first.execution? fuel program = some execution)
    (executedToo : first.execution? fuelToo program = some other) : other = execution := by
  have long := execution?_mono (Nat.le_max_left fuel fuelToo) executed
  have longToo := execution?_mono (Nat.le_max_right fuel fuelToo) executedToo
  exact Option.some.inj (longToo.symm.trans long)

theorem continued_eq_of_passes
    (steps : ∀ machine, Passes program first machine → machine.step other = machine.step program)
    (fuel : Nat) (run : Run) (passed : run.ending = none → Passes program first run.machine) :
    run.continued other fuel = run.continued program fuel := by
  induction fuel generalizing run with
  | zero => rfl
  | succ fuel ih =>
    cases ended : run.ending with
    | some reached => rw [Run.continued_of_ended ended, Run.continued_of_ended ended]
    | none =>
      have here := passed ended
      have same : run.advance other = run.advance program := by
        rw [Run.advance_of_going ended, Run.advance_of_going ended, steps _ here]
      rw [Run.continued, Run.continued, ended, same]
      apply ih
      rw [Run.advance_of_going ended]
      exact fun runs => .step here runs

/-- Programs whose steps are the same on the way, and which have as many instructions and
labels, are executed in the same way. -/
theorem execution?_eq_of_passes
    (steps : ∀ machine, Passes program first machine → machine.step other = machine.step program)
    (size : other.size = program.size) (labels : other.labels.length = program.labels.length)
    (fuel : Nat) : first.execution? fuel other = first.execution? fuel program := by
  have runs := continued_eq_of_passes steps fuel (Run.start first) fun _ => .start
  simp only [Machine.execution?, runs, size, labels]

/-- A flush leaves the end of a run as it is, or turns a halt into a failed output. -/
theorem flushed_cases (machine : Machine) (reached : Ending) :
    machine.flushed reached = reached ∨
      ∃ error, machine.flushed reached = .failed ⟨machine.pc, .output error⟩ := by
  cases reached with
  | failed error => exact Or.inl rfl
  | crashed crash => exact Or.inl rfl
  | halted halt =>
    simp only [Machine.flushed]
    split
    · exact Or.inl rfl
    · exact Or.inr ⟨_, rfl⟩

/-- The machines that are left after so many executions of a program. -/
inductive Executes (program : Program) (first : Machine) : Machine → Prop where
  | start : Executes program first first
  | execute {machine : Machine} {fuel : Nat} {execution : Execution}
      (earlier : Executes program first machine)
      (executed : machine.execution? fuel program = some execution) :
      Executes program first execution.machine

theorem Executes.reachable {machine : Machine} (executed : Executes program first machine) :
    Reachable program first machine := by
  induction executed with
  | start => exact .start
  | execute _ executed ih =>
    obtain ⟨last, passed, same, _⟩ := exists_passes_of_execution executed
    rw [same]
    exact .step (ih.trans passed.reachable)

/-- A text that a sink has refused can be written by the next execution, if the sink takes it
then. -/
example :
    let sink : Sink :=
      ⟨fun past _ => if past.isEmpty then some (⟨"busy"⟩, []) else none, fun _ => none⟩
    let program : Program := ⟨[⟨1, "WRITE".toList, [⟨.literal .string, ['a']⟩]⟩], []⟩
    let outcome (execution : Execution) := (execution.ending, execution.machine.output.text)
    let first := (Machine.start ⟨[]⟩ sink.fresh).execution? 2 program
    let second := first.bind fun execution => execution.machine.execution? 2 program
    first.map outcome = some (.failed ⟨0, .output ⟨"busy"⟩⟩, []) ∧
      second.map outcome = some (.halted .completed, ['a']) := by
  decide +kernel

end Executions

end IPPcode24
