import IPPcode24.Proofs.Atomicity

/-!
# Restarts

A machine that has stopped can be executed again. It is then at the same place, with
the same frames and open calls, so its step ends the run in the same way, and with the
same failure when a READ cannot assign what it has read, whatever the line is. A sink
that does not change its mind refuses again what it has refused. Only the count of steps,
the input and what the sink has been asked move on.
-/

namespace IPPcode24

namespace Input

def afterLines : Nat → Input → Input
  | 0, input => input
  | count + 1, input => afterLines count input.nextLine.2

/-- No value that is read from the input crashes, on whatever line it is read. -/
def Readable (input : Input) : Prop :=
  ∀ count kind crash, ((input.afterLines count).read kind).1 ≠ .error crash

variable {input : Input}

theorem Readable.read_ne_crash (readable : input.Readable) (kind : Kind) (crash : Crash) :
    (input.read kind).1 ≠ .error crash := readable 0 kind crash

theorem Readable.nextLine (readable : input.Readable) : input.nextLine.2.Readable :=
  fun count => readable (count + 1)

theorem readable_of_nextLine (first : ∀ kind crash, (input.read kind).1 ≠ .error crash)
    (others : input.nextLine.2.Readable) : input.Readable := by
  intro count
  cases count with
  | zero => exact first
  | succ count => exact others count

/-- There is nothing to read at the end of the input. -/
theorem readable_of_nil : (⟨[]⟩ : Input).Readable := by
  intro count kind crash
  have stays : (⟨[]⟩ : Input).afterLines count = ⟨[]⟩ := by
    induction count with
    | zero => rfl
    | succ count ih => exact ih
  rw [stays]
  cases kind <;> exact nofun

end Input

/-- The same sink after further requests. -/
def Output.Later (output later : Output) : Prop :=
  later.sink = output.sink ∧ ∃ more, later.past = more ++ output.past

namespace Output

variable {output later : Output}

theorem Later.refl (output : Output) : output.Later output := ⟨rfl, [], rfl⟩

theorem Later.trans {last : Output} (first : output.Later later) (second : later.Later last) :
    output.Later last := by
  obtain ⟨sink, more, past⟩ := first
  obtain ⟨sinkToo, moreToo, pastToo⟩ := second
  exact ⟨sinkToo.trans sink, moreToo ++ more, by rw [pastToo, past, List.append_assoc]⟩

theorem later_write (output : Output) (text : Text) : output.Later (output.write text).2 := by
  obtain ⟨reception, past⟩ := output.past_write text
  exact ⟨output.sink_write text, [reception], past⟩

theorem later_flush (output : Output) : output.Later output.flush.2 := by
  obtain ⟨reception, past⟩ := output.past_flush
  exact ⟨output.sink_flush, [reception], past⟩

theorem write_eq_error_iff {text : Text} {error : OutputError} :
    (output.write text).1 = .error error ↔
      ∃ kept, output.sink.refusal? output.past text = some (error, kept) := by
  rw [write]
  cases output.sink.refusal? output.past text with
  | none => simp
  | some refusal =>
    obtain ⟨other, kept⟩ := refusal
    simp

/-- A steady sink refuses a text again that it has refused. -/
theorem Later.write_refused (steady : output.sink.Steady) (since : output.Later later)
    {text : Text} {error : OutputError} (refused : (output.write text).1 = .error error) :
    (later.write text).1 = .error error := by
  obtain ⟨kept, refusal⟩ := write_eq_error_iff.mp refused
  obtain ⟨sink, more, past⟩ := since
  rw [write_eq_error_iff, sink, past]
  exact steady.refused_later refusal more

theorem Later.flush_eq (steady : output.sink.Steady) (since : output.Later later) :
    later.flush.1 = output.flush.1 := by
  obtain ⟨sink, more, past⟩ := since
  have same : later.sink.flushError? later.past = output.sink.flushError? output.past := by
    rw [sink, past, steady.flushError?_later]
  rw [flush, flush, same]
  cases output.sink.flushError? output.past <;> rfl

end Output

/-- The machine with another count of steps, another input and another output. -/
def Machine.resumed (machine : Machine) (steps : Nat) (input : Input) (output : Output) :
    Machine :=
  { machine with steps, input, output }

section Steps

variable {program : Program} {machine : Machine} {steps : Nat} {input : Input} {output : Output}

/-- An effect is refused again for the same reason, if its read does not crash and its sink is
steady. -/
theorem refused_of_resumed {effect : Effect} {fault : Fault}
    (readable : ∀ kind crash, (input.read kind).1 ≠ .error crash)
    (steady : machine.output.sink.Steady) (since : machine.output.Later output)
    (refused : (machine.perform effect).flow = .error (.error fault)) :
    ((machine.resumed steps input output).perform effect).flow = .error (.error fault) := by
  cases effect with
  | pass | jump _ | call _ | exit _ | print _ | inspect | createFrame => cases refused
  | define ref | assign ref value | pushFrame | popFrame =>
    obtain ⟨error, same, failure⟩ := withFrames_refused refused
    rw [Machine.perform, Machine.resumed, same, failure]
    rfl
  | write text =>
    cases refusal_of_perform refused with
    | write refusal =>
      have again : ((machine.resumed steps input output).output.write text).1 = _ :=
        since.write_refused steady refusal
      rw [perform_write, again]
      rfl
  | ret =>
    cases refusal_of_perform refused with
    | ret empty =>
      simp only [Machine.perform, Machine.resumed, CallStack.pop?, empty, Machine.refuse]
      rfl
  | read target kind =>
    have refuses := refuses_of_readInto refused
    cases given : (input.read kind).1 with
    | error crash => exact absurd given (readable kind crash)
    | ok value? =>
      have stored : (machine.resumed steps input output).frames.stored target
          (value?.getD .nil) = .error (.error fault) := refuses _
      rw [Machine.perform, readInto_of_ok given, stored]

/-- A machine that stops does so again, with whatever count of steps, whatever input without
crashes and whatever has been asked of a steady sink since. -/
theorem ending_of_resumed {ending : Ending}
    (readable : ∀ kind crash, (input.read kind).1 ≠ .error crash)
    (steady : machine.output.sink.Steady) (since : machine.output.Later output)
    (ended : (machine.step program).ending = some ending)
    (returned : ∀ crash, ending ≠ .crashed crash) :
    ((machine.resumed steps input output).step program).ending = some ending := by
  have transition := transition_of_step program machine
  generalize (machine.step program).machine = next at transition
  rw [ended] at transition
  generalize same : some ending = reached at transition
  cases transition with
  | completed past => simp [Machine.step, Machine.resumed, past]
  | unknown fetched unknown => simp [Machine.step, Machine.resumed, fetched, unknown]
  | planless dispatched failed =>
    have again : Dispatches program (machine.resumed steps input output) _ _ :=
      ⟨dispatched.fetched, dispatched.known⟩
    rw [ending_of_dispatches again]
    simp only [Machine.execute, Machine.counted, Machine.resumed, failed]
    exact (Performed.settle_of_error rfl).2
  | @performed _ _ _ flow dispatched planned performed =>
    have again : Dispatches program (machine.resumed steps input output) _ _ :=
      ⟨dispatched.fetched, dispatched.known⟩
    rw [ending_of_planned again planned]
    cases flow with
    | next | jump place => cases same
    | exit code =>
      cases moves_of_perform performed with
      | exit => rfl
  | @refused _ _ effect failure dispatched planned refused =>
    have again : Dispatches program (machine.resumed steps input output) _ _ :=
      ⟨dispatched.fetched, dispatched.known⟩
    rw [ending_of_planned again planned]
    cases failure with
    | crash crash => exact absurd (Option.some.inj same) (returned crash)
    | error fault =>
      have refusedAgain :
          ((machine.counted.resumed (steps + 1) input output).perform effect).flow =
            .error (.error fault) := refused_of_resumed readable steady since refused
      refine (Performed.settle_of_error refusedAgain).2.trans ?_
      rw [perform_pc]
      rfl

theorem OutputAtEnd.later {ending : Ending} (left : OutputAtEnd program machine ending output) :
    machine.output.Later output := by
  cases left with
  | same => exact .refl _
  | written _ vain =>
    cases vain with
    | intro => exact machine.output.later_write _

theorem later_closed (machine : Machine) (reached : Ending) :
    machine.output.Later (machine.closed reached).output := by
  cases reached with
  | halted _ | failed _ => exact machine.output.later_flush
  | crashed _ => exact .refl _

theorem later_step {ending : Ending} (ended : (machine.step program).ending = some ending) :
    machine.output.Later (machine.step program).machine.output := by
  obtain ⟨input, output, same, _, left⟩ := machine_of_ended ended
  rw [same]
  exact left.later

theorem later_next {ending : Ending} (ended : (machine.step program).ending = some ending) :
    machine.output.Later (machine.next program).output := by
  rw [next_of_ended ended]
  exact (later_step ended).trans (later_closed _ _)

theorem text_next {ending : Ending} (ended : (machine.step program).ending = some ending)
    (keeps : machine.output.sink.KeepsNothing) :
    (machine.next program).output.text = machine.output.text := by
  obtain ⟨input, output, same, _, left⟩ := machine_of_ended ended
  rw [next_of_ended ended, text_closed, same]
  exact left.text_eq keeps

theorem next_of_stopped {ending : Ending} (ended : (machine.step program).ending = some ending) :
    ∃ input output, machine.next program =
        machine.resumed (machine.steps + program.countAt machine.pc) input output ∧
      InputAtEnd program machine ending input := by
  obtain ⟨input, output, same, moved, _⟩ := machine_of_ended ended
  obtain ⟨last, closed⟩ := closed_eq (machine.step program).machine ending
  refine ⟨input, last, ?_, moved⟩
  rw [next_of_ended ended, closed, same]
  rfl

theorem flushed_congr {other : Machine} (place : other.pc = machine.pc)
    (flush : other.output.flush.1 = machine.output.flush.1) (reached : Ending) :
    other.flushed reached = machine.flushed reached := by
  cases reached with
  | halted halt => rw [Machine.flushed, Machine.flushed, flush, place]
  | failed _ | crashed _ => rfl

/-- A steady sink comes to the same end before and after a step that ends its run. -/
theorem flushed_of_stopped {reached : Ending} (steady : machine.output.sink.Steady)
    (ended : (machine.step program).ending = some reached) :
    (machine.step program).machine.flushed reached = machine.flushed reached := by
  obtain ⟨input, output, same, _⟩ := machine_of_ended ended
  exact flushed_congr (by rw [same]) ((later_step ended).flush_eq steady) reached

/-! ## Executions of a stopped machine -/

/-- A machine whose next step ends the run is executed by that step alone. -/
theorem execution?_of_ended {reached : Ending}
    (ended : (machine.step program).ending = some reached) :
    ∃ execution, (∀ fuel, machine.execution? (fuel + 1) program = some execution) ∧
      execution.machine = machine.next program ∧
      execution.ending = (machine.step program).machine.flushed reached := by
  have advanced : ((Run.start machine).advance program).ending = some reached := ended
  have stays (fuel : Nat) : (Run.start machine).continued program (fuel + 1) =
      (Run.start machine).advance program := by
    induction fuel with
    | zero => rfl
    | succ fuel ih =>
      rw [continued_succ, ih, Run.advance, advanced]
  obtain ⟨needed, execution, executed, same, flushed⟩ := exists_execution_of_passes .start ended
  cases needed with
  | zero => cases executed
  | succ needed =>
    refine ⟨execution, fun fuel => ?_, same, flushed⟩
    rw [← executed, Machine.execution?, stays, Machine.execution?, stays]

/-- What has become of a machine that has stopped and may have been executed again. -/
structure Machine.ResumedAs (machine later : Machine) : Prop where
  resumed : ∃ steps input output, later = machine.resumed steps input output
  since : machine.output.Later later.output
  text : machine.output.sink.KeepsNothing → later.output.text = machine.output.text
  readable : later.input.Readable

section Stopped

variable {stopped later : Machine} {reached : Ending}
  (ended : (stopped.step program).ending = some reached)
  (returned : ∀ crash, reached ≠ .crashed crash) (steady : stopped.output.sink.Steady)

include ended returned steady

theorem Machine.ResumedAs.ending (resumed : stopped.ResumedAs later) :
    (later.step program).ending = some reached := by
  obtain ⟨⟨steps, input, output, rfl⟩, since, _, readable⟩ := resumed
  exact ending_of_resumed readable.read_ne_crash steady since ended returned

theorem Machine.ResumedAs.next (resumed : stopped.ResumedAs later) :
    stopped.ResumedAs (later.next program) := by
  have again := resumed.ending ended returned steady
  obtain ⟨input, output, same, moved⟩ := next_of_stopped again
  refine ⟨?_, resumed.since.trans (later_next again), fun keeps => ?_, ?_⟩
  · obtain ⟨steps, rest, sink, rfl⟩ := resumed.resumed
    exact ⟨_, input, output, same⟩
  · have keepsToo : later.output.sink.KeepsNothing := resumed.since.1 ▸ keeps
    exact (text_next again keepsToo).trans (resumed.text keeps)
  · have readable := resumed.readable
    rw [same]
    cases moved with
    | same => exact readable
    | crashed _ | read _ _ => exact readable.nextLine

theorem Machine.ResumedAs.exists_execution (resumed : stopped.ResumedAs later) :
    ∃ again, (∀ fuel, later.execution? (fuel + 1) program = some again) ∧
      again.machine = later.next program ∧ again.ending = stopped.flushed reached := by
  have endedAgain := resumed.ending ended returned steady
  have since := resumed.since
  have steadyToo : later.output.sink.Steady := since.1 ▸ steady
  obtain ⟨again, executes, same, ending⟩ := execution?_of_ended endedAgain
  have place : later.pc = stopped.pc := by
    obtain ⟨steps, input, output, rfl⟩ := resumed.resumed
    rfl
  refine ⟨again, executes, same, ?_⟩
  rw [ending, flushed_of_stopped steadyToo endedAgain]
  exact flushed_congr place (since.flush_eq steady) reached

theorem Machine.ResumedAs.executes {first : Machine} (resumed : stopped.ResumedAs first)
    (repeated : Executes program first later) : stopped.ResumedAs later := by
  induction repeated with
  | start => exact resumed
  | @execute _ fuel execution _ executed ih =>
    obtain ⟨only, executes, same, _⟩ := ih.exists_execution ended returned steady
    cases fuel with
    | zero => cases executed
    | succ fuel =>
      obtain rfl : execution = only :=
        Option.some.inj (executed.symm.trans (executes fuel))
      rw [same]
      exact ih.next ended returned steady

end Stopped

end Steps

/-- A program that reads a number into a variable which is not declared. -/
def readsUndeclared : Program :=
  ⟨[⟨1, "READ".toList, [⟨.var, "GF@x".toList⟩, ⟨.type, "int".toList⟩]⟩], []⟩

def undeclaredX : Ending := .failed ⟨0, .variableUndefined ⟨.gf, ['x']⟩⟩

/-- A sink that takes two bytes. -/
def twoBytes : Sink := .bounded 2 ⟨"no space left"⟩ none

/-- The machine of that program after so many executions, with the rest of the input. -/
def stoppedReading (count : Nat) (rest : String) : Machine :=
  ⟨.empty, [], 0, count, ⟨Text.utf8 rest.toList⟩, ⟨twoBytes, .replicate count .flushed⟩⟩

end IPPcode24
