import IPPcode24.Proofs.Rewiring
import IPPcode24.Proofs.Sinks

/-!
# Bounded output

Only a WRITE looks at the sink. So a run on a bounded sink is the run on an unbounded one until
a text would bring the bytes above the bound. There it ends with a failed output, and the sink
holds the texts before that one. A flush comes after everything else, and can only turn a halt
into a failed output.
-/

namespace IPPcode24

/-! ## Texts that a run writes -/

/-- The text that the next instruction of the machine is going to write. -/
def Machine.text? (program : Program) (machine : Machine) : Option Text := do
  let instruction ← program.instructions[machine.pc]?
  let opcode ← instruction.opcode?
  match opcode.plan program.labels machine.frames instruction.operands with
  | .ok (.write text) => some text
  | _ => none

/-- The text that the next step of the run is going to write, unless the run has ended. -/
def Run.text? (program : Program) (run : Run) : Option Text :=
  match run.ending with
  | some _ => none
  | none => run.machine.text? program

/-- The texts that a run is going to write in so many steps, if its sink takes them. -/
def Run.texts (program : Program) (run : Run) : Nat → List Text
  | 0 => []
  | count + 1 => run.texts program count ++ ((run.continued program count).text? program).toList

def Run.bytes (program : Program) (run : Run) (count : Nat) : Nat :=
  (Text.utf8 (run.texts program count).flatten).length

/-- The step after so many ones writes the first text that brings the bytes above the bound. -/
structure Run.Exceeds (program : Program) (run : Run) (limit count : Nat) (text : Text) :
    Prop where
  going : (run.continued program count).ending = none
  writes : Plans program (run.continued program count).machine (.write text)
  fits : run.bytes program count ≤ limit
  exceeds : limit < run.bytes program count + (Text.utf8 text).length

/-! ## Bounded sinks -/

def Output.onto (sink : Sink) (output : Output) : Output := { output with sink }

def Rewiring.onto (sink : Sink) : Rewiring := ⟨id, Output.onto sink⟩

/-- The end of a run whose output does not flush. -/
def Ending.unflushed (place : Nat) (error : OutputError) : Ending → Ending
  | halted _ => .failed ⟨place, .output error⟩
  | ending => ending

section Sinks

variable {output : Output} {limit : Nat} {full : OutputError} {flushError? : Option OutputError}

theorem Output.refusal?_bounded (limit : Nat) (full : OutputError)
    (flushError? : Option OutputError) (text : Text) :
    (Sink.bounded limit full flushError?).refusal? output.past text =
      if (Text.utf8 output.text).length + (Text.utf8 text).length ≤ limit then none
      else some (full, []) := by
  rw [Text.length_utf8, Text.length_utf8]
  rfl

theorem Output.write_of_fits {text : Text}
    (fits : (Text.utf8 output.text).length + (Text.utf8 text).length ≤ limit) :
    (output.onto (.bounded limit full flushError?)).write text =
      (.ok (), (output.taking text).onto (.bounded limit full flushError?)) := by
  have taken := (Output.refusal?_bounded limit full flushError? text).trans (if_pos fits)
  simp only [Output.write, Output.onto, taken]
  rfl

theorem Output.write_of_exceeds {text : Text}
    (exceeds : limit < (Text.utf8 output.text).length + (Text.utf8 text).length) :
    (output.onto (.bounded limit full flushError?)).write text =
      (.error full, (output.refusing text full).onto (.bounded limit full flushError?)) := by
  have refused := (Output.refusal?_bounded limit full flushError? text).trans
    (if_neg (Nat.not_le_of_lt exceeds))
  simp only [Output.write, Output.onto, refused]
  rfl

/-- What a flush makes of the end of a run. -/
theorem flushed_eq (machine : Machine) (reached : Ending) :
    machine.flushed reached =
      (machine.output.sink.flushError? machine.output.past).elim reached
        fun error => reached.unflushed machine.pc error := by
  cases reached with
  | failed error | crashed crash =>
    cases machine.output.sink.flushError? machine.output.past <;> rfl
  | halted halt =>
    simp only [Machine.flushed, Output.flush]
    cases machine.output.sink.flushError? machine.output.past <;> rfl

end Sinks

/-! ## Steps -/

section Steps

variable {program : Program} {machine : Machine} {limit : Nat} {full : OutputError}
  {flushError? : Option OutputError}

theorem text?_eq_some_iff {text : Text} :
    machine.text? program = some text ↔ Plans program machine (.write text) := by
  constructor
  · intro writes
    obtain ⟨instruction, fetched, writes⟩ := Option.bind_eq_some_iff.mp writes
    obtain ⟨opcode, known, writes⟩ := Option.bind_eq_some_iff.mp writes
    split at writes
    · rename_i planned
      cases writes
      exact ⟨instruction, opcode, ⟨fetched, known⟩, planned⟩
    · cases writes
  · rintro ⟨instruction, opcode, ⟨fetched, known⟩, planned⟩
    simp only [Machine.text?, fetched, known, Option.bind_eq_bind, Option.bind_some, planned]

theorem output_of_perform {effect : Effect} (silent : ∀ text, effect ≠ .write text) :
    (machine.perform effect).machine.output = machine.output := by
  cases effect with
  | pass | jump _ | call _ | exit _ | print _ | inspect => rfl
  | write text => exact absurd rfl (silent text)
  | define ref | assign ref value | createFrame | pushFrame | popFrame =>
    obtain ⟨frames, same⟩ := withFrames_machine machine _ _
    rw [Machine.perform, same]
  | read target kind =>
    obtain ⟨frames, input, same⟩ := readInto_machine machine target kind
    rw [Machine.perform, same]
  | ret =>
    simp only [Machine.perform]
    split <;> rfl

theorem output_of_silent (silent : machine.text? program = none) :
    (machine.step program).machine.output = machine.output := by
  have unwritten {instruction : Instruction} {opcode : Opcode} {effect : Effect}
      (dispatched : Dispatches program machine instruction opcode)
      (planned : opcode.plan program.labels machine.frames instruction.operands = .ok effect)
      (text : Text) : effect ≠ .write text := by
    rintro rfl
    rw [text?_eq_some_iff.mpr ⟨instruction, opcode, dispatched, planned⟩] at silent
    cases silent
  have transition := transition_of_step program machine
  generalize (machine.step program).machine = next at transition
  generalize (machine.step program).ending = reached at transition
  cases transition with
  | completed past => rfl
  | unknown fetched unknown => rfl
  | planless dispatched failed => rfl
  | refused dispatched planned refused => exact output_of_perform (unwritten dispatched planned)
  | @performed _ _ effect flow dispatched planned performed =>
    have same : (flow.settle (machine.counted.perform effect).machine).1.output =
        (machine.counted.perform effect).machine.output := by cases flow <;> rfl
    rw [same]
    exact output_of_perform (unwritten dispatched planned)

theorem step_of_writes {text : Text} (writes : Plans program machine (.write text))
    (takes : machine.output.sink.TakesAll) :
    (machine.step program).machine.output = machine.output.taking text ∧
      (machine.step program).ending = none := by
  have taken : machine.counted.output.write text = (.ok (), machine.output.taking text) :=
    Output.write_of_takesAll takes text
  obtain ⟨stepped, ended⟩ := step_of_plans writes
  simp only [stepped, ended, Machine.perform, taken]
  exact ⟨rfl, rfl⟩

/-- A step does the same on a bounded sink if what is written after it fits. -/
theorem step_bounded (takes : machine.output.sink.TakesAll)
    (fits : (Text.utf8 (machine.step program).machine.output.text).length ≤ limit) :
    (machine.rewired (.onto (.bounded limit full flushError?))).step program =
      (machine.step program).rewired (.onto (.bounded limit full flushError?)) := by
  refine step_rewired (fun effect plans => ?_) fun _ => rfl
  cases effect with
  | read target kind => exact readInto_rewired rfl rfl target
  | write text =>
    rw [(step_of_writes plans takes).1, Output.text_taking, Text.utf8_append,
      List.length_append] at fits
    have taken : machine.counted.output.write text = (.ok (), machine.output.taking text) :=
      Output.write_of_takesAll takes text
    have takenToo :
        (machine.counted.rewired (.onto (.bounded limit full flushError?))).output.write text =
          (.ok (), (machine.output.taking text).onto (.bounded limit full flushError?)) :=
      Output.write_of_fits fits
    simp only [Machine.perform, taken, takenToo]
    rfl
  | _ => exact perform_rewired trivial

/-- A bounded sink refuses the text that exceeds its bound, and the step changes nothing but
the count of steps and what the sink remembers. -/
theorem step_bounded_of_exceeds {text : Text} (writes : Plans program machine (.write text))
    (exceeds : limit < (Text.utf8 machine.output.text).length + (Text.utf8 text).length) :
    ((machine.rewired (.onto (.bounded limit full flushError?))).step program).machine =
        { machine.counted with
          output := (machine.output.refusing text full).onto (.bounded limit full flushError?) } ∧
      ((machine.rewired (.onto (.bounded limit full flushError?))).step program).ending =
        some (.failed ⟨machine.pc, .output full⟩) := by
  have refused :
      (machine.counted.rewired (.onto (.bounded limit full flushError?))).output.write text =
        (.error full, (machine.output.refusing text full).onto (.bounded limit full flushError?)) :=
    Output.write_of_exceeds exceeds
  obtain ⟨stepped, ended⟩ :=
    step_of_plans (writes.rewired (.onto (.bounded limit full flushError?)))
  have performed : (machine.rewired (.onto (.bounded limit full flushError?))).counted.perform
        (.write text) = Machine.refuse { machine.counted with
          output := (machine.output.refusing text full).onto (.bounded limit full flushError?) }
        (.output full) := by
    change (machine.counted.rewired (.onto (.bounded limit full flushError?))).perform _ = _
    simp only [Machine.perform, refused]
    rfl
  rw [stepped, ended, performed]
  exact ⟨rfl, rfl⟩

end Steps

/-! ## Runs -/

section Runs

variable {program : Program} {run : Run} {limit : Nat} {full : OutputError}
  {flushError? : Option OutputError}

/-- On a sink that takes every text a step of a run adds the text that it writes, if there is
one. -/
theorem output_of_advance (takes : run.machine.output.sink.TakesAll) :
    (run.advance program).machine.output =
      (run.text? program).elim run.machine.output run.machine.output.taking := by
  cases ended : run.ending with
  | some reached => simp only [Run.advance, Run.text?, ended, Option.elim_none]
  | none =>
    rw [Run.advance_of_going ended]
    simp only [Run.text?, ended]
    cases writes : run.machine.text? program with
    | none => exact output_of_silent writes
    | some text => exact (step_of_writes (text?_eq_some_iff.mp writes) takes).1

theorem output_of_continued (takes : run.machine.output.sink.TakesAll) (count : Nat) :
    (run.continued program count).machine.output =
      { run.machine.output with
        past := ((run.texts program count).map .taken).reverse ++ run.machine.output.past } := by
  induction count with
  | zero => rfl
  | succ count ih =>
    have stays : (run.continued program count).machine.output.sink.TakesAll := by
      rw [ih]
      exact takes
    rw [continued_succ, output_of_advance stays, Run.texts, ih]
    cases (run.continued program count).text? program with
    | none => simp
    | some text => simp [Output.taking]

theorem texts_prefix (program : Program) (run : Run) {count more : Nat} (enough : count ≤ more) :
    run.texts program count <+: run.texts program more := by
  induction enough with
  | refl => exact List.prefix_rfl
  | step _ ih => exact ih.trans (List.prefix_append _ _)

theorem bytes_succ (count : Nat) :
    run.bytes program (count + 1) = run.bytes program count +
      (Text.utf8 (((run.continued program count).text? program).getD [])).length := by
  rw [Run.bytes, Run.bytes, Run.texts, List.flatten_append, Text.utf8_append, List.length_append]
  cases (run.continued program count).text? program with
  | none => rfl
  | some text => simp only [Option.toList_some, List.flatten_singleton, Option.getD_some]

theorem bytes_mono (program : Program) (run : Run) {count more : Nat} (enough : count ≤ more) :
    run.bytes program count ≤ run.bytes program more := by
  obtain ⟨rest, same⟩ := texts_prefix program run enough
  rw [Run.bytes, Run.bytes, ← same, List.flatten_append, Text.utf8_append, List.length_append]
  exact Nat.le_add_right _ _

/-- A run whose texts exceed the bound has come to the first one that does. -/
theorem exists_exceeds {fuel : Nat} (exceeds : limit < run.bytes program fuel) :
    ∃ count text, count < fuel ∧ run.Exceeds program limit count text := by
  induction fuel with
  | zero => exact absurd exceeds (Nat.not_lt_zero limit)
  | succ fuel ih =>
    -- unless an earlier step exceeds the bound, the last one is the first to do so
    by_cases earlier : limit < run.bytes program fuel
    · obtain ⟨count, text, before, first⟩ := ih earlier
      exact ⟨count, text, Nat.lt_succ_of_lt before, first⟩
    · have fits := Nat.le_of_not_lt earlier
      rw [bytes_succ] at exceeds
      cases writes : (run.continued program fuel).text? program with
      | none =>
        rw [writes] at exceeds
        exact absurd exceeds earlier
      | some text =>
        rw [writes, Option.getD_some] at exceeds
        rw [Run.text?] at writes
        split at writes
        · cases writes
        · exact ⟨fuel, text, Nat.lt_succ_self fuel, ‹_›, text?_eq_some_iff.mp writes, fits, exceeds⟩

section Fresh

variable (fresh : run.machine.output = .unbounded)

include fresh

theorem output_of_fresh (count : Nat) : (run.continued program count).machine.output =
    ⟨.unbounded, ((run.texts program count).map .taken).reverse⟩ := by
  have takes : run.machine.output.sink.TakesAll := by
    rw [fresh]
    exact Sink.takesAll_unbounded
  rw [output_of_continued takes, fresh]
  exact congrArg (Output.mk _) (List.append_nil _)

theorem text_of_fresh (count : Nat) : (run.continued program count).machine.output.text =
    (run.texts program count).flatten := by
  have kept : Reception.kept ∘ Reception.taken = id := rfl
  rw [output_of_fresh fresh, Output.text, Reception.contents, List.map_reverse,
    List.reverse_reverse, List.map_map, kept, List.map_id]

theorem takesAll_of_fresh (count : Nat) :
    (run.continued program count).machine.output.sink.TakesAll := by
  rw [output_of_fresh fresh]
  exact Sink.takesAll_unbounded

/-- A run is the same on a bounded sink as long as its texts fit. -/
theorem continued_bounded {count : Nat} (fits : run.bytes program count ≤ limit) :
    (run.rewired (.onto (.bounded limit full flushError?))).continued program count =
      (run.continued program count).rewired (.onto (.bounded limit full flushError?)) := by
  induction count with
  | zero => rfl
  | succ count ih =>
    -- the texts before the last step fit too, so the runs are still the same there
    have before := Nat.le_trans (bytes_mono program run (Nat.le_succ count)) fits
    rw [Run.bytes, ← text_of_fresh fresh, continued_succ] at fits
    rw [continued_succ, continued_succ, ih before]
    cases ended : (run.continued program count).ending with
    | some reached =>
      have endedToo : ((run.continued program count).rewired
          (.onto (.bounded limit full flushError?))).ending = some reached := ended
      simp only [Run.advance, ended, endedToo]
    | none =>
      rw [Run.advance_of_going ended] at fits
      exact advance_rewired ended (step_bounded (takesAll_of_fresh fresh count) fits)

theorem continued_of_exceeds (full : OutputError) (flushError? : Option OutputError) {count : Nat}
    {text : Text} (first : run.Exceeds program limit count text) :
    let before := (run.continued program count).machine
    let stopped :=
      (run.rewired (.onto (.bounded limit full flushError?))).continued program (count + 1)
    stopped.machine = { before.counted with
        output := (before.output.refusing text full).onto (.bounded limit full flushError?) } ∧
      stopped.ending = some (.failed ⟨before.pc, .output full⟩) := by
  intro before stopped
  have goingToo : ((run.continued program count).rewired
      (.onto (.bounded limit full flushError?))).ending = none := first.going
  have exceeds := first.exceeds
  rw [Run.bytes, ← text_of_fresh fresh count] at exceeds
  have stops : stopped = _ := continued_succ count _
  rw [stops, continued_bounded fresh first.fits, Run.advance_of_going goingToo]
  exact step_bounded_of_exceeds first.writes exceeds

end Fresh

end Runs

/-! ## Executions -/

/-- The run on the bounded sink has ended at the text that exceeds the bound. Everything but
the output is as it was just before that text, but for the count of steps, and the output is the
texts up to there. -/
structure Execution.Truncated (execution : Execution) (full : OutputError) (before : Machine)
    (texts : List Text) : Prop where
  ending : execution.ending = .failed ⟨before.pc, .output full⟩
  machine : { execution.machine with output := before.output } = before.counted
  written : execution.machine.output.text = texts.flatten

section Executions

variable {program : Program} {first : Machine} {limit : Nat} {full : OutputError}

theorem execution?_bounded (fresh : first.output = .unbounded) {fuel : Nat}
    (fits : (Run.start first).bytes program fuel ≤ limit) :
    (first.rewired (.onto (.bounded limit full none))).execution? fuel program =
      (first.execution? fuel program).map
        (Execution.rewired (.onto (.bounded limit full none))) := by
  have runs : (Run.start (first.rewired (.onto (.bounded limit full none)))).continued program
      fuel = _ := continued_bounded fresh fits
  have output : ((Run.start first).continued program fuel).machine.output = _ :=
    output_of_fresh fresh fuel
  rw [Machine.execution?, Machine.execution?, runs]
  generalize (Run.start first).continued program fuel = run at output
  obtain ⟨⟨frames, calls, pc, steps, input, sink⟩, log, ending⟩ := run
  cases output
  cases ending with
  | none => rfl
  | some reached => cases reached <;> rfl

theorem exists_truncated (fresh : first.output = .unbounded) (full : OutputError)
    (flushError? : Option OutputError) {count : Nat} {text : Text}
    (exceeds : (Run.start first).Exceeds program limit count text) :
    ∃ execution, (∀ more, count < more →
        (first.rewired (.onto (.bounded limit full flushError?))).execution? more program =
          some execution) ∧
      execution.Truncated full ((Run.start first).continued program count).machine
        ((Run.start first).texts program count) := by
  obtain ⟨machine, ended⟩ := continued_of_exceeds fresh full flushError? exceeds
  refine ⟨_, fun more enough => execution?_mono enough
    (Option.map_eq_some_iff.mpr ⟨_, ended, rfl⟩), rfl, ?_, ?_⟩
  · have same := congrArg (fun stopped : Machine =>
      { stopped with output := ((Run.start first).continued program count).machine.output }) machine
    exact same
  · have written := congrArg (fun machine : Machine => machine.output.text) machine
    refine (text_closed _ _).trans (written.trans ?_)
    exact (Output.text_refusing _ _ _).trans (text_of_fresh fresh count)

end Executions

/-- A bounded sink only truncates. On an unbounded sink a run has written its texts. As long as
these have no more bytes than the bound, the run is the same on the bounded sink. As soon as
they have more, the run on the bounded sink ends with a failed output, at the first text that
exceeds the bound and with the earlier texts written, whether or not the sink can flush. On any
sink a failed flush makes a failed output of a halt, and leaves any other end as it is. -/
theorem bounded_sink_truncates (program : Program) (input : Input) (limit : Nat)
    (full : OutputError) (flushError? : Option OutputError) :
    let free := Run.start (.start input .unbounded)
    let sink := Sink.bounded limit full flushError?
    let bounded := Machine.start input sink.fresh
    (∀ count, (free.continued program count).machine.output.text =
      (free.texts program count).flatten) ∧
    (∀ fuel, free.bytes program fuel ≤ limit →
      (Run.start bounded).continued program fuel =
          (free.continued program fuel).rewired (.onto sink) ∧
        (flushError? = none → bounded.execution? fuel program =
          (free.machine.execution? fuel program).map (Execution.rewired (.onto sink)))) ∧
    (∀ fuel, limit < free.bytes program fuel →
      ∃ count text execution, count < fuel ∧ free.Exceeds program limit count text ∧
        (∀ more, count < more → bounded.execution? more program = some execution) ∧
        execution.Truncated full (free.continued program count).machine
          (free.texts program count) ∧
        execution.machine.output.text <+: (free.continued program fuel).machine.output.text) ∧
    ∀ (first : Machine) (fuel : Nat) (execution : Execution),
      first.execution? fuel program = some execution →
      let last := (Run.start first).continued program fuel
      ∃ reached, last.ending = some reached ∧
        execution.ending = (last.machine.output.sink.flushError? last.machine.output.past).elim
          reached fun error => reached.unflushed last.machine.pc error := by
  intro free sink bounded
  have fresh : free.machine.output = .unbounded := rfl
  refine ⟨text_of_fresh fresh, fun fuel fits => ?_, fun fuel exceeds => ?_, ?_⟩
  · refine ⟨continued_bounded fresh fits, ?_⟩
    rintro rfl
    exact execution?_bounded fresh fits
  · obtain ⟨count, text, before, first⟩ := exists_exceeds exceeds
    obtain ⟨execution, executed, truncated⟩ := exists_truncated fresh full flushError? first
    refine ⟨count, text, execution, before, first, executed, truncated, ?_⟩
    obtain ⟨rest, same⟩ := texts_prefix program free (Nat.le_of_lt before)
    rw [truncated.written, text_of_fresh fresh, ← same, List.flatten_append]
    exact List.prefix_append _ _
  · intro first fuel execution executed last
    obtain ⟨reached, ended, rfl⟩ := Option.map_eq_some_iff.mp executed
    exact ⟨reached, ended, flushed_eq _ reached⟩

def writesAccents : Program :=
  ⟨[⟨1, "WRITE".toList, [⟨.literal .string, "aé".toList⟩]⟩,
    ⟨2, "WRITE".toList, [⟨.literal .string, "b".toList⟩]⟩,
    ⟨3, "WRITE".toList, [⟨.literal .string, "cé".toList⟩]⟩], []⟩

/-- On a sink for five bytes that does not flush, the third text is refused. -/
theorem third_accent_is_refused :
    let free := Run.start (.start ⟨[]⟩ .unbounded)
    let sink := Sink.bounded 5 ⟨"sink full"⟩ (some ⟨"flush failed"⟩)
    let bounded := Machine.start ⟨[]⟩ sink.fresh
    free.bytes writesAccents 2 = 4 ∧
    (Run.start bounded).continued writesAccents 2 =
      (free.continued writesAccents 2).rewired (.onto sink) ∧
    free.bytes writesAccents 9 = 7 ∧
    ∃ execution, bounded.execution? 9 writesAccents = some execution ∧
      execution.ending = .failed ⟨2, .output ⟨"sink full"⟩⟩ ∧
      execution.machine.output.text = "aéb".toList ∧
      execution.machine.output.text <+:
        (free.continued writesAccents 9).machine.output.text ∧
      ∃ reached, execution.ending = Ending.unflushed 2 ⟨"flush failed"⟩ reached := by
  intro free sink bounded
  obtain ⟨_, fitting, exceeding, flushing⟩ :=
    bounded_sink_truncates writesAccents ⟨[]⟩ 5 ⟨"sink full"⟩ (some ⟨"flush failed"⟩)
  have four : free.bytes writesAccents 2 = 4 := by decide +kernel
  have seven : free.bytes writesAccents 9 = 7 := by decide +kernel
  have runs := (fitting 2 (four ▸ by decide)).1
  obtain ⟨count, text, execution, before, _, executed, _, start⟩ :=
    exceeding 9 (seven ▸ by decide)
  have executed := executed 9 before
  have stopped : (bounded.execution? 9 writesAccents).map
      (fun execution => (execution.ending, execution.machine.output.text)) =
        some (.failed ⟨2, .output ⟨"sink full"⟩⟩, "aéb".toList) := by decide +kernel
  rw [executed] at stopped
  obtain ⟨ending, written⟩ := Prod.mk.inj (Option.some.inj stopped)
  obtain ⟨reached, _, flushed⟩ := flushing bounded 9 execution executed
  let last := ((Run.start bounded).continued writesAccents 9).machine
  have stands : last.pc = 2 := by decide +kernel
  have fails : last.output.sink.flushError? last.output.past = some ⟨"flush failed"⟩ := by
    decide +kernel
  have unflushed : execution.ending = Ending.unflushed 2 ⟨"flush failed"⟩ reached := by
    rw [flushed, stands, fails]
    rfl
  exact ⟨four, runs, seven, execution, executed, ending, written, start, reached, unflushed⟩

end IPPcode24
