import IPPcode24.Command
import IPPcode24.Proofs.BoundedOutput
import IPPcode24.Proofs.RoundTrip
import IPPcode24.Proofs.Soundness

/-!
# Agreement of the commands

What the commands answer depends on their source only through its text. All of them refuse a
text with the same response, before they read or execute anything else, or all of them load the
same program. The rendering of that program is a text with the same program again. Running it
reports how the execution ended: below ten stand the codes of halts alone.
-/

namespace IPPcode24

open Source

def Command.source? : Command → Option Text
  | help => none
  | run source _ | check source | list source _ => some source

/-- The source is a file, or standard input, with the bytes of the text. -/
def Surroundings.Holds (surroundings : Surroundings) (source text : Text) : Prop :=
  if Surroundings.isStdin source then surroundings.stdin = Text.utf8 text
  else surroundings.file source = .content (Text.utf8 text)

/-- Every command on a source with this text has the same response, without a step of the
program and whatever else there is to read. -/
def Refused (text : Text) (response : Response) : Prop :=
  ∀ (fuel : Nat) (surroundings : Surroundings) (source : Text) (arguments : List Text)
    (command : Command), surroundings.sourceText source = .ok text →
    Command.parse arguments = .ok command → command.source? = some source →
    Command.answer fuel surroundings arguments = some (.ok response)

/-- A response to an execution: the exit code tells how it ended, with codes below ten for
halts alone, and the output has everything that the run has written. -/
structure Execution.AnsweredBy (execution : Execution) (texts : List Text)
    (response : Response) : Prop where
  below_ten : response.code < 10 ↔ ∃ halt, execution.ending = .halted halt
  halted : ∀ halt, execution.ending = .halted halt → response.code = halt.code
  failed : ∀ error, execution.ending = .failed error → response.code = error.exitCode
  written : response.stdout = texts.flatten

/-- The answer to running the program from a machine on: none as long as the program runs on,
and a response to its execution unless that crashes. -/
structure Reported (fuel : Nat) (program : Program) (first : Machine)
    (answer : Option (Except Crash Response)) : Prop where
  pending : answer = none ↔ first.execution? fuel program = none
  ended : ∀ execution, first.execution? fuel program = some execution →
    (∀ crash, execution.ending ≠ .crashed crash) →
    ∃ response, answer = some (.ok response) ∧
      execution.AnsweredBy ((Run.start first).texts program fuel) response

/-- What a command answers to its program. -/
inductive Answered (fuel : Nat) (surroundings : Surroundings) (program : Program) :
    Command → Option (Except Crash Response) → Prop where
  | check {source : Text} :
      Answered fuel surroundings program (.check source)
        (some (.ok ⟨0, Command.confirmation source program, []⟩))
  | list {source : Text} :
      Answered fuel surroundings program (.list source false)
        (some (.ok ⟨0, Command.listing 0 program.instructions, []⟩))
  | listSource {source : Text} :
      Answered fuel surroundings program (.list source true) (some (.ok ⟨0, program.render, []⟩))
  | run {source : Text} {input : Option Text} {bytes : List UInt8}
      {answer : Option (Except Crash Response)}
      (readable : surroundings.inputBytes source input = .ok bytes)
      (reported : Reported fuel program (.start ⟨bytes⟩ .unbounded) answer) :
      Answered fuel surroundings program (.run source input) answer
  | unreadable {source : Text} {input : Option Text} {error : ReadError}
      (unreadable : surroundings.inputBytes source input = .error error) :
      Answered fuel surroundings program (.run source input)
        (some (.ok (LoadError.unreadable (input.getD source) error).response))

/-- Every command on a source with this text loads the program and answers to it. -/
def Accepted (text : Text) (program : Program) : Prop :=
  ∀ (fuel : Nat) (surroundings : Surroundings) (source : Text) (arguments : List Text)
    (command : Command), surroundings.sourceText source = .ok text →
    Command.parse arguments = .ok command → command.source? = some source →
    surroundings.load source = .ok program ∧
      Answered fuel surroundings program command (Command.answer fuel surroundings arguments)

/-! ## Running -/

section Running

variable {fuel : Nat} {program : Program} {first : Machine} {execution : Execution}

theorem Halt.code_lt_ten (halt : Halt) : halt.code < 10 := by
  cases halt with
  | completed => exact Nat.zero_lt_succ 9
  | exit code => exact code.isLt

theorem RunError.ten_le_exitCode (error : RunError) : 10 ≤ error.exitCode := by
  obtain ⟨place, fault⟩ := error
  cases fault <;> exact Nat.le_add_left 10 _

/-- An execution on a fresh output has written the texts of its run. -/
theorem text_of_execution (fresh : first.output = .unbounded)
    (executed : first.execution? fuel program = some execution) :
    execution.machine.output.text = ((Run.start first).texts program fuel).flatten := by
  obtain ⟨reached, _, rfl⟩ := Option.map_eq_some_iff.mp executed
  exact (text_closed _ reached).trans (text_of_fresh fresh fuel)

theorem exists_answeredBy (fresh : first.output = .unbounded)
    (executed : first.execution? fuel program = some execution)
    (calm : ∀ crash, execution.ending ≠ .crashed crash) :
    ∃ response, Command.executed execution = .ok response ∧
      execution.AnsweredBy ((Run.start first).texts program fuel) response := by
  have written := text_of_execution fresh executed
  rw [Command.executed]
  cases ended : execution.ending with
  | crashed crash => exact absurd ended (calm crash)
  | halted halt =>
    refine ⟨_, rfl, ?_, ?_, ?_, written⟩
    · exact iff_of_true halt.code_lt_ten ⟨halt, ended⟩
    · intro other same
      rw [Ending.halted.inj (ended.symm.trans same)]
    · intro error same
      cases ended.symm.trans same
  | failed error =>
    refine ⟨_, rfl, ?_, ?_, ?_, written⟩
    · refine iff_of_false (Nat.not_lt_of_le error.ten_le_exitCode) ?_
      rintro ⟨halt, same⟩
      cases ended.symm.trans same
    · intro halt same
      cases ended.symm.trans same
    · intro other same
      rw [Ending.failed.inj (ended.symm.trans same)]

theorem reported_of_fresh (fresh : first.output = .unbounded) :
    Reported fuel program first ((first.execution? fuel program).map Command.executed) := by
  refine ⟨Option.map_eq_none_iff, ?_⟩
  intro execution executed calm
  obtain ⟨response, same, answered⟩ := exists_answeredBy fresh executed calm
  exact ⟨response, by rw [executed, Option.map_some, same], answered⟩

end Running

/-! ## Loading -/

section Loading

variable {fuel : Nat} {surroundings : Surroundings} {source text : Text} {program : Program}
variable {arguments : List Text} {command : Command}

theorem sourceText_of_holds (holds : surroundings.Holds source text) :
    surroundings.sourceText source = .ok text := by
  rw [Surroundings.Holds] at holds
  rw [Surroundings.sourceText]
  split at holds
  · next stdin => simp only [if_pos stdin, holds, Text.ofUtf8?_utf8]
  · next file => simp only [if_neg file, holds, Text.ofUtf8?_utf8]

theorem load_of_refused {error : LoadError} (readable : surroundings.sourceText source = .ok text)
    (refused : (∃ fault, error = .source fault ∧ assemble text = .error (.error fault)) ∨
      ∃ records fault, error = .build fault ∧ assemble text = .ok records ∧
        Program.build records = .error fault) :
    surroundings.load source = .error (.error error) := by
  rcases refused with ⟨fault, rfl, failed⟩ | ⟨records, fault, rfl, assembled, failed⟩
  · simp only [Surroundings.load, readable, failed]
  · simp only [Surroundings.load, readable, assembled, failed]

theorem load_of_accepted {records : List Instruction}
    (readable : surroundings.sourceText source = .ok text) (assembled : assemble text = .ok records)
    (built : Program.build records = .ok program) : surroundings.load source = .ok program := by
  simp only [Surroundings.load, readable, assembled, built]

theorem answer_of_parse (parsed : Command.parse arguments = .ok command) :
    Command.answer fuel surroundings arguments = command.respond fuel surroundings := by
  rw [Command.answer, parsed]

theorem respond_of_load_error {error : LoadError} (reads : command.source? = some source)
    (refused : surroundings.load source = .error (.error error)) :
    command.respond fuel surroundings = some (.ok error.response) := by
  cases command with
  | help => cases reads
  | run _ input =>
    cases reads
    simp only [Command.respond, Command.withProgram, refused]
  | check _ =>
    cases reads
    simp only [Command.respond, Command.withProgram, refused]
  | list _ asSource =>
    cases reads
    cases asSource <;> simp only [Command.respond, Command.withProgram, refused]

theorem answered_of_load (reads : command.source? = some source)
    (loaded : surroundings.load source = .ok program) :
    Answered fuel surroundings program command (command.respond fuel surroundings) := by
  cases command with
  | help => cases reads
  | check _ =>
    cases reads
    simp only [Command.respond, Command.withProgram, loaded]
    exact .check
  | list _ asSource =>
    cases reads
    cases asSource with
    | true =>
      simp only [Command.respond, Command.withProgram, loaded]
      exact .listSource
    | false =>
      simp only [Command.respond, Command.withProgram, loaded]
      exact .list
  | run _ input =>
    cases reads
    simp only [Command.respond, Command.withProgram, loaded, Command.runResponse]
    cases bytes : surroundings.inputBytes source input with
    | error error => exact .unreadable bytes
    | ok bytes => exact .run ‹_› (reported_of_fresh rfl)

end Loading

/-! ## Texts -/

section Texts

variable {text : Text} {records : List Instruction} {program : Program}

theorem refused_of_assemble {error : SourceError} (failed : assemble text = .error (.error error)) :
    Refused text (LoadError.source error).response := by
  intro fuel surroundings source arguments command readable parsed reads
  rw [answer_of_parse parsed]
  exact respond_of_load_error reads (load_of_refused readable (Or.inl ⟨error, rfl, failed⟩))

theorem refused_of_build {error : BuildError} (assembled : assemble text = .ok records)
    (failed : Program.build records = .error error) :
    Refused text (LoadError.build error).response := by
  intro fuel surroundings source arguments command readable parsed reads
  rw [answer_of_parse parsed]
  exact respond_of_load_error reads
    (load_of_refused readable (Or.inr ⟨records, error, rfl, assembled, failed⟩))

theorem accepted_of_build (assembled : assemble text = .ok records)
    (built : Program.build records = .ok program) : Accepted text program := by
  intro fuel surroundings source arguments command readable parsed reads
  have loaded := load_of_accepted readable assembled built
  rw [answer_of_parse parsed]
  exact ⟨loaded, answered_of_load reads loaded⟩

/-- What the program of a source text is rendered as is accepted with the same program. -/
theorem accepted_render (assembled : assemble text = .ok records)
    (built : Program.build records = .ok program) : Accepted program.render program := by
  obtain ⟨keyed, proper⟩ := keyed_and_proper_of_assemble assembled
  have same := Program.instructions_of_keyed keyed built
  have writable : ∀ instruction ∈ program.instructions, ∃ opcode, instruction.Writable opcode := by
    intro instruction member
    obtain ⟨opcode, writable, _⟩ := (proper instruction (same ▸ member)).writable
    exact ⟨opcode, writable⟩
  have reassembled := assemble_render writable
  rw [same, canonical_eq_self keyed proper] at reassembled
  exact accepted_of_build reassembled built

theorem code_of_refused_build (assembled : assemble text = .ok records) {error : BuildError}
    (failed : Program.build records = .error error) : error.exitCode = 52 := by
  obtain ⟨keyed, proper⟩ := keyed_and_proper_of_assemble assembled
  obtain ⟨name, place, rfl⟩ := duplicateLabel_of_build keyed proper failed
  rfl

theorem SourceError.exitCode_mem (error : SourceError) : error.exitCode ∈ [21, 22, 23, 52] := by
  obtain ⟨line, fault⟩ := error
  cases fault <;> simp [exitCode]

/-- Running a copy on an input is running the original on it. -/
theorem Accepted.run_copy {copy : Text} (accepted : Accepted text program)
    (acceptedToo : Accepted copy program) {fuel : Nat} {surroundings others : Surroundings}
    {source name path : Text} {arguments argumentsToo : List Text}
    (readable : surroundings.sourceText source = .ok text)
    (readableToo : others.sourceText name = .ok copy)
    (input : others.file path = surroundings.file path)
    (parsed : Command.parse arguments = .ok (.run source (some path)))
    (parsedToo : Command.parse argumentsToo = .ok (.run name (some path))) :
    Command.answer fuel others argumentsToo = Command.answer fuel surroundings arguments := by
  obtain ⟨loaded, _⟩ := accepted fuel surroundings source arguments _ readable parsed rfl
  obtain ⟨loadedToo, _⟩ := acceptedToo fuel others name argumentsToo _ readableToo parsedToo rfl
  rw [answer_of_parse parsed, answer_of_parse parsedToo]
  simp only [Command.respond, Command.withProgram, loaded, loadedToo, Command.runResponse,
    Surroundings.inputBytes, input, Option.getD_some]

end Texts

/-- A source text that writes a letter and exits with a code. -/
def exitsWithThree : Text := ".ippcode24\nlabel here\nwrite string@a # once\nEXIT int@3\n".toList

def exitsProgram : Program :=
  ⟨[⟨1, "LABEL".toList, [⟨.label, "here".toList⟩]⟩,
    ⟨2, "WRITE".toList, [⟨.literal .string, ['a']⟩]⟩,
    ⟨3, "EXIT".toList, [⟨.literal .int, ['3']⟩]⟩], [("here".toList, 0)]⟩

/-- A file with this text, and nothing else to read. -/
def onlyFile (text : Text) : Surroundings :=
  ⟨fun name => if name = ['p'] then .content (Text.utf8 text) else .nowhere .missing, []⟩

end IPPcode24
