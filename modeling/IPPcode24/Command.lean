import IPPcode24.Machine.Run
import IPPcode24.Source.Assemble
import IPPcode24.Source.Render

/-!
# Commands

The command line runs, checks or lists a program. All three load the program in
the same way, from a file or from standard input, and report the same faults of
loading. A response is the exit code with what goes to the two outputs.
-/

namespace IPPcode24

/-- Why a path leads nowhere. -/
inductive PathError where
  | missing
  | notDirectory
  | nameTooLong
  | other (reason : String)
deriving DecidableEq

def PathError.message : PathError → String
  | missing => "No such file or directory (os error 2)"
  | notDirectory => "Not a directory (os error 20)"
  | nameTooLong => "File name too long (os error 36)"
  | other reason => reason

/-- What a path leads to. -/
inductive FileState where
  | nowhere (error : PathError)
  | directory
  | content (bytes : List UInt8)
deriving DecidableEq

/-- Everything that a command can read. -/
structure Surroundings where
  file : Text → FileState
  stdin : List UInt8

/-- What a command leaves behind. -/
structure Response where
  code : Nat
  stdout : Text
  stderr : Text
deriving DecidableEq

/-- Why a source or an input cannot be read. -/
inductive ReadError where
  | path (error : PathError)
  | directory
  | notText
deriving DecidableEq

def ReadError.message : ReadError → String
  | path error => error.message
  | directory => "Is a directory (os error 21)"
  | notText => "stream did not contain valid UTF-8"

/-- What a command line asks for. -/
inductive Command where
  | help
  | run (source : Text) (input : Option Text)
  | check (source : Text)
  | list (source : Text) (asSource : Bool)
deriving DecidableEq

/-- Why a command line asks for nothing. -/
inductive UsageError where
  | noCommand
  | unknownCommand (name : Text)
  | run
  | check
  | list
deriving DecidableEq

/-- Why a program cannot be loaded. -/
inductive LoadError where
  | unreadable (name : Text) (error : ReadError)
  | source (error : SourceError)
  | build (error : BuildError)
deriving DecidableEq

namespace LoadError

def message : LoadError → String
  | unreadable name error => s!"cannot read '{Text.shown name}': {error.message}"
  | source error => error.message
  | build error => error.message

def exitCode : LoadError → Nat
  | unreadable _ _ => 11
  | source error => error.exitCode
  | build error => error.exitCode

def response (error : LoadError) : Response :=
  ⟨error.exitCode, [], s!"error: {error.message}\n".toList⟩

end LoadError

namespace Command

def usage : String :=
  "Usage: ippcode <command> [args]\n\n" ++
  "Commands:\n" ++
  "  run <source> [--input <file>]   Execute a program\n" ++
  "  check <source>                  Parse and build without executing\n" ++
  "  list <source> [--source]        Print the program in execution order\n\n" ++
  "<source> may be '-' to read the program from stdin.\n"

def parse : List Text → Except UsageError Command
  | [] => .error .noCommand
  | name :: arguments =>
    if name = "run".toList then
      match arguments with
      | [source] => .ok (.run source none)
      | [source, flag, path] =>
        if flag = "--input".toList then .ok (.run source (some path)) else .error .run
      | _ => .error .run
    else if name = "check".toList then
      match arguments with
      | [source] => .ok (.check source)
      | _ => .error .check
    else if name = "list".toList then
      match arguments with
      | [source] => .ok (.list source false)
      | [source, flag] =>
        if flag = "--source".toList then .ok (.list source true) else .error .list
      | _ => .error .list
    else if name ∈ ["--help".toList, "-h".toList, "help".toList] then .ok .help
    else .error (.unknownCommand name)

end Command

def UsageError.message : UsageError → String
  | noCommand => Command.usage
  | unknownCommand name =>
    s!"error: unknown command '{Text.shown name}'\n\n{Command.usage}"
  | run =>
    "error: run requires a source file\n" ++
    "Usage: ippcode run <source> [--input <file>]\n"
  | check => "error: check requires a source file\nUsage: ippcode check <source>\n"
  | list =>
    "error: list requires a source file\nUsage: ippcode list <source> [--source]\n"

namespace Surroundings

def isStdin (source : Text) : Bool := source = ['-']

def sourceText (surroundings : Surroundings) (source : Text) : Except ReadError Text :=
  let decoded (bytes : List UInt8) : Except ReadError Text :=
    match Text.ofUtf8? bytes with
    | some text => .ok text
    | none => .error .notText
  if isStdin source then decoded surroundings.stdin
  else match surroundings.file source with
    | .nowhere error => .error (.path error)
    | .directory => .error .directory
    | .content bytes => decoded bytes

def load (surroundings : Surroundings) (source : Text) :
    Except (Failure LoadError) Program :=
  match surroundings.sourceText source with
  | .error error => .error (.error (.unreadable source error))
  | .ok text =>
    match Source.assemble text with
    | .error (.crash crash) => .error (.crash crash)
    | .error (.error error) => .error (.error (.source error))
    | .ok records =>
      match Program.build records with
      | .error error => .error (.error (.build error))
      | .ok program => .ok program

/-- The bytes that a program reads. Standard input is used up when the program
itself came from there, and a directory gives nothing. -/
def inputBytes (surroundings : Surroundings) (source : Text) :
    Option Text → Except ReadError (List UInt8)
  | none => .ok (if isStdin source then [] else surroundings.stdin)
  | some path =>
    match surroundings.file path with
    | .nowhere error => .error (.path error)
    | .directory => .ok []
    | .content bytes => .ok bytes

end Surroundings

namespace Command

/-- The response to an execution. Log lines, of which a failed run writes one to the standard
error unless they are turned off, are not part of it. -/
def executed (execution : Execution) : Except Crash Response :=
  let stdout := execution.machine.output.text
  match execution.ending with
  | .halted halt => .ok ⟨halt.code, stdout, []⟩
  | .failed error => .ok ⟨error.exitCode, stdout, s!"runtime error: {error.message}\n".toList⟩
  | .crashed crash => .error crash

/-- The response to running a loaded program; there is none while the program runs
on past the given number of steps. -/
def runResponse (fuel : Nat) (surroundings : Surroundings) (source : Text)
    (input : Option Text) (program : Program) : Option (Except Crash Response) :=
  match surroundings.inputBytes source input with
  | .error error =>
    some (.ok (LoadError.unreadable (input.getD source) error).response)
  | .ok bytes =>
    ((Machine.start ⟨bytes⟩ Output.unbounded).execution? fuel program).map executed

def confirmation (source : Text) (program : Program) : Text :=
  let labels := program.labels.length
  s!"OK: {Text.shown source} ({program.size} instructions, {labels} labels)\n".toList

/-- One line for each instruction from a place on: the place, the key and the source
form. -/
def listing (place : Nat) : List Instruction → Text
  | [] => []
  | instruction :: rest =>
    Text.padLeft 5 (Text.ofNat place) ++ "  ".toList ++
      Text.padLeft 5 (Text.ofInt instruction.order) ++ "  ".toList ++
      instruction.source ++ '\n' :: listing (place + 1) rest

/-- The response to a loaded program, when the command does not run it. -/
def printed (text : Text) : Option (Except Crash Response) := some (.ok ⟨0, text, []⟩)

/-- What a command does with the program of its source. -/
def withProgram (surroundings : Surroundings) (source : Text)
    (respond : Program → Option (Except Crash Response)) : Option (Except Crash Response) :=
  match surroundings.load source with
  | .error (.error error) => some (.ok error.response)
  | .error (.crash crash) => some (.error crash)
  | .ok program => respond program

/-- The response to a command; there is none while a program runs on past the given
number of steps. -/
def respond (fuel : Nat) (surroundings : Surroundings) :
    Command → Option (Except Crash Response)
  | help => some (.ok ⟨0, [], usage.toList⟩)
  | run source input =>
    withProgram surroundings source (runResponse fuel surroundings source input)
  | check source =>
    withProgram surroundings source fun program => printed (confirmation source program)
  | list source true =>
    withProgram surroundings source fun program => printed program.render
  | list source false =>
    withProgram surroundings source fun program =>
      printed (listing 0 program.instructions)

def answer (fuel : Nat) (surroundings : Surroundings) (arguments : List Text) :
    Option (Except Crash Response) :=
  match parse arguments with
  | .error error => some (.ok ⟨10, [], error.message.toList⟩)
  | .ok command => respond fuel surroundings command

end Command

end IPPcode24
